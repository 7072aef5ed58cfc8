import Dalm.Pagination
import Dalm.PersonalActions

/-! What a database holds but for the matches users hid and looked at: no request but these reads
the two columns, so whatever they say, the rest is as some run left it. -/
namespace Dalm
open Relational Txn HomeRepository

/-- The database without the times of hiding and of looking. -/
def bare (db : Db) : Db := {db with participants := db.participants.modify (fun _ => true) seat seat_key}

section bare
variable {db db' : Db}

theorem bare_participants (db : Db) : (bare db).participants.rows = db.participants.rows.map seat := by
  simp [bare]

/-- The rows of a participants' table are told apart by what hiding leaves alone. -/
theorem seat_injective {first second : MatchParticipant} (one : first ∈ db.participants.rows)
    (two : second ∈ db.participants.rows) (same : seat first = seat second) : first = second := by
  have keys : (first.matchId,first.userId) = (second.matchId,second.userId) := by
    rw [← seat_key first,same,seat_key]
  have found := Table.get?_of_mem one
  rw [keys,Table.get?_of_mem two] at found
  exact (Option.some.inj found).symm

theorem paired_bare (db : Db) : Paired (bare db) ↔ Paired db := by
  constructor
  · intro paired
    have inside : ∀ row ∈ db.participants.rows, seat row ∈ (bare db).participants.rows := by
      intro row member
      rw [bare_participants]
      exact List.mem_map_of_mem member
    refine ⟨fun first one second two same => ?_,fun mine one first two second three => ?_⟩
    · exact seat_injective one two (paired.seat _ (inside _ one) _ (inside _ two) same)
    · intro here there other other'
      exact seat_injective two three (paired.partner _ (inside _ one) _ (inside _ two) _ (inside _ three)
        here there other other')
  · intro paired
    have outside : ∀ row ∈ (bare db).participants.rows, ∃ own ∈ db.participants.rows, seat own = row := by
      intro row member
      rw [bare_participants] at member
      exact List.mem_map.mp member
    refine ⟨fun first one second two same => ?_,fun mine one first two second three => ?_⟩
    · obtain ⟨_,own,rfl⟩ := outside first one
      obtain ⟨_,own',rfl⟩ := outside second two
      exact congrArg seat (paired.seat _ own _ own' same)
    · obtain ⟨_,own,rfl⟩ := outside mine one
      obtain ⟨_,own',rfl⟩ := outside first two
      obtain ⟨_,own'',rfl⟩ := outside second three
      exact fun here there other other' =>
        congrArg seat (paired.partner _ own _ own' _ own'' here there other other')

theorem bare_modify {chosen : UUID × UUID → Bool} {assign : MatchParticipant → MatchParticipant}
    {keeps : ∀ row, ((assign row).matchId,(assign row).userId) = (row.matchId,row.userId)}
    (same : ∀ row, seat (assign row) = seat row) :
    bare {db with participants := db.participants.modify chosen assign keeps} = bare db := by
  have rows : (bare {db with participants := db.participants.modify chosen assign keeps}).participants =
      (bare db).participants := by
    refine Table.ext ?_
    simp only [bare,Table.rows_modify,if_true,List.map_map]
    refine List.map_congr_left fun row _ => ?_
    simp only [Function.comp_apply]
    split
    · exact same row
    · rfl
  unfold bare at rows ⊢
  simp only at rows ⊢
  rw [rows]

end bare

section lived
variable {K : Type} [Field K] [LinearOrder K] [IsStrictOrderedRing K] [FloorRing K]
  {settings : Settings} {sqrt : ℚ → K} {users : Table User.id} {db : Db}

/-- A database that the requests of some run leave, whatever users hid and looked at in the meantime. -/
def Lived (settings : Settings) (sqrt : ℚ → K) (users : Table User.id) (db : Db) : Prop :=
  ∃ s, Reachable settings sqrt users s ∧ bare db = bare s.db

theorem Reachable.lived {s : Backend} (reachable : Reachable settings sqrt users s) :
    Lived settings sqrt users s.db := ⟨s,reachable,rfl⟩

theorem Lived.paired (lived : Lived settings sqrt users db) : Paired db := by
  obtain ⟨s,reachable,same⟩ := lived
  rw [← paired_bare,same,paired_bare]
  exact reachable.paired

end lived
end Dalm
