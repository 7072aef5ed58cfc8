import Dalm.History
import Dalm.Reachable

/-! Matches join two searching photos of two users, once and for good. -/
namespace Dalm
open Relational

section changes
variable {settings : Settings} {r : Request} {t : Nat} {held : List RowKey} {w : BackendWorld}
  {db : Db} {events : List Event}

/-- The photo could be matched at `now`. -/
def Matchable (db : Db) (now : Time) (p : UUID) : Prop :=
  ∃ photo, db.photos.get? p = some photo ∧ photo.status = .searching ∧ photo.deletedAt = none ∧
    ∃ expiry, photo.searchExpiresAt = some expiry ∧ now < expiry

theorem matchable_of_ready {users : Table User.id} {photo : Photo} {now : Time}
    (ok : PhotosOk users w.db.photos) (found : w.db.photos.get? photo.id = some photo)
    (searching : photo.status = .searching)
    (timely : ¬ SqlMatchFinalizationStore.isOver now photo) : Matchable w.db now photo.id := by
  have alive : photo.deletedAt = none := (ok _ photo found).deleted.mpr (by simp [searching])
  refine ⟨photo,found,searching,alive,?_⟩
  cases expiry : photo.searchExpiresAt with
  | none => simp [SqlMatchFinalizationStore.isOver,expiry] at timely
  | some expiry' =>
    simp only [SqlMatchFinalizationStore.isOver,expiry,Option.all_some,decide_eq_true_eq,not_le] at timely
    exact ⟨expiry',rfl,timely⟩

/-- A participant is there already, or joins with a match of photos that could be matched. -/
theorem Change.joins {k : UUID × UUID} {row : MatchParticipant} (inv : Inv settings w)
    (change : Change settings r t held w db events) (found : db.participants.get? k = some row) :
    (∃ old, w.db.participants.get? k = some old) ∨ ∃ first second now,
      events = [.matched row.matchId first second now] ∧
      (row.photoId = first ∨ row.photoId = second) ∧ Matchable w.db now row.photoId := by
  cases change with
  | observed | timedOut | deleted | unblocked | postcardRead | account => exact .inl ⟨row,found⟩
  | abandoned | handed | retried | embeddingFailed => exact .inl ⟨row,by simpa using found⟩
  | @created arguments mock cleared _ _ _ _ _ asked onboarded locked written =>
    cases mock with
    | false =>
      obtain ⟨_,_,_,_,rfl⟩ := HomeRepository.createWrites_plain written
      exact .inl ⟨row,found⟩
    | true =>
      obtain ⟨_,_,_,_,_,_,_,rfl⟩ := HomeRepository.createWrites_mock written
      exact .inl ⟨row,found⟩
  | @judged _ result _ _ _ _ _ _ _ asked locked present owned owner validating written =>
    cases verdict : result.status with
    | passed =>
      obtain ⟨_,_,_,_,rfl⟩ := PhotoValidationRepository.resultWrites_passed verdict written
      exact .inl ⟨row,found⟩
    | rejected =>
      obtain ⟨_,_,rfl⟩ := PhotoValidationRepository.resultWrites_rejected verdict written
      exact .inl ⟨row,found⟩
  | @validationFailed _ _ _ failedPhoto _ _ _ _ _ asked locked present owned owner written =>
    by_cases validating : failedPhoto.status = .validating
    · obtain ⟨_,_,rfl⟩ := PhotoValidationRepository.failureWrites_validating validating written
      exact .inl ⟨row,found⟩
    · obtain ⟨_,rfl⟩ := PhotoValidationRepository.failureWrites_other validating written
      exact .inl ⟨row,found⟩
  | embedded asked locked present owned written =>
    obtain ⟨_,_,rfl⟩ := PhotoEmbeddingJobRepository.resultWrites_eq written
    exact .inl ⟨row,found⟩
  | expired asked locked written =>
    obtain ⟨_,_,rfl⟩ := SqlExpirationStore.expireWrites_eq written
    exact .inl ⟨row,found⟩
  | @matched first second _ now _ _ _ _ asked locked present apart searching timely checked written =>
    obtain ⟨rfl,_,freshFirst,freshSecond,_,rfl⟩ := SqlMatchFinalizationStore.finalizeWrites_eq written
    rcases Table.get?_insert_cases freshSecond found with ⟨_,rfl⟩ | earlier
    · exact .inr ⟨first.id,second.id,now,rfl,.inr rfl,
        matchable_of_ready inv.photos present.2 searching.2 timely.2⟩
    · rcases Table.get?_insert_cases freshFirst earlier with ⟨_,rfl⟩ | before
      · exact .inr ⟨first.id,second.id,now,rfl,.inl rfl,
          matchable_of_ready inv.photos present.1 searching.1 timely.1⟩
      · exact .inl ⟨row,before⟩
  | blocked asked written =>
    obtain ⟨_,_,rfl⟩ := SafetyRepository.blockWrites_eq written
    exact .inl ⟨row,found⟩
  | reportedUser asked written =>
    rcases ReportRepository.reportUserWrites_eq written with ⟨_,_,rfl⟩ | ⟨_,_,_,rfl⟩ <;>
      exact .inl ⟨row,found⟩
  | @reportedPhoto _ _ own _ _ _ asked locked written =>
    obtain ⟨_,_,rfl⟩ := ReportRepository.reportPhotoWrites_eq written
    cases own with
    | none => exact .inl ⟨row,found⟩
    | some own =>
      obtain ⟨old,before,_⟩ := Table.get?_modify_eq_some.mp found
      exact .inl ⟨old,before⟩
  | sent asked pair locked parties turn reply written =>
    obtain ⟨_,_,_,rfl⟩ := PostcardRepository.sendWrites_eq written
    exact .inl ⟨row,found⟩
  | @postcardDeleted _ _ _ side => cases side <;> exact .inl ⟨row,found⟩

end changes

structure MatchIntegrity (run : Request → App Response) (s : Backend) : Prop where
  two : ∀ row ∈ s.db.matches_.rows, ∃ first ∈ s.db.participants.rows,
    ∃ second ∈ s.db.participants.rows, first.matchId = row.id ∧ second.matchId = row.id ∧
      first.photoId ≠ second.photoId ∧ first.userId ≠ second.userId ∧
      ∀ other ∈ s.db.participants.rows, other.matchId = row.id → other = first ∨ other = second
  owned : ∀ row ∈ s.db.participants.rows, ∃ photo, s.db.photos.get? row.photoId = some photo ∧
    photo.userId = row.userId
  matched : ∀ photo ∈ s.db.photos.rows,
    photo.status = .matched ↔ ∃ row ∈ s.db.participants.rows, row.photoId = photo.id
  once : ∀ row ∈ s.db.participants.rows, ∀ other ∈ s.db.participants.rows,
    row.photoId = other.photoId → row = other
  made : ∀ action u, s.step run action = some u → ∀ row ∈ u.db.participants.rows,
    s.db.matches_.get? row.matchId = none → ∃ t first second now,
      u.world.log = s.world.log ++ [(t,.matched row.matchId first second now)] ∧
      (row.photoId = first ∨ row.photoId = second) ∧ Matchable s.db now row.photoId
  final : ∀ u, Reach run Discipline.none s u → ∀ p, hasStatus s.db p .matched →
    hasStatus u.db p .matched ∧ ∃ more, u.world.log = s.world.log ++ more ∧
      ∀ entry ∈ more, entry.2.settles p = false
  apart : ∀ t t' p m first second now, (t,.photoDeleted p) ∈ s.world.log →
    (t',.matched m first second now) ∈ s.world.log → p ≠ first ∧ p ≠ second

section states
variable {settings : Settings} {w : BackendWorld}

private theorem exactly_two (inv : Inv settings w) {row : Match} (member : row ∈ w.db.matches_.rows) :
    ∃ first ∈ w.db.participants.rows, ∃ second ∈ w.db.participants.rows,
      first.matchId = row.id ∧ second.matchId = row.id ∧ first.photoId ≠ second.photoId ∧
      first.userId ≠ second.userId ∧
      ∀ other ∈ w.db.participants.rows, other.matchId = row.id → other = first ∨ other = second := by
  have there : (w.db.matches_.get? row.id).isSome := by
    rw [Table.get?_of_mem member]
    rfl
  obtain ⟨u,v,first,second,users,found₁,found₂,photos,only⟩ := inv.matches_.pair row.id there
  obtain ⟨member₁,key₁⟩ := Table.mem_rows_of_get? found₁
  obtain ⟨member₂,key₂⟩ := Table.mem_rows_of_get? found₂
  simp only [Prod.mk.injEq] at key₁ key₂
  refine ⟨first,member₁,second,member₂,key₁.1,key₂.1,photos,?_,?_⟩
  · rw [key₁.2,key₂.2]
    exact users
  · intro other inside same
    have found := Table.get?_of_mem inside
    rw [same] at found
    rcases only _ _ found with equal | equal
    · rw [equal] at found
      exact .inl (Option.some.inj (found.symm.trans found₁))
    · rw [equal] at found
      exact .inr (Option.some.inj (found.symm.trans found₂))

private theorem matched_iff_joined (inv : Inv settings w) {photo : Photo}
    (member : photo ∈ w.db.photos.rows) :
    photo.status = .matched ↔ ∃ row ∈ w.db.participants.rows, row.photoId = photo.id := by
  have present := Table.get?_of_mem member
  constructor
  · intro status
    obtain ⟨m,u,row,found,same⟩ := inv.matches_.matched _ photo present status
    exact ⟨row,(Table.mem_rows_of_get? found).1,same⟩
  · rintro ⟨row,joined,same⟩
    obtain ⟨_,other,found,_,status⟩ := inv.matches_.participant _ _ row (Table.get?_of_mem joined)
    rw [same] at found
    cases Option.some.inj (found.symm.trans present)
    exact status

private theorem joined_once (inv : Inv settings w) {row other : MatchParticipant}
    (member : row ∈ w.db.participants.rows) (member' : other ∈ w.db.participants.rows)
    (same : row.photoId = other.photoId) : row = other := by
  have found := Table.get?_of_mem member
  have found' := Table.get?_of_mem member'
  rw [← inv.matches_.once _ _ _ _ found found' same] at found'
  exact Option.some.inj (found.symm.trans found')

private theorem deleted_or_matched (inv : Inv settings w) {t t' : Nat} {p m first second : UUID}
    {now : Time} (gone : (t,.photoDeleted p) ∈ w.log) (made : (t',.matched m first second now) ∈ w.log) :
    p ≠ first ∧ p ≠ second := by
  obtain ⟨photo,found,deleted⟩ := inv.history.deleted t p gone
  have different : ∀ {q : UUID}, hasStatus w.db q .matched → p ≠ q := by
    rintro q ⟨other,found',matched⟩ rfl
    cases Option.some.inj (found.symm.trans found')
    rw [deleted] at matched
    cases matched
  obtain ⟨one,two⟩ := inv.history.matched t' m first second now made
  exact ⟨different one,different two⟩

end states

section runs
variable {K : Type} [Field K] [LinearOrder K] [IsStrictOrderedRing K] [FloorRing K]
  {settings : Settings} {sqrt : ℚ → K} {users : Table User.id} {s : Backend}

private theorem Reachable.made (reachable : Reachable settings sqrt users s)
    {action : Action Input Exc Request} {u : Backend}
    (taken : s.step (program settings sqrt) action = some u) {row : MatchParticipant}
    (member : row ∈ u.db.participants.rows) (fresh : s.world.db.matches_.get? row.matchId = none) :
    ∃ t first second now,
      u.world.log = s.world.log ++ [(t,.matched row.matchId first second now)] ∧
      (row.photoId = first ∨ row.photoId = second) ∧ Matchable s.world.db now row.photoId := by
  have inv := reachable.inv
  have new : ∀ old, s.world.db.participants.get? (row.matchId,row.userId) ≠ some old := by
    intro old before
    have there := (inv.matches_.participant _ _ old before).1
    rw [fresh] at there
    cases there
  have after : u.world.db.participants.get? (row.matchId,row.userId) = some row := Table.get?_of_mem member
  rcases reachable.change taken with same | ⟨t,i,session,held,db,events,_,_,_,change,same⟩
  · rw [same] at after
    exact absurd after (new row)
  · rw [same] at after
    rcases change.joins inv after with ⟨old,before⟩ | ⟨first,second,now,rfl,own,matchable⟩
    · exact absurd before (new old)
    · exact ⟨t,first,second,now,congrArg World.log same,own,matchable⟩

private theorem Reachable.stays_matched (reachable : Reachable settings sqrt users s) {u : Backend}
    (run : Reach (program settings sqrt) Discipline.none s u) {p : UUID}
    (matched : hasStatus s.world.db p .matched) : hasStatus u.world.db p .matched ∧ ∃ more,
      u.world.log = s.world.log ++ more ∧ ∀ entry ∈ more, entry.2.settles p = false := by
  refine reachable.preserves (F := fun w => hasStatus w.db p .matched ∧ ∃ more,
    w.log = s.world.log ++ more ∧ ∀ entry ∈ more, entry.2.settles p = false) run
    ⟨matched,[],by simp,by simp⟩ ?_
  rintro r t held a db events _ change _ ⟨status,more,same,quiet⟩
  refine ⟨change.final status (.inl rfl),more ++ events.map fun event => (t,event),?_,?_⟩
  · rw [World.log_record,same,List.append_assoc]
  · intro entry member
    rcases List.mem_append.mp member with member | member
    · exact quiet entry member
    · obtain ⟨event,inside,rfl⟩ := List.mem_map.mp member
      exact change.settled status event inside

theorem matchIntegrity (reachable : Reachable settings sqrt users s) :
    MatchIntegrity (program settings sqrt) s where
  two _ member := exactly_two reachable.inv member
  owned row member := by
    obtain ⟨_,photo,found,owner,_⟩ :=
      reachable.inv.matches_.participant _ _ row (Table.get?_of_mem member)
    exact ⟨photo,found,owner⟩
  matched _ member := matched_iff_joined reachable.inv member
  once _ member _ member' same := joined_once reachable.inv member member' same
  made _ _ taken _ member fresh := reachable.made taken member fresh
  final _ run _ matched := reachable.stays_matched run matched
  apart _ _ _ _ _ _ _ gone made := deleted_or_matched reachable.inv gone made

end runs

theorem matchIntegrity_matched : ∃ s, Sample.after Sample.matched = some s ∧
    s.db.participants.rows.length = 2 ∧ MatchIntegrity (program Sample.settings Rat.sqrt) s := by
  obtain ⟨s,ran,reachable,two⟩ := Sample.reached Sample.matched
    (fun s => s.db.participants.rows.length = 2) (by decide +kernel)
  exact ⟨s,ran,of_decide_eq_true two,matchIntegrity reachable⟩

end Dalm
