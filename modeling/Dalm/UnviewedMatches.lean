import Dalm.MomentTabs
import Dalm.Relational.Ordered

/-! Walking through the matches a user has not looked at yet: what is shown next, how many are left,
and what looking at the next one changes. -/
namespace Dalm
open Relational Txn HomeRepository

section columns
variable {db : Db} {userId matchId : UUID} {today : Date}

/-- The rows that are counted. -/
def unviewed (userId : UUID) (today : Date) (db : Db) : List CardColumns :=
  (cardColumns userId db).filter (isUnviewed userId today db)

theorem mem_cardColumns {row : CardColumns} : row ∈ cardColumns userId db ↔
    (row.mine ∈ db.participants.rows ∧ row.mine.userId = userId) ∧
      db.matches_.get? row.mine.matchId = some row.match_ ∧ db.photos.get? row.mine.photoId = some row.photo ∧
      row.partner ∈ partners userId row.match_.id db ∧
      db.photos.get? row.partner.photoId = some row.partnerPhoto := by
  simp only [cardColumns,List.bind_eq_flatMap,List.mem_flatMap,List.mem_filter,decide_eq_true_eq,
    Option.mem_toList,List.pure_def,List.mem_singleton]
  constructor
  · rintro ⟨mine,own,match_,joined,photo,stored,partner,other,partnerPhoto,stored',rfl⟩
    exact ⟨own,joined,stored,other,stored'⟩
  · rintro ⟨own,joined,stored,other,stored'⟩
    exact ⟨row.mine,own,row.match_,joined,row.photo,stored,row.partner,other,row.partnerPhoto,stored',rfl⟩

theorem cardColumns_key {row : CardColumns} (member : row ∈ cardColumns userId db) :
    row.match_.id = row.mine.matchId := Table.key_of_get? (mem_cardColumns.mp member).2.1

/-- The cards of one participant. -/
def cardsOf (userId : UUID) (db : Db) (mine : MatchParticipant) : List CardColumns := do
  let match_ ← (db.matches_.get? mine.matchId).toList
  let photo ← (db.photos.get? mine.photoId).toList
  let partner ← partners userId match_.id db
  let partnerPhoto ← (db.photos.get? partner.photoId).toList
  return ⟨match_,mine,photo,partner,partnerPhoto⟩

theorem cardColumns_eq : cardColumns userId db =
    (db.participants.rows.filter fun row => row.userId = userId).flatMap (cardsOf userId db) := rfl

theorem cardsOf_mine {mine : MatchParticipant} {row : CardColumns} (member : row ∈ cardsOf userId db mine) :
    row.mine = mine := by
  simp only [cardsOf,List.bind_eq_flatMap,List.mem_flatMap,List.pure_def,List.mem_singleton] at member
  obtain ⟨_,_,_,_,_,_,_,_,rfl⟩ := member
  rfl

theorem length_toList {α : Type} (found : Option α) : found.toList.length ≤ 1 := by
  cases found <;> simp

theorem Paired.cardsOf (paired : Paired db) {mine : MatchParticipant} (seat : mine ∈ db.participants.rows) :
    (Dalm.cardsOf mine.userId db mine).length ≤ 1 := by
  refine length_flatMap_le_one (length_toList _) fun match_ found => ?_
  refine length_flatMap_le_one (length_toList _) fun photo _ => ?_
  refine length_flatMap_le_one ?_ fun partner _ => length_flatMap_le_one (length_toList _) fun _ _ => ?_
  · rw [Table.key_of_get? (Option.mem_toList.mp found)]
    exact paired.partners seat
  · exact Nat.le_refl 1

theorem Paired.cardColumns (paired : Paired db) (userId : UUID) :
    ((cardColumns userId db).map fun row => row.match_.id).Nodup := by
  have keys : (db.participants.rows.filter fun row => row.userId = userId).Pairwise fun first second =>
      first.matchId ≠ second.matchId := by
    refine List.Pairwise.imp_of_mem ?_ ((List.pairwise_map.mp db.participants.distinct).filter _)
    intro first second one two apart same
    have own := of_decide_eq_true (List.mem_filter.mp one).2
    have own' := of_decide_eq_true (List.mem_filter.mp two).2
    exact apart (Prod.ext same (own.trans own'.symm))
  have mines : (HomeRepository.cardColumns userId db).Pairwise fun first second =>
      first.mine.matchId ≠ second.mine.matchId := by
    rw [cardColumns_eq]
    refine List.pairwise_flatMap.mpr ⟨fun mine member => ?_,keys.imp fun apart first one second two => ?_⟩
    · obtain ⟨seat,own⟩ := List.mem_filter.mp member
      have few := paired.cardsOf seat
      rw [of_decide_eq_true own] at few
      generalize Dalm.cardsOf userId db mine = cards at few
      match cards with
      | [] => exact .nil
      | [_] => exact List.pairwise_singleton _ _
      | _ :: _ :: _ => exact absurd few (by simp)
    · rw [cardsOf_mine one,cardsOf_mine two]
      exact apart
  refine List.pairwise_map.mpr (mines.imp_of_mem fun one two apart => ?_)
  rw [cardColumns_key one,cardColumns_key two]
  exact apart

/-- The database after the user looked at the match. -/
def looked (matchId userId : UUID) (now : Time) (db : Db) : Db :=
  updateParticipant matchId userId (fun row => {row with viewedAt := some now}) (fun _ => rfl) db

/-- What looking makes of a participant. -/
def look (matchId userId : UUID) (now : Time) (row : MatchParticipant) : MatchParticipant :=
  if (row.matchId,row.userId) = (matchId,userId) then {row with viewedAt := some now} else row

theorem looked_participants (now : Time) :
    (looked matchId userId now db).participants.rows = db.participants.rows.map (look matchId userId now) := by
  simp [looked,updateParticipant,look]

theorem look_other {now : Time} {row : MatchParticipant} (other : row.userId ≠ userId) :
    look matchId userId now row = row := if_neg fun same => other (congrArg Prod.snd same)

theorem look_seat (now : Time) (row : MatchParticipant) : (look matchId userId now row).matchId = row.matchId ∧
    (look matchId userId now row).userId = row.userId ∧ (look matchId userId now row).photoId = row.photoId := by
  unfold look
  split <;> exact ⟨rfl,rfl,rfl⟩

theorem looked_partners (now : Time) (m : UUID) :
    partners userId m (looked matchId userId now db) = partners userId m db := by
  unfold partners
  rw [looked_participants]
  refine filter_map_kept (fun row => ?_) (fun row chosen => ?_) _
  · rw [(look_seat now row).1,(look_seat now row).2.1]
  · exact look_other (of_decide_eq_true chosen).2

/-- A card after the user looked at the match. -/
def HomeRepository.CardColumns.look (matchId userId : UUID) (now : Time) (row : CardColumns) : CardColumns :=
  {row with mine := Dalm.look matchId userId now row.mine}

theorem looked_cardColumns (now : Time) : cardColumns userId (looked matchId userId now db) =
    (cardColumns userId db).map (CardColumns.look matchId userId now) := by
  have mine : (looked matchId userId now db).participants.rows.filter (fun row => row.userId = userId) =
      (db.participants.rows.filter fun row => row.userId = userId).map (look matchId userId now) := by
    rw [looked_participants]
    exact filter_map_through (fun row => by rw [(look_seat now row).2.1]) _
  rw [cardColumns_eq,cardColumns_eq,mine,List.flatMap_map,List.map_flatMap]
  congr 1
  funext row
  unfold cardsOf
  simp only [(look_seat now row).1,(look_seat now row).2.2,looked_partners,List.bind_eq_flatMap,
    List.map_flatMap,List.pure_def]
  rfl

/-- Looking at a match takes its card out, and no other. -/
theorem unviewed_looked (now : Time) : unviewed userId today (looked matchId userId now db) =
    (unviewed userId today db).filter fun row => row.match_.id ≠ matchId := by
  have passes : ∀ row ∈ cardColumns userId db,
      (isUnviewed userId today (looked matchId userId now db) ∘ CardColumns.look matchId userId now) row =
        (decide (row.match_.id ≠ matchId) && isUnviewed userId today db row) := by
    intro row member
    rw [Function.comp_apply]
    have own := (mem_cardColumns.mp member).1.2
    rw [cardColumns_key member]
    by_cases same : row.mine.matchId = matchId
    · simp [isUnviewed,CardColumns.look,look,same,own]
    · have kept : row.look matchId userId now = row := by
        simp [CardColumns.look,look,same]
      rw [kept,decide_eq_true same]
      rfl
  unfold unviewed
  rw [looked_cardColumns,List.filter_map,List.filter_filter,List.filter_congr passes]
  refine (List.map_congr_left fun row member => ?_).trans (List.map_id _)
  obtain ⟨there,chosen⟩ := List.mem_filter.mp member
  have other : row.mine.matchId ≠ matchId :=
    cardColumns_key there ▸ of_decide_eq_true ((Bool.and_eq_true _ _).mp chosen).1
  simp [CardColumns.look,look,other]

end columns

instance : Std.Total matchedEarlier where
  total first second := le_total first.match_.matchedAt second.match_.matchedAt

instance : IsTrans _ matchedEarlier where
  trans _ _ _ := le_trans

/-- One round of the walk: what a request for the next match and the one that marks it are given. -/
structure Round where
  session : Nat
  inputs : Nat → Input
  marking : Nat
  marked : Nat → Input

/-- The answers of the rounds: the match that is shown is marked, and nothing else happens. -/
def walk (userId : UUID) (today : Date) : List Round → BackendWorld → List (Except Exc (Option MatchCardRow × Nat))
  | [],_ => []
  | round :: rounds,w =>
    let ended := alone round.session round.inputs (getNextUnviewedMatch userId today) 0 w
    match ended.result with
    | .ok (some card,count) => .ok (some card,count) :: walk userId today rounds
        (alone round.marking round.marked (markMatchViewed userId card.matchId) 0 ended.world).world
    | answer => answer :: walk userId today rounds ended.world

section walking
variable {w : BackendWorld} {db : Db} {userId : UUID} {today : Date} {t n : Nat} {inputs : Nat → Input}

theorem alone_getNextUnviewedMatch : alone t inputs (getNextUnviewedMatch userId today) n w =
    ⟨.ok ((((unviewed userId today w.db).insertionSort matchedEarlier).head?).map CardColumns.row,
      (unviewed userId today w.db).length),n + 2,w⟩ := by
  rw [getNextUnviewedMatch,alone_query,alone_query]
  rfl

theorem alone_markMatchViewed {row : CardColumns} (member : row ∈ unviewed userId today w.db) (t n : Nat)
    (inputs : Nat → Input) : ∃ now m, alone t inputs (markMatchViewed userId row.match_.id) n w =
      ⟨.ok (some now),m,⟨looked row.match_.id userId now w.db,w.log⟩⟩ := by
  obtain ⟨there,open_⟩ := List.mem_filter.mp member
  obtain ⟨⟨seat,own⟩,_⟩ := mem_cardColumns.mp there
  have found : w.db.participants.get? (row.match_.id,userId) = some row.mine := by
    rw [cardColumns_key there,← own]
    exact Table.get?_of_mem seat
  have fresh : row.mine.viewedAt = none := (of_decide_eq_true open_).1
  refine ⟨(inputs (n + 1)).now,n + 4,?_⟩
  rw [markMatchViewed,alone_query,found]
  dsimp only
  rw [fresh]
  dsimp only
  rw [alone_supply,alone_selectForUpdate,alone_commitOr]
  dsimp only
  rw [World.record_nil]
  rfl

theorem Paired.looked (paired : Paired db) (matchId : UUID) (now : Time) :
    Paired (Dalm.looked matchId userId now db) := by
  have same : bare (Dalm.looked matchId userId now db) = bare db := bare_modify fun row => rfl
  rw [← paired_bare,same,paired_bare]
  exact paired

theorem Paired.unviewed (paired : Paired db) (userId : UUID) (today : Date) :
    ((Dalm.unviewed userId today db).map fun row => row.match_.id).Nodup :=
  (paired.cardColumns userId).sublist (List.filter_sublist.map _)

/-- The match that was looked at is taken out of those that are left, and no other. -/
theorem unviewed_next (paired : Paired db) {row : CardColumns} (now : Time)
    (member : row ∈ unviewed userId today db) :
    (row :: unviewed userId today (looked row.match_.id userId now db)).Perm (unviewed userId today db) := by
  have distinct := paired.unviewed userId today
  have erased : (unviewed userId today db).filter (fun other => other.match_.id ≠ row.match_.id) =
      (unviewed userId today db).erase row := by
    rw [List.Nodup.erase_eq_filter (List.Nodup.of_map _ distinct)]
    refine List.filter_congr fun other there => ?_
    by_cases same : other = row
    · simp [same]
    · have apart : other.match_.id ≠ row.match_.id := fun ids =>
        same (List.inj_on_of_nodup_map distinct there member ids)
      simp [same,apart]
  rw [unviewed_looked,erased]
  exact (List.perm_cons_erase member).symm

theorem walk_none {round : Round} {rounds : List Round}
    (first : ((unviewed userId today w.db).insertionSort matchedEarlier).head? = none) :
    walk userId today (round :: rounds) w =
      .ok (none,(unviewed userId today w.db).length) :: walk userId today rounds w := by
  rw [walk,alone_getNextUnviewedMatch,first,Option.map_none]

theorem walk_some {round : Round} {rounds : List Round} {row : CardColumns}
    (first : ((unviewed userId today w.db).insertionSort matchedEarlier).head? = some row) :
    walk userId today (round :: rounds) w =
      .ok (some row.row,(unviewed userId today w.db).length) :: walk userId today rounds
        (alone round.marking round.marked (markMatchViewed userId row.match_.id) 0 w).world := by
  rw [walk,alone_getNextUnviewedMatch,first,Option.map_some]
  rfl

/-- The walk shows what was left at its start, one match a round, the earliest first. -/
theorem walk_shows (userId : UUID) (today : Date) (paired : Paired w.db) (rounds : List Round) : ∃ cards : List CardColumns,
    cards.Perm (unviewed userId today w.db) ∧ cards.Pairwise matchedEarlier ∧
      walk userId today rounds w = (List.range rounds.length).map fun k =>
        .ok ((cards[k]?).map CardColumns.row,cards.length - k) := by
  induction rounds generalizing w with
  | nil =>
    exact ⟨_,List.perm_insertionSort matchedEarlier _,List.pairwise_insertionSort matchedEarlier _,rfl⟩
  | cons round rounds ih =>
    cases first : ((unviewed userId today w.db).insertionSort matchedEarlier).head? with
    | none =>
      have nothing : unviewed userId today w.db = [] :=
        List.filter_eq_nil_iff.mpr fun row there => Bool.eq_false_iff.mp (head?_eq_none first row there)
      obtain ⟨cards,perm,sorted,shown⟩ := ih paired
      have none_ : cards = [] := List.Perm.eq_nil (nothing ▸ perm)
      subst none_
      refine ⟨[],perm,sorted,?_⟩
      rw [walk_none first,shown,nothing,List.length_cons,List.range_succ_eq_map,List.map_cons,List.map_map]
      refine congrArg _ (List.map_congr_left fun k _ => ?_)
      simp
    | some row =>
      obtain ⟨there,open_,earliest⟩ := head?_eq_some first
      have member : row ∈ unviewed userId today w.db := List.mem_filter.mpr ⟨there,open_⟩
      obtain ⟨now,m,marked⟩ := alone_markMatchViewed member round.marking 0 round.marked
      obtain ⟨cards,perm,sorted,shown⟩ := ih (w := ⟨looked row.match_.id userId now w.db,w.log⟩)
        (paired.looked row.match_.id now)
      have all := (perm.cons row).trans (unviewed_next paired now member)
      refine ⟨row :: cards,all,List.pairwise_cons.mpr ⟨fun other inside => ?_,sorted⟩,?_⟩
      · obtain ⟨present,chosen⟩ := List.mem_filter.mp (all.mem_iff.mp (List.mem_cons_of_mem row inside))
        exact earliest other present chosen
      · rw [walk_some first,marked,shown,← all.length_eq,List.length_cons,List.length_cons,
          List.range_succ_eq_map,List.map_cons,List.map_map]
        refine congrArg _ (List.map_congr_left fun k _ => ?_)
        simp

/-- The next match is none exactly when none is counted, and whoever marks the match that is shown again and
again is shown each match counted at the start once, in the order they were made, then none. -/
theorem unviewedMatches {K : Type} [Field K] [LinearOrder K] [IsStrictOrderedRing K] [FloorRing K]
    {settings : Settings} {sqrt : ℚ → K} {users : Table User.id} (lived : Lived settings sqrt users w.db)
    (userId : UUID) (today : Date) :
    (∀ t inputs, ∃ next count, (alone t inputs (getNextUnviewedMatch userId today) 0 w).result = .ok (next,count) ∧
      (next = none ↔ count = 0)) ∧
    ∀ rounds : List Round, ∃ cards : List CardColumns, cards.Perm ((cardColumns userId w.db).filter
        (isUnviewed userId today w.db)) ∧ (cards.map fun row => row.match_.id).Nodup ∧
      cards.Pairwise matchedEarlier ∧ walk userId today rounds w = (List.range rounds.length).map fun k =>
        .ok ((cards[k]?).map CardColumns.row,cards.length - k) := by
  have paired := lived.paired
  refine ⟨fun t inputs => ?_,fun rounds => ?_⟩
  · rw [alone_getNextUnviewedMatch]
    refine ⟨_,_,rfl,?_⟩
    rw [Option.map_eq_none_iff,List.head?_eq_none_iff,List.length_eq_zero_iff]
    have perm := List.perm_insertionSort matchedEarlier (unviewed userId today w.db)
    exact ⟨fun empty => List.Perm.nil_eq (empty ▸ perm) |>.symm,fun empty => List.Perm.eq_nil (empty ▸ perm)⟩
  · obtain ⟨cards,perm,sorted,shown⟩ := walk_shows userId today paired rounds
    exact ⟨cards,perm,(perm.map _).nodup_iff.mpr (paired.unviewed userId today),sorted,shown⟩

end walking

namespace Sample

def twice : List Round :=
  [⟨7,fun _ => input 9 0,8,fun _ => input 9 0⟩,⟨9,fun _ => input 9 0,10,fun _ => input 9 0⟩]

end Sample

theorem unviewedMatches_matched : ∃ s : Backend, Reachable Sample.settings Rat.sqrt Sample.users s ∧
    ∃ cards : List CardColumns, cards.map (fun row => row.mine.photoId) = [11] ∧
      walk 1 5 Sample.twice s.world = [.ok ((cards[0]?).map CardColumns.row,1),.ok (none,0)] := by
  obtain ⟨s,_,reachable,passed⟩ := Sample.reached Sample.matched
    (fun s => (unviewed 1 5 s.db).map (fun row => row.mine.photoId) = [11]) (by decide +kernel)
  obtain ⟨cards,perm,_,_,shown⟩ := (unviewedMatches reachable.lived 1 5).2 Sample.twice
  have photos : (cards.map fun row => row.mine.photoId) = [11] :=
    List.perm_singleton.mp ((perm.map _).trans (List.Perm.of_eq (of_decide_eq_true passed)))
  have one : cards.length = 1 := by
    rw [← List.length_map fun row => row.mine.photoId,photos]
    rfl
  refine ⟨s,reachable,cards,photos,shown.trans ?_⟩
  simp [Sample.twice,List.range_succ,one]

end Dalm
