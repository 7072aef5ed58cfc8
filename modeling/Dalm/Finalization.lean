import Dalm.Programs

/-! What a finalization comes to: a match of two photos that were locked, searching,
timely and found unblocked, or a refusal with the state that caused it. -/
namespace Dalm
open Relational Held
variable {settings : Settings} {D : Discipline Db Input Event} {r : Request} {t : Nat}
  {w w' : BackendWorld} {H : Held Db RowKey}

theorem passage_preserves {F : BackendWorld → Prop} (passage : Passage (protocol settings) D w w')
    (start : F w) (each : ∀ r u held a db events, Inv settings a →
      Change settings r u held a db events → F a → F ((World.mk db a.log).record u events)) :
    F w' := by
  refine passage.preserves start ?_
  rintro r u held a b inv ⟨db,events,change,rfl⟩ _ holds
  exact each r u held a db events inv change holds

theorem Passage.photo {p : UUID} (passage : Passage (protocol settings) D w w')
    (there : w.db.photos.get? p ≠ none) : w'.db.photos.get? p ≠ none := by
  refine passage_preserves (F := fun w => w.db.photos.get? p ≠ none) passage there ?_
  intro r u held a db events _ change present
  obtain ⟨photo,found⟩ := Option.ne_none_iff_exists'.mp present
  obtain ⟨photo',after,_⟩ := change.photo found
  exact Option.ne_none_iff_exists'.mpr ⟨photo',after⟩

theorem Passage.photo_follows {p : UUID} (passage : Passage (protocol settings) D w w') {photo : Photo}
    (found : w.db.photos.get? p = some photo) : ∃ photo', w'.db.photos.get? p = some photo' ∧
      photo'.userId = photo.userId ∧ photo'.registeredAt = photo.registeredAt := by
  refine passage_preserves (F := fun w => ∃ photo', w.db.photos.get? p = some photo' ∧
    photo'.userId = photo.userId ∧ photo'.registeredAt = photo.registeredAt) passage
    ⟨photo,found,rfl,rfl⟩ ?_
  rintro r u held a db events _ change ⟨photo',found',owner,registered⟩
  obtain ⟨photo'',after,_,follows⟩ := change.photo found'
  exact ⟨photo'',after,follows.owner.trans owner,follows.registered.trans registered⟩

namespace SqlMatchFinalizationStore

/-- The two photos as finalize has them locked. -/
structure Locked (db : Db) (first second : UUID) (a b : Photo) : Prop where
  ids : (a.id = first ∧ b.id = second) ∨ (a.id = second ∧ b.id = first)
  apart : a.id ≠ b.id
  found : db.photos.get? a.id = some a ∧ db.photos.get? b.id = some b

/-- Two photos finalize may match, were it not for a block. -/
structure Ready (db : Db) (first second : UUID) (now : Time) (a b : Photo) : Prop
    extends Locked db first second a b where
  users : a.userId ≠ b.userId
  searching : a.status = .searching ∧ b.status = .searching
  timely : ¬ isOver now a ∧ ¬ isOver now b

theorem Locked.symm {db : Db} {first second : UUID} {a b : Photo} (locked : Locked db first second a b) :
    Locked db second first a b := ⟨locked.ids.symm,locked.apart,locked.found⟩

theorem Ready.symm {db : Db} {first second : UUID} {now : Time} {a b : Photo}
    (ready : Ready db first second now a b) : Ready db second first now a b :=
  ⟨ready.toLocked.symm,ready.users,ready.searching,ready.timely⟩

/-- Why finalize, called in the world `entry`, refuses in this one. -/
inductive Refused (D : Discipline Db Input Event) (first second : UUID) (now : Time)
    (entry w : BackendWorld) : Exc → Prop where
  | missing (absent : first = second ∨ entry.db.photos.get? first = none ∨
      entry.db.photos.get? second = none) : Refused D first second now entry w photoNotFound
  | sameUser {a b : Photo} (locked : Locked w.db first second a b) (same : a.userId = b.userId) :
    Refused D first second now entry w sameUser
  | changed {a b : Photo} (locked : Locked w.db first second a b)
      (status : a.status ≠ .searching ∨ b.status ≠ .searching) :
    Refused D first second now entry w candidateChanged
  | late {a b : Photo} (locked : Locked w.db first second a b) (closed : isOver now a ∨ isOver now b) :
    Refused D first second now entry w periodExpired
  | blocked {a b : Photo} (locked : Locked w.db first second a b)
      (blocked : w.db.blockedBetween a.userId b.userId) : Refused D first second now entry w userBlocked
  | integrity {a b : Photo} {explanation : List Char} {start : Time} {ids : Input}
      (ready : Ready w.db first second now a b) (input : D.input w ids)
      (failed : finalizeWrites a b explanation now start ids w.db = none) :
    Refused D first second now entry w .integrityError

theorem Refused.symm {first second : UUID} {now : Time} {entry w : BackendWorld} {error : Exc}
    (refused : Refused D first second now entry w error) :
    Refused D second first now entry w error := by
  cases refused with
  | missing absent => exact .missing (absent.imp Eq.symm Or.symm)
  | sameUser locked same => exact .sameUser locked.symm same
  | changed locked status => exact .changed locked.symm status
  | late locked closed => exact .late locked.symm closed
  | blocked locked blocked => exact .blocked locked.symm blocked
  | integrity ready input failed => exact .integrity ready.symm input failed

theorem orderedIds_pair {first second x y : UUID} (fewer : [x,y].Sublist (orderedIds first second)) :
    x ≠ y ∧ ((x = first ∧ y = second) ∨ (x = second ∧ y = first)) := by
  unfold orderedIds at fewer
  split at fewer
  next => exact absurd fewer.length_le (by simp)
  next different =>
    have sorted := List.perm_insertionSort (· ≤ ·) [first,second]
    have apart : x ≠ y := by
      have nodup := (sorted.nodup_iff.mpr (by simpa using different)).sublist fewer
      simpa using nodup
    have one : x = first ∨ x = second := by
      simpa using sorted.subset (fewer.subset (a := x) (by simp))
    have two : y = first ∨ y = second := by
      simpa using sorted.subset (fewer.subset (a := y) (by simp))
    refine ⟨apart,?_⟩
    rcases one with rfl | rfl <;> rcases two with rfl | rfl
    · exact absurd rfl apart
    · exact .inl ⟨rfl,rfl⟩
    · exact .inr ⟨rfl,rfl⟩
    · exact absurd rfl apart

theorem mem_orderedIds {first second : UUID} :
    first ∈ orderedIds first second ∧ second ∈ orderedIds first second := by
  unfold orderedIds
  rw [List.mem_insertionSort,List.mem_insertionSort]
  split
  next same => simp [same]
  next => simp

end SqlMatchFinalizationStore

theorem checkedFree_of_later {first second : UUID} {K : Held Db RowKey} (inv : Inv settings w)
    (free : w.db.blockedBetween first second = false)
    (later : Later (protocol settings) D t K (w.record t [.blocksChecked first second false]) w') :
    checkedFree t first second w'.log := by
  rw [Db.blockedBetween_eq,Bool.or_eq_false_iff,inv.history.blocks,inv.history.blocks] at free
  obtain ⟨more,same,others⟩ := later.appends (S := fun _ => False)
  refine ⟨w.log,more,?_,?_,free⟩
  · rw [same]
    simp
  · exact fun entry member own => others entry member own

section finalize
open SqlMatchFinalizationStore
variable {first second : UUID} {explanation : List Char} {now : Time} {opened : Option Time}
  {Q : Except Exc UUID → Held Db RowKey → BackendWorld → Prop}

/-- What the caller learns of a refused finalization and of one that commits. -/
structure Concludes (settings : Settings) (D : Discipline Db Input Event) (t : Nat)
    (first second : UUID) (explanation : List Char) (now : Time) (w : BackendWorld)
    (Q : Except Exc UUID → Held Db RowKey → BackendWorld → Prop) : Prop where
  failed : ∀ error w', Onward (protocol settings) D t (fun e => e.isObservation) w w' →
    Inv settings w' → Refused D first second now w w' error → Q (.error error) [] w'
  done : ∀ a b start ids w' db events,
    Onward (protocol settings) D t (fun e => e.isObservation) w w' → Inv settings w' →
    Ready w'.db first second now a b → D.input w' ids →
    finalizeWrites a b explanation now start ids w'.db = some (db,events) →
    Passage (protocol settings) D w' ((World.mk db w'.log).record t events) →
    Inv settings ((World.mk db w'.log).record t events) →
    Q (.ok (ids.uuid 0)) [] ((World.mk db w'.log).record t events)

private theorem found_of_locked {rows : List ((id : UUID) × Lockable.Row Db (RowKey.photo id))}
    (unmatched : ∀ x a y b, rows ≠ [⟨x,a⟩,⟨y,b⟩]) (w₂ : BackendWorld)
    (onward : Passage (protocol settings) D w w₂)
    (fewer : (rows.map Sigma.fst).Sublist
      ((orderedIds first second).filter fun id => (w₂.db.photos.get? id).isSome))
    (passed : ∀ id ∈ (orderedIds first second).filter fun id => (w₂.db.photos.get? id).isSome,
      id ∉ rows.map Sigma.fst → ∃ w₃, Passage (protocol settings) D w w₃ ∧
        w₃.db.photos.get? id = none) :
    first = second ∨ w.db.photos.get? first = none ∨ w.db.photos.get? second = none := by
  by_contra present
  simp only [not_or] at present
  obtain ⟨different,one,two⟩ := present
  have inside : ∀ id ∈ orderedIds first second, w.db.photos.get? id ≠ none →
      id ∈ rows.map Sigma.fst := by
    intro id member there
    by_contra outside
    have still := Option.isSome_iff_ne_none.mpr (Passage.photo onward there)
    obtain ⟨w₃,passage,gone⟩ := passed id (List.mem_filter.mpr ⟨member,still⟩) outside
    exact Passage.photo passage there gone
  have both : [first,second].Subperm (rows.map Sigma.fst) := by
    refine List.subperm_of_subset (by simpa using different) ?_
    intro id member
    rcases List.mem_pair.mp member with rfl | rfl
    · exact inside id mem_orderedIds.1 one
    · exact inside id mem_orderedIds.2 two
  have length : (rows.map Sigma.fst).length = 2 := by
    have least := both.length_le
    have most := (fewer.trans List.filter_sublist).length_le
    simp only [orderedIds,if_neg different,List.length_insertionSort,List.length_cons,
      List.length_nil] at least most
    omega
  rw [List.length_map] at length
  obtain ⟨⟨x,a⟩,⟨y,b⟩,same⟩ := List.length_eq_two.mp length
  exact unmatched x a y b same

section held
variable {x y : UUID} {a : Lockable.Row Db (RowKey.photo x)} {b : Lockable.Row Db (RowKey.photo y)}
  {db : Db}

private theorem held_ids (holds : Holds (heldPhotos [⟨x,a⟩,⟨y,b⟩] ++ H) db) :
    (db.photos.get? x = some a ∧ db.photos.get? y = some b) ∧ Photo.id a = x ∧ Photo.id b = y := by
  obtain ⟨found,_⟩ := (holds_append _ _ _).mp holds
  have one : db.photos.get? x = some a := found ⟨.photo x,a⟩ (by simp [taken])
  have two : db.photos.get? y = some b := found ⟨.photo y,b⟩ (by simp [taken])
  exact ⟨⟨one,two⟩,Table.key_of_get? one,Table.key_of_get? two⟩

private theorem locked_of_held (fewer : [x,y].Sublist (orderedIds first second))
    (holds : Holds (heldPhotos [⟨x,a⟩,⟨y,b⟩] ++ H) db) : Locked db first second a b := by
  obtain ⟨found,key₁,key₂⟩ := held_ids holds
  obtain ⟨apart,ids⟩ := orderedIds_pair fewer
  refine ⟨?_,?_,?_⟩ <;> rw [key₁,key₂]
  · exact ids
  · exact apart
  · exact found

private theorem keys_of_held (holds : Holds (heldPhotos [⟨x,a⟩,⟨y,b⟩] ++ H) db) :
    .photo (Photo.id a) ∈ keys (heldPhotos [⟨x,a⟩,⟨y,b⟩] ++ H) ∧
      .photo (Photo.id b) ∈ keys (heldPhotos [⟨x,a⟩,⟨y,b⟩] ++ H) := by
  obtain ⟨_,key₁,key₂⟩ := held_ids holds
  rw [key₁,key₂,keys_append,List.mem_append,List.mem_append]
  exact ⟨.inl (mem_keys_taken.mpr ⟨⟨x,a⟩,by simp,rfl⟩),.inl (mem_keys_taken.mpr ⟨⟨y,b⟩,by simp,rfl⟩)⟩

end held

/-- finalize in any interleaving. -/
theorem wp_finalize (asked : (∃ a b explanation, r = .finalize a b explanation now) ∨
      ∃ id workerId embedding, r = .embeddingResult id workerId embedding)
    (concludes : Concludes settings D t first second explanation now w Q) :
    wp (protocol settings) D r t (finalize first second explanation now opened) Q H w := by
  unfold finalize
  apply wp_rescue
  unfold finalizeBody
  apply wp_supply
  intro clock w₁ later₁ _
  apply wp_query
  intro w₂ later₂
  apply wp_lockEach later₂.inv later₂.holds
  intro rows w₃ later₃ holds₃ fewer all passed
  have until₂ := later₁.trans later₂
  have until₃ := until₂.trans later₃
  split
  next x a y b =>
    have locked : ∀ {db : Db}, Holds (heldPhotos [⟨x,a⟩,⟨y,b⟩] ++ H) db →
        Locked db first second a b :=
      fun holds => locked_of_held (fewer.trans List.filter_sublist) holds
    split
    next same => exact concludes.failed _ w₃ until₃.onward later₃.inv (.sameUser (locked holds₃) same)
    next users =>
      split
      next status =>
        exact concludes.failed _ w₃ until₃.onward later₃.inv (.changed (locked holds₃) status)
      next searching =>
        split
        next closed =>
          exact concludes.failed _ w₃ until₃.onward later₃.inv (.late (locked holds₃) closed)
        next timely =>
          rw [not_or,not_not,not_not] at searching
          rw [not_or] at timely
          have ready : ∀ {db : Db}, Holds (heldPhotos [⟨x,a⟩,⟨y,b⟩] ++ H) db →
              Ready db first second now a b :=
            fun holds => ⟨locked holds,users,searching,timely⟩
          apply wp_observe
          intro w₄ later₄ allowed
          have change : Change settings r t (keys (heldPhotos [⟨x,a⟩,⟨y,b⟩] ++ H)) w₄ w₄.db
              [.blocksChecked a.userId b.userId (w₄.db.blockedBetween a.userId b.userId)] :=
            .observed rfl
          have until₄ := (until₃.onward (S := fun e => e.isObservation = true)).trans
            (later₄.onward.trans (.own later₄.inv change.step allowed (by simp [Event.isObservation])))
          refine ⟨change.step,?_⟩
          split
          next blocked =>
            exact concludes.failed _ _ until₄ (change.inv later₄.inv)
              (.blocked (locked later₄.holds) blocked)
          next free =>
            rw [Bool.not_eq_true] at free
            apply wp_commit
            · intro ids w₅ later₅ input failed
              exact concludes.failed _ w₅ (until₄.trans later₅.onward) later₅.inv
                (.integrity (ready later₅.holds) input failed)
            · intro ids w₅ db events later₅ input written allowed₅
              have both := ready later₅.holds
              have checked : checkedFree t a.userId b.userId w₅.log := by
                rw [free] at later₅
                exact checkedFree_of_later later₄.inv free later₅
              have matches_ : Change settings r t (keys (heldPhotos [⟨x,a⟩,⟨y,b⟩] ++ H)) w₅ db events := by
                exact .matched asked (keys_of_held later₅.holds) both.found ⟨both.apart,users⟩ searching
                  timely checked written
              refine ⟨matches_.step,?_⟩
              exact concludes.done a b _ ids w₅ db events (until₄.trans later₅.onward) later₅.inv both
                input written (.single ⟨r,t,_,later₅.inv,matches_.step,allowed₅⟩) (matches_.inv later₅.inv)
  next unmatched =>
    refine concludes.failed _ w₃ until₃.onward later₃.inv (.missing ?_)
    refine found_of_locked (fun x a y b => ?_) w₂ until₂.passage fewer ?_
    · exact unmatched x a y b
    · intro id member outside
      obtain ⟨w₄,later₄,missed⟩ := passed id member outside
      refine ⟨w₄,(until₂.trans later₄).passage,?_⟩
      cases seen : w₄.db.photos.get? id with
      | none => rfl
      | some photo =>
        have view : Lockable.view (RowKey.photo id) w₄.db = some photo := seen
        rw [view] at missed
        cases missed

end finalize

end Dalm
