import Dalm.Relational.Warrants
import Dalm.Reachable
import Dalm.Registration
import Dalm.EventNotices
import Dalm.History

/-! The sweep of expired searches among all other requests: it leaves no photo searching that was due
when it began, and expires none before its time. -/
namespace Dalm
open Relational Txn

/-- The statuses a photo can come to have. -/
def PhotoStatus.Reaches : PhotoStatus → PhotoStatus → Prop :=
  Relation.ReflTransGen fun before after => before.allowed after

theorem PhotoStatus.Reaches.closed {S : PhotoStatus → Prop} {before after : PhotoStatus}
    (reaches : before.Reaches after) (start : S before) (each : ∀ a b, S a → PhotoStatus.allowed a b → S b) :
    S after := by
  induction reaches with
  | refl => exact start
  | tail _ link ih => exact each _ _ ih link

/-- A photo that has left its search. -/
def PhotoStatus.isOver : PhotoStatus → Bool
  | .validating => false
  | .searching => false
  | _ => true

theorem PhotoStatus.Reaches.stays_over {before after : PhotoStatus} (reaches : before.Reaches after)
    (past : before.isOver) : after.isOver := by
  refine reaches.closed (S := fun status => status.isOver) past fun a b => ?_
  cases a <;> cases b <;> simp [PhotoStatus.isOver,PhotoStatus.allowed]

theorem PhotoStatus.Reaches.searched {after : PhotoStatus} (reaches : PhotoStatus.Reaches .searching after) :
    after = .searching ∨ after.isOver := by
  refine reaches.closed (S := fun status => status = .searching ∨ status.isOver) (.inl rfl) fun a b => ?_
  cases a <;> cases b <;> simp [PhotoStatus.isOver,PhotoStatus.allowed]

theorem PhotoStatus.Reaches.gone {before after : PhotoStatus} (reaches : before.Reaches after)
    (gone : before = .expired ∨ before = .deleted) : after = .expired ∨ after = .deleted := by
  refine reaches.closed (S := fun status => status = .expired ∨ status = .deleted) gone fun a b => ?_
  cases a <;> cases b <;> simp [PhotoStatus.allowed]

/-- The photos stay, each with the time it was registered at, and their statuses go forward. -/
def PhotosAdvance (w w' : BackendWorld) : Prop :=
  ∀ p photo, w.db.photos.get? p = some photo → ∃ photo', w'.db.photos.get? p = some photo' ∧
    photo'.registeredAt = photo.registeredAt ∧ photo.status.Reaches photo'.status

theorem PhotosAdvance.refl (w : BackendWorld) : PhotosAdvance w w := fun _ photo found => ⟨photo,found,rfl,.refl⟩

theorem PhotosAdvance.trans (a b c : BackendWorld) (first : PhotosAdvance a b) (second : PhotosAdvance b c) :
    PhotosAdvance a c := by
  intro p photo found
  obtain ⟨photo',found',same,reaches⟩ := first p photo found
  obtain ⟨photo'',found'',same',reaches'⟩ := second p photo' found'
  exact ⟨photo'',found'',same'.trans same,reaches.trans reaches'⟩

theorem Photo.Follows.reaches {photo photo' : Photo} (follows : photo.Follows photo') :
    photo.status.Reaches photo'.status := by
  rcases follows.status with same | allowed
  · rw [same]
    exact .refl
  · exact .single allowed

section worlds
variable {settings : Settings} {w w' : BackendWorld} {now : Time} {p : UUID} {photo : Photo}

theorem isDue_iff (inv : Inv settings w) (found : w.db.photos.get? p = some photo) :
    SqlExpirationStore.isDue now photo ↔ photo.status = .searching ∧ photo.registeredAt + days 7 ≤ now := by
  have fine := inv.photos p photo found
  unfold SqlExpirationStore.isDue
  rw [decide_eq_true_eq]
  constructor
  · rintro ⟨searching,past,_⟩
    rw [fine.period (by rw [searching]; rfl)] at past
    exact ⟨searching,by simpa using past⟩
  · rintro ⟨searching,past⟩
    refine ⟨searching,?_,fine.deleted.mpr (by simp [searching])⟩
    rw [fine.period (by rw [searching]; rfl)]
    simpa using past

/-- The photo has left its search. -/
def SearchOver (p : UUID) (w : BackendWorld) : Prop :=
  ∃ photo, w.db.photos.get? p = some photo ∧ photo.status.isOver

/-- The photo's period was over at the time, and it expired. -/
def Swept (now : Time) (p : UUID) (w : BackendWorld) : Prop :=
  ∃ photo, w.db.photos.get? p = some photo ∧ photo.registeredAt + days 7 ≤ now ∧
    (photo.status = .expired ∨ photo.status = .deleted)

theorem SearchOver.later (past : SearchOver p w) (advance : PhotosAdvance w w') : SearchOver p w' := by
  obtain ⟨photo,found,left⟩ := past
  obtain ⟨photo',found',_,reaches⟩ := advance p photo found
  exact ⟨photo',found',reaches.stays_over left⟩

theorem Swept.later (swept : Swept now p w) (advance : PhotosAdvance w w') : Swept now p w' := by
  obtain ⟨photo,found,due,gone⟩ := swept
  obtain ⟨photo',found',same,reaches⟩ := advance p photo found
  exact ⟨photo',found',same ▸ due,reaches.gone gone⟩

/-- A photo that was due still is, or its search is over. -/
theorem due_later (inv : Inv settings w) (inv' : Inv settings w') (advance : PhotosAdvance w w')
    (found : w.db.photos.get? p = some photo) (due : SqlExpirationStore.isDue now photo) :
    (∃ photo', w'.db.photos.get? p = some photo' ∧ SqlExpirationStore.isDue now photo') ∨ SearchOver p w' := by
  obtain ⟨searching,past⟩ := (isDue_iff inv found).mp due
  obtain ⟨photo',found',same,reaches⟩ := advance p photo found
  rw [searching] at reaches
  rcases reaches.searched with still | left
  · exact .inl ⟨photo',found',(isDue_iff inv' found').mpr ⟨still,same ▸ past⟩⟩
  · exact .inr ⟨photo',found',left⟩

end worlds

section sweep
open SqlExpirationStore
variable {settings : Settings} {w w' start : BackendWorld} {t : Nat} {now : Time}

/-- What the others do to the photos and to the log. -/
def SweepRely (w w' : BackendWorld) : Prop := PhotosAdvance w w' ∧ w.log ⊆ w'.log

theorem SweepRely.refl (w : BackendWorld) : SweepRely w w := ⟨.refl w,fun _ member => member⟩

theorem SweepRely.trans (a b c : BackendWorld) (first : SweepRely a b) (second : SweepRely b c) : SweepRely a c :=
  ⟨first.1.trans a b c second.1,fun _ member => second.2 (first.2 member)⟩

/-- What a sweep that began in `start` or later has left when it returned these identifiers. -/
structure SweepLeft (start : BackendWorld) (now : Time) (t : Nat) (ids : List UUID) (w : BackendWorld) : Prop where
  finished : ∀ p photo, start.db.photos.get? p = some photo → isDue now photo → SearchOver p w
  swept : ∀ p ∈ ids, Swept now p w
  distinct : ids.Nodup
  told : (t,.photosExpired ids) ∈ w.log

theorem SweepLeft.later {ids : List UUID} (left : SweepLeft start now t ids w) (step : SweepRely w w') :
    SweepLeft start now t ids w' :=
  ⟨fun p photo found due => (left.finished p photo found due).later step.1,
    fun p member => (left.swept p member).later step.1,left.distinct,step.2 left.told⟩

section writes
variable {rows : List ((_ : UUID) × Photo)} {began : Time} {ids : Input} {db : Db} {events : List Event} {p : UUID}

theorem expireWrites_get? (written : expireWrites rows began ids w.db = some (db,events)) (p : UUID) :
    db.photos.get? p = (w.db.photos.get? p).map fun photo =>
      if p ∈ rows.map Sigma.fst then {photo with status := .expired} else photo := by
  obtain ⟨_,_,rfl⟩ := expireWrites_eq written
  change (w.db.photos.modify _ _ _).get? p = _
  rw [Table.get?_modify]
  by_cases member : p ∈ rows.map Sigma.fst
  · obtain ⟨row,inside,same⟩ := List.mem_map.mp member
    rw [if_pos (List.any_eq_true.mpr ⟨row,inside,decide_eq_true same⟩)]
    simp only [if_pos member]
  · have outside : ¬ (rows.any fun row => decide (row.1 = p)) = true := by
      intro chosen
      obtain ⟨row,inside,same⟩ := List.any_eq_true.mp chosen
      exact member (List.mem_map.mpr ⟨row,inside,of_decide_eq_true same⟩)
    rw [if_neg outside]
    simp [if_neg member]

theorem swept_of_expireWrites (written : expireWrites rows began ids w.db = some (db,events))
    (member : p ∈ rows.map Sigma.fst) {photo : Photo} (found : w.db.photos.get? p = some photo)
    (due : photo.registeredAt + days 7 ≤ now) : Swept now p ((World.mk db w.log).record t events) := by
  refine ⟨{photo with status := .expired},?_,due,.inl rfl⟩
  rw [World.db_record,expireWrites_get? written,found,Option.map_some,if_pos member]

theorem over_of_expireWrites (written : expireWrites rows began ids w.db = some (db,events))
    (past : SearchOver p w) : SearchOver p ((World.mk db w.log).record t events) := by
  obtain ⟨photo,found,left⟩ := past
  by_cases member : p ∈ rows.map Sigma.fst
  · refine ⟨{photo with status := .expired},?_,rfl⟩
    rw [World.db_record,expireWrites_get? written,found,Option.map_some,if_pos member]
  · refine ⟨photo,?_,left⟩
    rw [World.db_record,expireWrites_get? written,found,Option.map_some,if_neg member]

theorem Swept.searchOver {w : BackendWorld} (swept : Swept now p w) : SearchOver p w := by
  obtain ⟨photo,found,_,gone | gone⟩ := swept <;> exact ⟨photo,found,by rw [gone]; rfl⟩

end writes

/-- The sweep answers for what was due when it began, and for what it returns. -/
theorem warrants_expireDue (settled : Inv settings start) (since : SweepRely start w) :
    (expireDue now).Warrants (fun w => Inv settings w) SweepRely (fun _ _ _ => True) t
      (fun x w' => ∀ ids, x = .ok ids → SweepLeft start now t ids w') w := by
  unfold expireDue
  refine warrants_supply fun began w₁ step₁ => warrants_query fun w₂ step₂ fine₂ => ?_
  have since₂ := since.trans _ _ _ (step₁.trans _ _ _ step₂)
  have listed : ∀ p photo, start.db.photos.get? p = some photo → isDue now photo →
      p ∈ arrange began.order ((w₂.db.photos.rows.filter (isDue now)).map Photo.id) ∨ SearchOver p w₂ := by
    intro p photo found due
    rcases due_later settled fine₂ since₂.1 found due with ⟨photo',found',due'⟩ | past
    · refine .inl (HomeRepository.mem_arrange.mpr (List.mem_map.mpr ⟨photo',?_,Table.key_of_get? found'⟩))
      exact List.mem_filter.mpr ⟨(Table.mem_rows_of_get? found').1,due'⟩
    · exact .inr past
  have distinct : (arrange began.order ((w₂.db.photos.rows.filter (isDue now)).map Photo.id)).Nodup :=
    nodup_arrange _ (w₂.db.photos.distinct.sublist (List.filter_sublist.map Photo.id))
  refine warrants_lockEach SweepRely.refl SweepRely.trans fun rows w₃ step₃ fewer all passed => ?_
  have own : ∀ row ∈ rows, row.2.id = row.1 ∧ ∀ w', SweepRely w₃ w' → ∃ photo,
      w'.db.photos.get? row.1 = some photo ∧ photo.registeredAt + days 7 ≤ now := by
    intro row member
    obtain ⟨v,_,onward,fine,taken⟩ := all row member
    obtain ⟨found,due⟩ := Option.filter_eq_some_iff.mp taken
    refine ⟨Table.key_of_get? found,fun w' further => ?_⟩
    obtain ⟨photo,found',same,_⟩ := (onward.trans _ _ _ further).1 _ _ found
    exact ⟨photo,found',same ▸ ((isDue_iff fine found).mp due).2⟩
  have named : rows.map (fun row => row.2.id) = rows.map Sigma.fst :=
    List.map_congr_left fun row member => (own row member).1
  refine warrants_commitOr (fun ids w₄ db events step₄ fine₄ written => ⟨trivial,?_⟩) fun _ _ _ _ _ same => nomatch same
  have swept : ∀ p ∈ rows.map Sigma.fst, Swept now p ((World.mk db w₄.log).record t events) := by
    intro p member
    obtain ⟨row,inside,rfl⟩ := List.mem_map.mp member
    obtain ⟨photo,found,due⟩ := (own row inside).2 w₄ step₄
    exact swept_of_expireWrites written member found due
  rintro w₅ step₅ ids' ⟨rfl⟩
  suffices left : SweepLeft start now t (rows.map Sigma.fst) w₅ by
    rw [← named] at left
    exact left
  refine SweepLeft.later ⟨fun p photo found due => ?_,swept,distinct.sublist fewer,?_⟩ step₅
  · by_cases member : p ∈ rows.map Sigma.fst
    · exact (swept p member).searchOver
    · refine over_of_expireWrites written (SearchOver.later ?_ step₄.1)
      rcases listed p photo found due with inside | past
      · obtain ⟨v,early,onward,fine,missed⟩ := passed p inside member
        rcases due_later settled fine (since₂.trans _ _ _ early).1 found due with ⟨photo',found',due'⟩ | past
        · have taken : (Lockable.view (RowKey.photo p) v.db).filter (isDue now) = some photo' :=
            Option.filter_eq_some_iff.mpr ⟨found',due'⟩
          cases taken.symm.trans missed
        · exact past.later onward.1
      · exact past.later step₃.1
  · rw [(expireWrites_eq written).1]
    exact List.mem_append_right _ (List.mem_singleton_self _)

end sweep

/-- No photo is expired by two sessions, as it never searches again. -/
structure OnceSwept (w : BackendWorld) : Prop where
  gone : ∀ t ids p, (t,.photosExpired ids) ∈ w.log → p ∈ ids →
    ∃ photo, w.db.photos.get? p = some photo ∧ (photo.status = .expired ∨ photo.status = .deleted)
  once : ∀ t t' ids ids' p, (t,.photosExpired ids) ∈ w.log → (t',.photosExpired ids') ∈ w.log →
    p ∈ ids → p ∈ ids' → t = t'

theorem OnceSwept.step {settings : Settings} {r : Request} {t : Nat} {held : List RowKey} {w : BackendWorld} {db : Db}
    {events : List Event} (swept : OnceSwept w) (change : Change settings r t held w db events) :
    OnceSwept ((World.mk db w.log).record t events) := by
  have origin : ∀ {v ids}, (v,.photosExpired ids) ∈ ((World.mk db w.log).record t events).log →
      (v,.photosExpired ids) ∈ w.log ∨ v = t ∧ .photosExpired ids ∈ events := by
    intro v ids member
    rcases List.mem_append.mp member with old | new
    · exact .inl old
    · obtain ⟨event,inside,same⟩ := List.mem_map.mp new
      cases same
      exact .inr ⟨rfl,inside⟩
  have searching : ∀ {ids p}, .photosExpired ids ∈ events → p ∈ ids → hasStatus w.db p .searching :=
    fun member inside => change.told.expired _ member _ inside
  have apart : ∀ {v ids ids' p}, (v,.photosExpired ids) ∈ w.log → .photosExpired ids' ∈ events → p ∈ ids →
      p ∉ ids' := by
    intro v ids ids' p old new inside inside'
    obtain ⟨photo,found,gone⟩ := swept.gone v ids p old inside
    obtain ⟨photo',found',status⟩ := searching new inside'
    cases Option.some.inj (found.symm.trans found')
    rw [status] at gone
    simp at gone
  constructor
  · intro v ids p member inside
    rcases origin member with old | ⟨_,new⟩
    · obtain ⟨photo,found,gone⟩ := swept.gone v ids p old inside
      obtain ⟨photo',found',_,follows⟩ := change.photo found
      exact ⟨photo',found',follows.reaches.gone gone⟩
    · obtain ⟨added,announces⟩ := change.announces
      rcases announces.expired p with ⟨_,silent,_⟩ | ⟨_,_,_,_,_,photo,found,expired⟩
      · have told : events.any (Event.expires p) = true := List.any_eq_true.mpr ⟨_,new,by simpa [Event.expires] using inside⟩
        cases silent.symm.trans told
      · exact ⟨photo,found,.inl expired⟩
  · intro v v' ids ids' p member member' inside inside'
    rcases origin member with old | ⟨rfl,new⟩ <;> rcases origin member' with old' | ⟨rfl,new'⟩
    · exact swept.once v v' ids ids' p old old' inside inside'
    · exact absurd inside' (apart old new' inside)
    · exact absurd inside (apart old' new inside')
    · rfl

section runs
variable {K : Type} [Field K] [LinearOrder K] [IsStrictOrderedRing K] [FloorRing K] {settings : Settings}
  {sqrt : ℚ → K} {users : Table User.id} {a s u : Backend}

theorem Reachable.onceSwept (reachable : Reachable settings sqrt users s) : OnceSwept s.world := by
  have start : Reachable settings sqrt users (launch users) := .refl
  refine start.preserves (F := OnceSwept) reachable ⟨?_,?_⟩ fun _ _ _ _ _ _ _ change _ swept => swept.step change
  · exact fun _ _ _ member => nomatch member
  · exact fun _ _ _ _ _ member => nomatch member

theorem Reachable.sweepRely (reachable : Reachable settings sqrt users s) {action : Action Input Exc Request}
    (taken : s.step (program settings sqrt) action = some u) : SweepRely s.world u.world := by
  refine ⟨fun p photo found => ?_,?_⟩
  · obtain ⟨photo',found',follows⟩ := reachable.stays taken found
    exact ⟨photo',found',follows.registered,follows.reaches⟩
  · exact (Reach.step action .refl taken (Reach.admits_none action)).log_grows.subset

/-- What a sweep that began after `a` and returned has left. -/
theorem Reachable.sweepLeft (reachable : Reachable settings sqrt users a)
    (run : Reach (program settings sqrt) Discipline.none a s) {t : Nat} (later : a.session t = none) {now : Time}
    {ids : List UUID} (ended : s.session t = some ⟨.expireDue now,.inr (.ok (.expired ids))⟩) :
    SweepLeft a.world now t ids s.world := by
  have steps : ∀ v action u, Reach (program settings sqrt) Discipline.none a v →
      v.step (program settings sqrt) action = some u → (Discipline.none : Discipline Db Input Event).admits v u action →
      SweepRely v.world u.world := fun v action u before taken _ => (reachable.trans before).sweepRely taken
  have since : ∀ v, Reach (program settings sqrt) Discipline.none a v → SweepRely a.world v.world := by
    intro v before
    induction before with
    | refl => exact SweepRely.refl _
    | step action before taken admitted ih => exact ih.trans _ _ _ (steps _ action _ before taken admitted)
  have fine : ∀ v, Reach (program settings sqrt) Discipline.none a v → Inv settings v.world :=
    fun v before => (reachable.trans before).inv
  refine Reach.left (Q := fun x w => ∀ ids, x = .ok (.expired ids) → SweepLeft a.world now t ids w) run later
    SweepRely.refl SweepRely.trans fine ?_ ?_ steps ended ids rfl
  · exact fun _ _ _ left step ids same => (left ids same).later step
  · intro v before
    refine warrants_bind SweepRely.refl ((warrants_expireDue reachable.inv (since v before)).mono fun x w left => ?_)
    cases x with
    | error error => exact fun _ same => nomatch same
    | ok ids =>
      rintro w' step ids' same
      cases same
      exact (left ids rfl).later step

/-- A sweep that began after `a` and returned left no photo searching that was due in `a`. The photos it
returned are expired since their seven days were over, and no other sweep returned one of them. -/
theorem expirySweep (reachable : Reachable settings sqrt users a)
    (run : Reach (program settings sqrt) Discipline.none a s) {t : Nat} (later : a.session t = none) {now : Time}
    {ids : List UUID} (ended : s.session t = some ⟨.expireDue now,.inr (.ok (.expired ids))⟩) :
    (∀ p photo, a.db.photos.get? p = some photo → SqlExpirationStore.isDue now photo → SearchOver p s.world) ∧
      ids.Nodup ∧ (∀ p ∈ ids, Swept now p s.world) ∧
        ∀ t' now' ids', s.session t' = some ⟨.expireDue now',.inr (.ok (.expired ids'))⟩ → t' ≠ t →
          ids.Disjoint ids' := by
  have left := reachable.sweepLeft run later ended
  have there : Reachable settings sqrt users s := reachable.trans run
  refine ⟨left.finished,left.distinct,left.swept,?_⟩
  intro t' now' ids' ended' other p member member'
  have start : Reachable settings sqrt users (launch users) := .refl
  have told := (start.sweepLeft there rfl ended').told
  exact other (there.onceSwept.once _ _ _ _ p told left.told member' member)

end runs

namespace Sample

/-- Two sweeps of two photos whose seven days are over; the second lists both before the first commits. -/
def sweptAtOnce : List (Action Input Exc Request) :=
  session 3 (.expireDue (days 7)) 3 (input (days 7) 300) ++ session 4 (.expireDue (days 7)) 2 (input (days 7) 400) ++
    List.replicate 3 (.exec 3 (input (days 7) 300)) ++ List.replicate 4 (.exec 4 (input (days 7) 400))

def bothSearching : List (Action Input Exc Request) :=
  session 1 (upload 11 1 true) 13 (input 0 100) ++ session 2 (upload 12 2 true) 13 (input 0 200)

/-- The photos the sweep of this session returned. -/
def sweptBy (s : Backend) (t : Nat) : Option (List UUID) :=
  match s.session t with
  | some ⟨.expireDue now,.inr (.ok (.expired ids))⟩ => if now = days 7 then some ids else none
  | _ => none

theorem sweptBy_session {s : Backend} {t : Nat} {ids : List UUID} (swept : sweptBy s t = some ids) :
    s.session t = some ⟨.expireDue (days 7),.inr (.ok (.expired ids))⟩ := by
  unfold sweptBy at swept
  split at swept
  next now ids' ended =>
    split at swept
    next same =>
      cases swept
      rw [ended,same]
    next => cases swept
  next => cases swept

end Sample

/-- Of two sweeps at once the first returned both photos and the second none. -/
theorem expirySweep_twice : ∃ a s : Backend, s.session 3 = some ⟨.expireDue (days 7),.inr (.ok (.expired [11,12]))⟩ ∧
    s.session 4 = some ⟨.expireDue (days 7),.inr (.ok (.expired []))⟩ ∧
      (∀ p photo, a.db.photos.get? p = some photo → SqlExpirationStore.isDue (days 7) photo →
        SearchOver p s.world) ∧ ∀ p ∈ [(11 : UUID),12], Swept (days 7) p s.world := by
  obtain ⟨a,s,first,before,second,after⟩ := Sample.continued (fun _ _ _ => True) (fun _ _ _ => true)
    (fun _ _ _ _ => trivial) Sample.bothSearching Sample.sweptAtOnce (fun a => (a.session 3).isNone)
    (fun s => decide (Sample.sweptBy s 3 = some [11,12] ∧ Sample.sweptBy s 4 = some [])) (by decide +kernel)
  obtain ⟨one,two⟩ := of_decide_eq_true after
  have reachable : Reachable Sample.settings Rat.sqrt Sample.users a :=
    Reach.of_runs first fun _ _ _ _ => Reach.admits_none _
  have ended := Sample.sweptBy_session one
  obtain ⟨past,_,swept,_⟩ := expirySweep reachable (Reach.of_runs second fun _ _ _ _ => Reach.admits_none _)
    (Option.isNone_iff_eq_none.mp before) ended
  exact ⟨a,s,ended,Sample.sweptBy_session two,past,swept⟩

end Dalm
