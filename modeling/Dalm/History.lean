import Dalm.Keeping

/-! What the events of a change tell of the request that made it and of the state it was
made in. -/
namespace Dalm
open Relational
variable {settings : Settings} {r : Request} {t : Nat} {held : List RowKey} {w : BackendWorld}
  {db : Db} {events : List Event}

structure Told (r : Request) (t : Nat) (w : BackendWorld) (db : Db) (events : List Event) : Prop where
  stored : ∀ p, .embeddingStored p ∈ events →
    ∃ id workerId embedding, r = .embeddingResult id workerId embedding
  deleted : ∀ p, .photoDeleted p ∈ events →
    ∃ photo, w.db.photos.get? p = some photo ∧ HomeRepository.isDeletable photo.status
  expired : ∀ photos, .photosExpired photos ∈ events → ∀ p ∈ photos, hasStatus w.db p .searching
  matched : ∀ m first second now, .matched m first second now ∈ events →
    events = [.matched m first second now] ∧ ∃ a b, w.db.photos.get? first = some a ∧
      w.db.photos.get? second = some b ∧ (a.status = .searching ∧ b.status = .searching) ∧
      checkedFree t a.userId b.userId w.log
  observed : (∀ event ∈ events, event.isObservation) → db = w.db

/-- The events that tell of nothing but themselves. -/
def Event.isPlain : Event → Bool
  | .embeddingStored _ => false
  | .photoDeleted _ => false
  | .photosExpired _ => false
  | .matched _ _ _ _ => false
  | event => !event.isObservation

private theorem told_plain (some_ : events ≠ []) (plain : ∀ event ∈ events, event.isPlain) :
    Told r t w db events := by
  refine ⟨?_,?_,?_,?_,?_⟩
  · exact fun p member => by cases plain _ member
  · exact fun p member => by cases plain _ member
  · exact fun photos member => by cases plain _ member
  · exact fun m first second now member => by cases plain _ member
  · intro observed
    obtain ⟨event,member⟩ := List.exists_mem_of_ne_nil events some_
    have one := plain event member
    have two := observed event member
    cases event <;> simp [Event.isPlain,Event.isObservation] at one two

theorem Change.told (change : Change settings r t held w db events) : Told r t w db events := by
  cases change with
  | @observed event observation =>
    refine ⟨?_,?_,?_,?_,fun _ => rfl⟩
    · exact fun p member => by cases List.mem_singleton.mp member; cases observation
    · exact fun p member => by cases List.mem_singleton.mp member; cases observation
    · exact fun photos member => by cases List.mem_singleton.mp member; cases observation
    · exact fun m first second now member => by cases List.mem_singleton.mp member; cases observation
  | timedOut | abandoned | handed | retried | embeddingFailed | unblocked | postcardRead
  | postcardDeleted | account => exact told_plain (List.cons_ne_nil _ _) (by simp [Event.isPlain,Event.isObservation])
  | @created arguments mock cleared _ _ _ _ _ asked onboarded locked written =>
    cases mock with
    | false =>
      obtain ⟨_,rfl,_⟩ := HomeRepository.createWrites_plain written
      exact told_plain (List.cons_ne_nil _ _) (by simp [Event.isPlain,Event.isObservation])
    | true =>
      obtain ⟨_,rfl,_⟩ := HomeRepository.createWrites_mock written
      exact told_plain (List.cons_ne_nil _ _) (by simp [Event.isPlain,Event.isObservation])
  | @deleted _ photoId now photo asked locked present accepted =>
    refine ⟨by simp,?_,by simp,by simp,by simp [Event.isObservation]⟩
    intro p member
    cases List.mem_singleton.mp member
    exact ⟨photo,present,accepted⟩
  | @judged _ result _ _ _ _ _ _ _ asked locked present owned owner validating written =>
    cases verdict : result.status with
    | passed =>
      obtain ⟨rfl,_⟩ := PhotoValidationRepository.resultWrites_passed verdict written
      exact told_plain (List.cons_ne_nil _ _) (by simp [Event.isPlain,Event.isObservation])
    | rejected =>
      obtain ⟨rfl,_⟩ := PhotoValidationRepository.resultWrites_rejected verdict written
      exact told_plain (List.cons_ne_nil _ _) (by simp [Event.isPlain,Event.isObservation])
  | @validationFailed _ _ _ failedPhoto _ _ _ _ _ asked locked present owned owner written =>
    by_cases validating : failedPhoto.status = .validating
    · obtain ⟨rfl,_⟩ := PhotoValidationRepository.failureWrites_validating validating written
      exact told_plain (List.cons_ne_nil _ _) (by simp [Event.isPlain,Event.isObservation])
    · obtain ⟨rfl,_⟩ := PhotoValidationRepository.failureWrites_other validating written
      exact told_plain (List.cons_ne_nil _ _) (by simp [Event.isPlain,Event.isObservation])
  | embedded asked locked present owned written =>
    obtain ⟨rfl,_⟩ := PhotoEmbeddingJobRepository.resultWrites_eq written
    exact ⟨fun _ _ => ⟨_,_,_,asked⟩,by simp,by simp,by simp,by simp [Event.isObservation]⟩
  | @expired now start rows ids _ _ asked locked written =>
    obtain ⟨rfl,_⟩ := SqlExpirationStore.expireWrites_eq written
    refine ⟨by simp,by simp,?_,by simp,by simp [Event.isObservation]⟩
    intro photos member p inside
    cases List.mem_singleton.mp member
    obtain ⟨row,present,rfl⟩ := List.mem_map.mp inside
    obtain ⟨_,found,due⟩ := locked row present
    exact ⟨row.2,found,(of_decide_eq_true due).1⟩
  | @matched a b _ _ _ _ _ _ asked locked present apart searching timely checked written =>
    obtain ⟨rfl,_⟩ := SqlMatchFinalizationStore.finalizeWrites_eq written
    refine ⟨by simp,by simp,by simp,?_,by simp [Event.isObservation]⟩
    intro m first second now member
    cases List.mem_singleton.mp member
    exact ⟨rfl,a,b,present.1,present.2,searching,checked⟩
  | blocked asked written =>
    obtain ⟨rfl,_⟩ := SafetyRepository.blockWrites_eq written
    exact told_plain (List.cons_ne_nil _ _) (by simp [Event.isPlain,Event.isObservation])
  | reportedUser asked written =>
    rcases ReportRepository.reportUserWrites_eq written with ⟨_,rfl,_⟩ | ⟨_,_,rfl,_⟩ <;>
      exact told_plain (List.cons_ne_nil _ _) (by simp [Event.isPlain,Event.isObservation])
  | reportedPhoto asked locked written =>
    obtain ⟨rfl,_⟩ := ReportRepository.reportPhotoWrites_eq written
    exact told_plain (List.cons_ne_nil _ _) (by simp [Event.isPlain,Event.isObservation])
  | sent asked pair locked parties turn reply written =>
    obtain ⟨rfl,_⟩ := PostcardRepository.sendWrites_eq written
    exact told_plain (List.cons_ne_nil _ _) (by simp [Event.isPlain,Event.isObservation])

/-- An event that deletes, expires or matches a photo. -/
def Event.settles (p : UUID) : Event → Bool
  | .photoDeleted photo => photo = p
  | .photosExpired photos => photos.contains p
  | .matched _ first second _ => first = p ∨ second = p
  | _ => false

/-- A matched photo is not deleted, expired or matched again. -/
theorem Change.settled {p : UUID} (change : Change settings r t held w db events)
    (matched : hasStatus w.db p .matched) : ∀ event ∈ events, event.settles p = false := by
  obtain ⟨photo,found,status⟩ := matched
  intro event member
  cases event with
  | photoDeleted q =>
    obtain ⟨other,present,accepted⟩ := change.told.deleted q member
    have different : q ≠ p := by
      rintro rfl
      cases Option.some.inj (present.symm.trans found)
      simp [status,HomeRepository.isDeletable] at accepted
    simpa [Event.settles] using different
  | photosExpired photos =>
    have outside : p ∉ photos := by
      intro inside
      obtain ⟨other,present,searching⟩ := change.told.expired photos member p inside
      cases Option.some.inj (present.symm.trans found)
      rw [status] at searching
      cases searching
    simpa [Event.settles] using outside
  | matched m first second now =>
    obtain ⟨_,a,b,found₁,found₂,searching,_⟩ := change.told.matched m first second now member
    have one : first ≠ p := by
      rintro rfl
      cases Option.some.inj (found₁.symm.trans found)
      simp [status] at searching
    have two : second ≠ p := by
      rintro rfl
      cases Option.some.inj (found₂.symm.trans found)
      simp [status] at searching
    simp [Event.settles,one,two]
  | _ => rfl

/-- An event that tells of a new photo. -/
def Event.isCreation : Event → Prop
  | .photoCreated _ _ _ => True
  | _ => False

/-- A change registers a photo, or adds none and tells of none. -/
theorem Change.creates (change : Change settings r t held w db events) :
    (∃ arguments mock cleared start now ids, r = .createPhoto arguments mock ∧
      HomeRepository.createWrites arguments mock cleared start now ids w.db = some (db,events)) ∨
    (∀ p, (db.photos.get? p).isSome = (w.db.photos.get? p).isSome) ∧
      ∀ event ∈ events, ¬ event.isCreation := by
  cases change with
  | created asked onboarded locked written => exact .inl ⟨_,_,_,_,_,_,asked,written⟩
  | @observed event observation =>
    refine .inr ⟨fun p => rfl,fun other member => ?_⟩
    cases List.mem_singleton.mp member
    cases event <;> first | exact fun creation => creation | cases observation
  | unblocked | postcardRead | account => exact .inr ⟨fun p => rfl,by simp [Event.isCreation]⟩
  | @postcardDeleted _ _ _ side =>
    cases side <;> exact .inr ⟨fun p => rfl,by simp [Event.isCreation]⟩
  | abandoned | handed | retried | embeddingFailed =>
    exact .inr ⟨fun p => by simp,by simp [Event.isCreation]⟩
  | timedOut | deleted =>
    exact .inr ⟨fun p => Table.isSome_get?_modify p,by simp [Event.isCreation]⟩
  | @judged _ result _ _ _ _ _ _ _ asked locked present owned owner validating written =>
    cases verdict : result.status with
    | passed =>
      obtain ⟨rfl,_,_,_,rfl⟩ := PhotoValidationRepository.resultWrites_passed verdict written
      exact .inr ⟨fun p => Table.isSome_get?_modify p,by simp [Event.isCreation]⟩
    | rejected =>
      obtain ⟨rfl,_,rfl⟩ := PhotoValidationRepository.resultWrites_rejected verdict written
      exact .inr ⟨fun p => Table.isSome_get?_modify p,by simp [Event.isCreation]⟩
  | @validationFailed _ _ _ failedPhoto _ _ _ _ _ asked locked present owned owner written =>
    by_cases validating : failedPhoto.status = .validating
    · obtain ⟨rfl,_,rfl⟩ := PhotoValidationRepository.failureWrites_validating validating written
      exact .inr ⟨fun p => (Table.isSome_get?_modify p).trans (by simp),by simp [Event.isCreation]⟩
    · obtain ⟨rfl,rfl⟩ := PhotoValidationRepository.failureWrites_other validating written
      exact .inr ⟨fun p => by simp,by simp [Event.isCreation]⟩
  | embedded asked locked present owned written =>
    obtain ⟨rfl,_,rfl⟩ := PhotoEmbeddingJobRepository.resultWrites_eq written
    exact .inr ⟨fun p => by simp,by simp [Event.isCreation]⟩
  | expired asked locked written =>
    obtain ⟨rfl,_,rfl⟩ := SqlExpirationStore.expireWrites_eq written
    exact .inr ⟨fun p => Table.isSome_get?_modify p,by simp [Event.isCreation]⟩
  | matched asked locked present apart searching timely checked written =>
    obtain ⟨rfl,_,_,_,_,rfl⟩ := SqlMatchFinalizationStore.finalizeWrites_eq written
    exact .inr ⟨fun p => Table.isSome_get?_modify p,by simp [Event.isCreation]⟩
  | blocked asked written =>
    obtain ⟨rfl,_,rfl⟩ := SafetyRepository.blockWrites_eq written
    exact .inr ⟨fun p => rfl,by simp [Event.isCreation]⟩
  | reportedUser asked written =>
    rcases ReportRepository.reportUserWrites_eq written with ⟨_,rfl,rfl⟩ | ⟨_,_,rfl,rfl⟩ <;>
      exact .inr ⟨fun p => rfl,by simp [Event.isCreation]⟩
  | @reportedPhoto _ _ row _ _ _ asked locked written =>
    obtain ⟨rfl,_,rfl⟩ := ReportRepository.reportPhotoWrites_eq written
    cases row <;> exact .inr ⟨fun p => rfl,by simp [Event.isCreation]⟩
  | sent asked pair locked parties turn reply written =>
    obtain ⟨rfl,_,_,rfl⟩ := PostcardRepository.sendWrites_eq written
    exact .inr ⟨fun p => rfl,by simp [Event.isCreation]⟩

end Dalm
