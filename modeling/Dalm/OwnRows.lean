import Dalm.PersonalActions
import Dalm.Relational.Warrants
import Dalm.UniqueUsers

/-! What is a user's own is changed by his own requests alone. Other users and the service itself may match
his photos, judge and expire them, send him postcards and notify him, and nothing else. -/
namespace Dalm
open Relational Txn

/-- A photo without what the service decides of it. -/
def Photo.submitted (photo : Photo) : Photo :=
  {photo with status := .validating,searchExpiresAt := none,rejectionCode := none,rejectionMessage := none}

/-- What is the user's own is as it was. -/
structure Spared (v : UUID) (before after : Db) : Prop where
  user : ∀ row, before.users.get? v = some row → after.users.get? v = some row
  terms : ∀ row, row.userId = v → (row ∈ after.terms.rows ↔ row ∈ before.terms.rows)
  photo : ∀ p photo, before.photos.get? p = some photo → photo.userId = v → ∃ photo',
    after.photos.get? p = some photo' ∧ photo'.submitted = photo.submitted ∧
      (photo'.status = .deleted ↔ photo.status = .deleted)
  uploaded : ∀ p photo', after.photos.get? p = some photo' → photo'.userId = v →
    ∃ photo, before.photos.get? p = some photo ∧ photo.userId = v
  seat : ∀ m row, before.participants.get? (m,v) = some row → after.participants.get? (m,v) = some row
  blocks : ∀ row, row.blockerId = v → (row ∈ after.blocks.rows ↔ row ∈ before.blocks.rows)
  reports : ∀ row, row.reporterId = v → (row ∈ after.reports.rows ↔ row ∈ before.reports.rows)
  postcard : ∀ c card, before.postcards.get? c = some card →
    ∃ card', after.postcards.get? c = some card' ∧ cover v card' = cover v card
  sent : ∀ c card', after.postcards.get? c = some card' → card'.senderId = v →
    ∃ card, before.postcards.get? c = some card ∧ card.senderId = v

section spared
variable {v : UUID} {a b c db : Db}

theorem Spared.refl (v : UUID) (db : Db) : Spared v db db where
  user _ there := there
  terms _ _ := .rfl
  photo _ photo found _ := ⟨photo,found,rfl,.rfl⟩
  uploaded _ photo found own := ⟨photo,found,own⟩
  seat _ _ there := there
  blocks _ _ := .rfl
  reports _ _ := .rfl
  postcard _ card found := ⟨card,found,rfl⟩
  sent _ card found own := ⟨card,found,own⟩

theorem Photo.owner_of_submitted {photo photo' : Photo} (same : photo'.submitted = photo.submitted) :
    photo'.userId = photo.userId := congrArg (fun photo => photo.userId) same

theorem Spared.trans (first : Spared v a b) (second : Spared v b c) : Spared v a c where
  user row there := second.user row (first.user row there)
  terms row own := (second.terms row own).trans (first.terms row own)
  photo p photo found own := by
    obtain ⟨photo₁,found₁,same₁,gone₁⟩ := first.photo p photo found own
    obtain ⟨photo₂,found₂,same₂,gone₂⟩ := second.photo p photo₁ found₁ ((Photo.owner_of_submitted same₁).trans own)
    exact ⟨photo₂,found₂,same₂.trans same₁,gone₂.trans gone₁⟩
  uploaded p photo found own := by
    obtain ⟨photo₁,found₁,own₁⟩ := second.uploaded p photo found own
    exact first.uploaded p photo₁ found₁ own₁
  seat m row there := second.seat m row (first.seat m row there)
  blocks row own := (second.blocks row own).trans (first.blocks row own)
  reports row own := (second.reports row own).trans (first.reports row own)
  postcard k card found := by
    obtain ⟨card₁,found₁,same₁⟩ := first.postcard k card found
    obtain ⟨card₂,found₂,same₂⟩ := second.postcard k card₁ found₁
    exact ⟨card₂,found₂,same₂.trans same₁⟩
  sent k card found own := by
    obtain ⟨card₁,found₁,own₁⟩ := second.sent k card found own
    exact first.sent k card₁ found₁ own₁

theorem spared_photos {chosen : UUID → Bool} {assign : Photo → Photo}
    {keeps : ∀ photo, (assign photo).id = photo.id} (owner : ∀ photo, (assign photo).userId = photo.userId)
    (each : ∀ p photo, db.photos.get? p = some photo → chosen p = true → photo.userId = v →
      (assign photo).submitted = photo.submitted ∧ ((assign photo).status = .deleted ↔ photo.status = .deleted)) :
    Spared v db (db.updatePhotos chosen assign keeps) := by
  refine {Spared.refl v db with photo := ?_,uploaded := ?_}
  · intro p photo found own
    have after : (db.photos.modify chosen assign keeps).get? p = some (if chosen p then assign photo else photo) :=
      Table.get?_modify_eq_some.mpr ⟨photo,found,rfl⟩
    refine ⟨_,after,?_⟩
    split
    next picked => exact each p photo found picked own
    next => exact ⟨rfl,.rfl⟩
  · intro p photo' found own
    rw [Db.updatePhotos,Table.get?_modify_eq_some] at found
    obtain ⟨photo,before,rfl⟩ := found
    refine ⟨photo,before,?_⟩
    split at own
    · exact (owner photo).symm.trans own
    · exact own

theorem spared_newPhoto {row : Photo} (fresh : db.photos.get? row.id = none) (other : row.userId ≠ v) :
    Spared v db {db with photos := db.photos.insert row fresh} := by
  refine {Spared.refl v db with photo := ?_,uploaded := ?_}
  · exact fun p photo found _ => ⟨photo,Table.get?_insert_of_some fresh found,rfl,.rfl⟩
  · intro p photo found own
    rcases Table.get?_insert_cases fresh found with ⟨_,rfl⟩ | before
    · exact absurd own other
    · exact ⟨photo,before,own⟩

theorem spared_newBlock {row : Block} (fresh : db.blocks.get? (row.blockerId,row.blockedId) = none)
    (other : row.blockerId ≠ v) : Spared v db {db with blocks := db.blocks.insert row fresh} := by
  refine {Spared.refl v db with blocks := ?_}
  rintro block rfl
  simp only [Table.rows_insert,List.mem_append,List.mem_singleton,or_iff_left_iff_imp]
  rintro rfl
  exact absurd rfl other

theorem spared_newReport {row : Report} (fresh : db.reports.get? row.id = none) (other : row.reporterId ≠ v) :
    Spared v db {db with reports := db.reports.insert row fresh} := by
  refine {Spared.refl v db with reports := ?_}
  rintro report rfl
  simp only [Table.rows_insert,List.mem_append,List.mem_singleton,or_iff_left_iff_imp]
  rintro rfl
  exact absurd rfl other

theorem spared_newPostcard {row : Postcard} (fresh : db.postcards.get? row.id = none) (other : row.senderId ≠ v) :
    Spared v db {db with postcards := db.postcards.insert row fresh} := by
  refine {Spared.refl v db with postcard := ?_,sent := ?_}
  · exact fun k card found => ⟨card,Table.get?_insert_of_some fresh found,rfl⟩
  · intro k card found own
    rcases Table.get?_insert_cases fresh found with ⟨_,rfl⟩ | before
    · exact absurd own other
    · exact ⟨card,before,own⟩

theorem spared_postcard {id : UUID} {assign : Postcard → Postcard} {keeps : ∀ card, (assign card).id = card.id}
    (parties : ∀ card, (assign card).senderId = card.senderId)
    (covered : ∀ card, db.postcards.get? id = some card → cover v (assign card) = cover v card) :
    Spared v db (db.updatePostcard id assign keeps) := by
  refine {Spared.refl v db with postcard := ?_,sent := ?_}
  · intro k card found
    have after : (db.postcards.modify (fun other => other = id) assign keeps).get? k =
        some (if k = id then assign card else card) := by
      rw [Table.get?_modify,found]
      by_cases picked : k = id <;> simp [picked]
    refine ⟨_,after,?_⟩
    split
    next picked =>
      rw [picked] at found
      exact covered card found
    next => rfl
  · intro k card found own
    rw [Db.updatePostcard,Table.get?_modify_eq_some] at found
    obtain ⟨card₁,before,rfl⟩ := found
    refine ⟨card₁,before,?_⟩
    split at own
    · exact (parties card₁).symm.trans own
    · exact own

end spared

section service
variable {settings : Settings} {r : Request} {t : Nat} {held : List RowKey} {w : BackendWorld} {db : Db}
  {events : List Event} {v : UUID}

/-- The requests of the workers and of the scheduler. -/
def Request.byService : Request → Bool
  | .claim _ _ | .validationResult _ _ | .validationFailure _ _ | .embeddingResult _ _ _
  | .embeddingFailure _ _ | .expireDue _ | .finalize _ _ _ _ => true
  | _ => false

def Event.isTimeout : Event → Prop
  | .validationsTimedOut _ => True
  | _ => False

theorem spared_job (queue : Queue) {id : UUID} {assign : Job → Job} {keeps : ∀ job, (assign job).id = job.id} :
    Spared v db (db.updateJob queue id assign keeps) := by
  cases queue <;> exact {Spared.refl v db with}

/-- The service decides on photos that are still there. -/
theorem spared_decided {chosen : UUID → Bool} {assign : Photo → Photo} {keeps : ∀ photo, (assign photo).id = photo.id}
    (kept : ∀ photo, (assign photo).submitted = photo.submitted) (there : ∀ photo, (assign photo).status ≠ .deleted)
    (here : ∀ p photo, db.photos.get? p = some photo → chosen p = true → photo.status ≠ .deleted) :
    Spared v db (db.updatePhotos chosen assign keeps) :=
  spared_photos (fun photo => Photo.owner_of_submitted (kept photo)) fun p photo found picked _ =>
    ⟨kept photo,iff_of_false (there photo) (here p photo found picked)⟩

theorem spared_verdict {photo : Photo} {status : PhotoStatus} (found : db.photos.get? photo.id = some photo)
    (waiting : photo.status = status) (open_ : status ≠ .deleted) {assign : Photo → Photo}
    {keeps : ∀ photo, (assign photo).id = photo.id} (kept : ∀ photo, (assign photo).submitted = photo.submitted)
    (there : ∀ photo, (assign photo).status ≠ .deleted) : Spared v db (db.updatePhoto photo.id assign keeps) := by
  refine spared_decided kept there fun p photo₁ found₁ picked => ?_
  rw [of_decide_eq_true picked,found] at found₁
  cases found₁
  rwa [waiting]

/-- Whatever the service does on its own leaves a user what is his. -/
theorem Change.spares (change : Change settings r t held w db events) (service : r.byService = true)
    (timely : r.report? = none → ∀ event ∈ events, ¬ event.isTimeout) : Spared v w.db db := by
  cases change with
  | observed => exact .refl v _
  | timedOut asked => exact absurd trivial (timely asked _ List.mem_cons_self)
  | created | deleted | blocked | unblocked | reportedUser | reportedPhoto | sent | postcardRead | postcardDeleted
  | account =>
    rw [‹r = _›] at service
    cases service
  | abandoned | handed | retried | embeddingFailed => exact spared_job _
  | @judged id result _ photo _ now _ _ _ _ _ _ _ owner accepted written =>
    have found : w.db.photos.get? photo.id = some photo := (Table.key_of_get? owner).symm ▸ owner
    cases verdict : result.status with
    | passed =>
      obtain ⟨_,_,_,_,rfl⟩ := PhotoValidationRepository.resultWrites_passed verdict written
      have decided : Spared v w.db (w.db.updatePhoto photo.id (PhotoValidationRepository.accept photo)) :=
        spared_verdict found accepted (fun same => nomatch same) (fun _ => rfl) fun _ same => nomatch same
      exact {decided with}
    | rejected =>
      obtain ⟨_,_,rfl⟩ := PhotoValidationRepository.resultWrites_rejected verdict written
      have decided : Spared v w.db (w.db.updatePhoto photo.id (PhotoValidationRepository.reject
          result.rejectionCode (PhotoValidationRepository.rejectionMessage result.rejectionCode))) :=
        spared_verdict found accepted (fun same => nomatch same) (fun _ => rfl) fun _ same => nomatch same
      exact {decided with}
  | @validationFailed _ _ _ photo _ _ _ _ _ _ _ _ _ owner written =>
    by_cases validating : photo.status = .validating
    · obtain ⟨_,_,rfl⟩ := PhotoValidationRepository.failureWrites_validating validating written
      have found : w.db.photos.get? photo.id = some photo := (Table.key_of_get? owner).symm ▸ owner
      have decided : Spared v w.db (w.db.updatePhoto photo.id (PhotoValidationRepository.reject
          (some "VALIDATION_FAILED") "사진을 확인하지 못했습니다. 잠시 후 다시 등록해주세요.")) :=
        spared_verdict found validating (fun same => nomatch same) (fun _ => rfl) fun _ same => nomatch same
      exact {decided with}
    · obtain ⟨_,rfl⟩ := PhotoValidationRepository.failureWrites_other validating written
      exact spared_job .validation
  | embedded _ _ _ _ written =>
    obtain ⟨_,_,rfl⟩ := PhotoEmbeddingJobRepository.resultWrites_eq written
    exact {Spared.refl v w.db with}
  | @expired _ _ rows _ _ _ _ locked written =>
    obtain ⟨_,_,rfl⟩ := SqlExpirationStore.expireWrites_eq written
    have decided : Spared v w.db (w.db.updatePhotos (fun id => rows.any fun row => row.1 = id)
        fun row => {row with status := .expired}) := by
      refine spared_decided (fun _ => rfl) (fun _ same => nomatch same) fun p photo found picked => ?_
      obtain ⟨row,member,same⟩ := List.any_eq_true.mp picked
      obtain ⟨_,there,due⟩ := locked row member
      rw [of_decide_eq_true same,found] at there
      cases there
      rw [(of_decide_eq_true due).1]
      exact fun same => nomatch same
    exact {decided with}
  | @matched first second _ _ _ _ _ _ _ _ found apart searching _ _ written =>
    obtain ⟨_,_,freshFirst,freshSecond,_,rfl⟩ := SqlMatchFinalizationStore.finalizeWrites_eq written
    have decided : Spared v w.db (w.db.updatePhotos (fun id => id = first.id ∨ id = second.id)
        fun row => {row with status := .matched}) := by
      refine spared_decided (fun _ => rfl) (fun _ same => nomatch same) fun p photo there picked => ?_
      rcases of_decide_eq_true picked with rfl | rfl
      · cases found.1.symm.trans there
        rw [searching.1]
        exact fun same => nomatch same
      · cases found.2.symm.trans there
        rw [searching.2]
        exact fun same => nomatch same
    refine {decided with seat := ?_}
    exact fun m row there => Table.get?_insert_of_some freshSecond (Table.get?_insert_of_some freshFirst there)

end service

section programs
variable {settings : Settings} {r : Request} {t : Nat} {held : List RowKey} {w w' : BackendWorld} {db : Db}
  {events : List Event} {u v : UUID}

/-- Whose request it is; nobody is known yet who logs in. -/
def Request.user? : Request → Option UUID
  | .createPhoto arguments _ => some arguments.userId
  | .todayPhoto userId _ | .photoImage userId _ | .deletePhoto userId _ => some userId
  | .block blockerId _ | .unblock blockerId _ => some blockerId
  | .report arguments => some arguments.reporterId
  | .send draft => some draft.userId
  | .postcard userId _ | .postcards userId _ _ _ | .readPostcard userId _ | .deletePostcard userId _ => some userId
  | .account (.completeOnboarding userId _) | .account (.updateProfile userId _) | .account (.withdraw userId) =>
    some userId
  | _ => none

/-- Photos keep their owner and postcards their text and parties. -/
def Belongs (w w' : BackendWorld) : Prop :=
  (∀ p photo, w.db.photos.get? p = some photo → ∃ photo', w'.db.photos.get? p = some photo' ∧
    photo'.userId = photo.userId) ∧
  ∀ c card, w.db.postcards.get? c = some card → ∃ card', w'.db.postcards.get? c = some card' ∧
    card'.envelope = card.envelope

theorem Belongs.refl (w : BackendWorld) : Belongs w w :=
  ⟨fun _ photo found => ⟨photo,found,rfl⟩,fun _ card found => ⟨card,found,rfl⟩⟩

theorem Belongs.trans (a b c : BackendWorld) (first : Belongs a b) (second : Belongs b c) : Belongs a c := by
  refine ⟨fun p photo found => ?_,fun k card found => ?_⟩
  · obtain ⟨photo₁,found₁,same₁⟩ := first.1 p photo found
    obtain ⟨photo₂,found₂,same₂⟩ := second.1 p photo₁ found₁
    exact ⟨photo₂,found₂,same₂.trans same₁⟩
  · obtain ⟨card₁,found₁,same₁⟩ := first.2 k card found
    obtain ⟨card₂,found₂,same₂⟩ := second.2 k card₁ found₁
    exact ⟨card₂,found₂,same₂.trans same₁⟩

theorem Steady.envelope {before after : Db} (steady : Steady r held before after events) {c : UUID} {card : Postcard}
    (found : before.postcards.get? c = some card) :
    ∃ card', after.postcards.get? c = some card' ∧ card'.envelope = card.envelope := by
  obtain ⟨member,same⟩ := Table.mem_rows_of_get? found
  have there : card.envelope ∈ after.postcards.rows.map Postcard.envelope := by
    rcases steady.cards with kept | ⟨_,_,_,_,_,_,_,_,sent⟩
    · rw [kept]
      exact List.mem_map_of_mem member
    · rw [sent]
      exact List.mem_append_left _ (List.mem_map_of_mem member)
  obtain ⟨card',member',equal⟩ := List.mem_map.mp there
  have key : card'.id = c := (congrArg Postcard.id equal).trans same
  exact ⟨card',key ▸ Table.get?_of_mem member',equal⟩

theorem Change.belongs (change : Change settings r t held w db events) :
    Belongs w ((World.mk db w.log).record t events) := by
  refine ⟨fun p photo found => ?_,fun c card found => change.steady.envelope found⟩
  obtain ⟨photo',found',_,follows⟩ := change.photo found
  exact ⟨photo',found',follows.owner⟩

/-- The photo is the user's. -/
def OwnedBy (u : UUID) (w : BackendWorld) (p : UUID) : Prop :=
  ∃ photo, w.db.photos.get? p = some photo ∧ photo.userId = u

theorem OwnedBy.later {p : UUID} (owned : OwnedBy u w p) (step : Belongs w w') : OwnedBy u w' p := by
  obtain ⟨photo,found,own⟩ := owned
  obtain ⟨photo',found',same⟩ := step.1 p photo found
  exact ⟨photo',found',same.trans own⟩

/-- What a user does to photos of his own is nothing to another. -/
theorem spared_owned (other : some u ≠ some v) {chosen : UUID → Bool} {assign : Photo → Photo}
    {keeps : ∀ photo, (assign photo).id = photo.id} (owner : ∀ photo, (assign photo).userId = photo.userId)
    (owned : ∀ p, chosen p = true → OwnedBy u w p) : Spared v w.db (w.db.updatePhotos chosen assign keeps) := by
  refine spared_photos owner fun p photo found picked own => ?_
  obtain ⟨photo₁,found₁,mine⟩ := owned p picked
  cases found₁.symm.trans found
  exact absurd (congrArg some (mine.symm.trans own)) other

/-- What the commits of a request answer for that is asked by `of`. -/
abbrev SparesOthers (of : Option UUID) (w : BackendWorld) (db : Db) (_ : List Event) : Prop :=
  ∀ v, of ≠ some v → Spared v w.db db

variable {α : Type} {Q : Except Exc α → BackendWorld → Prop}

section photos
open HomeRepository

/-- The photos a bulk statement locked are the user's, where it asks for his. -/
theorem warrants_lockOwn {cond : Photo → Bool} {ids : List UUID} (own : ∀ photo, cond photo = true → photo.userId = u)
    {C : BackendWorld → Db → List Event → Prop} {k : List ((_ : UUID) × Photo) → App α}
    (rest : ∀ (rows : List ((_ : UUID) × Photo)) w', (∀ row ∈ rows, OwnedBy u w' row.1) →
      (k rows).Warrants (fun _ => True) Belongs C t Q w') :
    (lockPhotos cond ids >>= k).Warrants (fun _ => True) Belongs C t Q w := by
  refine warrants_lockEach Belongs.refl Belongs.trans fun rows w' step _ taken _ => rest rows w' fun row member => ?_
  obtain ⟨w₂,_,later,_,seen⟩ := taken row member
  obtain ⟨found,mine⟩ := Option.filter_eq_some_iff.mp seen
  exact OwnedBy.later ⟨row.2,found,own row.2 mine⟩ later

theorem warrants_expireStaleValidations {k : Bool → App α}
    (rest : ∀ committed w', (k committed).Warrants (fun _ => True) Belongs (SparesOthers (some u)) t Q w')
    (always : ∀ x w, Q x w) :
    (expireStaleValidations u >>= k).Warrants (fun _ => True) Belongs (SparesOthers (some u)) t Q w := by
  refine warrants_bind Belongs.refl ?_
  unfold expireStaleValidations
  refine warrants_supply fun clock w₁ _ => warrants_query fun w₂ _ _ =>
    warrants_lockOwn (fun photo stale => (of_decide_eq_true stale).1) fun rows w₃ owned => ?_
  split
  · exact fun w' _ => rest _ w'
  · refine warrants_commitOr (fun i w₄ db events step _ written => ?_) fun _ _ _ _ => always _ _
    cases written
    refine ⟨fun v other => spared_owned other (fun _ => rfl) fun p picked => ?_,fun w' _ => rest _ w'⟩
    obtain ⟨row,member,same⟩ := List.any_eq_true.mp picked
    rw [← of_decide_eq_true same]
    exact (owned row member).later step

theorem warrants_getTodayPhoto {today : Date} {Q : Except Exc (Option Photo) → BackendWorld → Prop}
    (always : ∀ x w, Q x w) :
    (HomeRepository.getTodayPhoto u today).Warrants (fun _ => True) Belongs (SparesOthers (some u)) t Q w := by
  unfold HomeRepository.getTodayPhoto
  refine warrants_expireStaleValidations (fun committed w₁ => ?_) always
  exact fun w₂ _ _ w₃ _ => always _ _

theorem spared_created {arguments : PhotoArguments} {mock : Bool} {cleared : List UUID} {start now : Time}
    {ids : Input} (other : some arguments.userId ≠ some v) (owned : ∀ p ∈ cleared, OwnedBy arguments.userId w p)
    (written : createWrites arguments mock cleared start now ids w.db = some (db,events)) :
    Spared v w.db db := by
  have releases : Spared v w.db (released w.db cleared) := spared_owned other (fun _ => rfl)
    fun p picked => owned p (List.contains_iff_mem.mp picked)
  cases mock with
  | false =>
    obtain ⟨_,_,fresh,_,rfl⟩ := createWrites_plain written
    exact {releases.trans (spared_newPhoto fresh fun same => other (congrArg some same)) with}
  | true =>
    obtain ⟨_,_,_,fresh,_,_,_,rfl⟩ := createWrites_mock written
    exact {releases.trans (spared_newPhoto fresh fun same => other (congrArg some same)) with}

theorem warrants_atMostOne {ids : List UUID} {taken : Exc} {rest : App Photo} {C : BackendWorld → Db → List Event → Prop}
    {Q : Except Exc Photo → BackendWorld → Prop} (always : ∀ x w, Q x w)
    (goesOn : rest.Warrants (fun _ => True) Belongs C t Q w) :
    (atMostOne ids taken rest).Warrants (fun _ => True) Belongs C t Q w := by
  unfold atMostOne
  split
  · exact goesOn
  · exact fun _ _ => always _ _
  · exact fun _ _ => always _ _

theorem warrants_registerPhoto {arguments : PhotoArguments} {mock : Bool} {start : Time}
    {Q : Except Exc Photo → BackendWorld → Prop} (always : ∀ x w, Q x w) :
    (registerPhoto arguments mock start).Warrants (fun _ => True) Belongs (SparesOthers (some arguments.userId)) t Q w := by
  unfold registerPhoto
  refine warrants_supply fun order w₁ _ => warrants_query fun w₂ _ _ =>
    warrants_lockOwn (fun photo historical => (of_decide_eq_true historical).1) fun cleared w₃ owned =>
    warrants_query fun w₄ step₄ _ => warrants_atMostOne always ?_
  refine warrants_supply fun clock w₅ step₅ => warrants_commitOr (fun i w₆ db events step₆ _ written => ?_)
    fun _ _ _ _ => always _ _
  refine ⟨fun v other => spared_created other (fun p member => ?_) written,?_⟩
  · obtain ⟨row,inside,rfl⟩ := List.mem_map.mp member
    exact (((owned row inside).later step₄).later step₅).later step₆
  · refine warrants_query fun w₇ _ _ => ?_
    split <;> exact fun _ _ => always _ _

theorem warrants_createPhoto {arguments : PhotoArguments} {mock : Bool} {Q : Except Exc Photo → BackendWorld → Prop}
    (always : ∀ x w, Q x w) :
    (createPhoto arguments mock).Warrants (fun _ => True) Belongs (SparesOthers (some arguments.userId)) t Q w := by
  unfold createPhoto
  refine warrants_supply fun clock w₁ _ => warrants_query fun w₂ _ _ => ?_
  split
  · exact fun _ _ => always _ _
  split
  · exact fun _ _ => always _ _
  refine warrants_expireStaleValidations (fun committed w₃ => ?_) always
  exact warrants_supply fun reopened w₄ _ => warrants_query fun w₅ _ _ =>
    warrants_atMostOne always (warrants_registerPhoto always)

theorem warrants_deletePhoto {p : UUID} {Q : Except Exc Unit → BackendWorld → Prop} (always : ∀ x w, Q x w) :
    (deletePhoto u p).Warrants (fun _ => True) Belongs (SparesOthers (some u)) t Q w := by
  unfold deletePhoto
  refine warrants_select (fun w₁ _ _ _ => fun _ _ => always _ _) fun w₁ row _ _ found => ?_
  split
  · exact fun _ _ => always _ _
  next photo kept =>
    obtain ⟨same,_⟩ := Option.filter_eq_some_iff.mp kept
    cases Option.some.inj same
    split
    · exact fun _ _ => always _ _
    next own =>
      split
      · exact fun _ _ => always _ _
      refine warrants_supply fun clock w₂ step₂ => warrants_commitOr (fun i w₃ db events step₃ _ written => ?_)
        fun _ _ _ _ => always _ _
      cases written
      have owned : OwnedBy u w₁ p := ⟨row,found,not_not.mp own⟩
      refine ⟨fun v other => spared_owned other (fun _ => rfl) fun q picked => ?_,fun _ _ => always _ _⟩
      rw [of_decide_eq_true picked]
      exact (owned.later step₂).later step₃

end photos

section commits

/-- A COMMIT that spares everybody but the user, whatever it finds. -/
def Sparing (of : Option UUID) (writes : Input → Db → Option (Db × List Event)) : Prop :=
  ∀ i db db' events, writes i db = some (db',events) → ∀ v, of ≠ some v → Spared v db db'

theorem spares_of_commits {of : Option UUID} {G : α → Prop} {p : App α} (commits : p.Commits (Sparing of) G)
    (always : ∀ x w, Q x w) : p.Warrants (fun _ => True) Belongs (SparesOthers of) t Q w :=
  commits.warrants (fun _ sparing i w db events => sparing i w.db db events) always w

section accounts
open UserRepository
variable {registry after : Registry} {user : User}

theorem Registry.updateUser_others {id : UUID} {assign : User → User} {keeps : ∀ row, (assign row).id = row.id}
    (written : registry.updateUser id assign keeps = some after) (other : some id ≠ some v) :
    after.users.get? v = registry.users.get? v := by
  have other : v ≠ id := fun same => other (congrArg some same.symm)
  rw [Registry.updateUser_users written,Table.get?_modify]
  simp [other]

theorem sparing_written {of : Option UUID} {writes : Input → Registry → Option (Registry × List UserEvent)}
    (each : ∀ i registry after events, writes i registry = some (after,events) → ∀ v, of ≠ some v →
      (∀ row, registry.users.get? v = some row → after.users.get? v = some row) ∧
        ∀ row, row.userId = v → (row ∈ after.terms.rows ↔ row ∈ registry.terms.rows)) :
    Sparing of fun i => UserRepository.written (writes i) := by
  intro i db db' events made v other
  obtain ⟨⟨after,told⟩,outcome,same⟩ := Option.map_eq_some_iff.mp made
  cases same
  obtain ⟨user,terms⟩ := each i _ _ _ outcome v other
  exact {Spared.refl v db with user := user,terms := terms}

theorem sparing_update {userId : UUID} {writes : Registry → Option (Registry × List UserEvent)}
    (each : ∀ registry after events, writes registry = some (after,events) →
      ∃ assign keeps, registry.updateUser userId assign keeps = some after) :
    Sparing (some userId) fun _ => UserRepository.written writes := by
  refine sparing_written fun _ registry after events made v other => ?_
  obtain ⟨_,_,updated⟩ := each registry after events made
  rw [Registry.updateUser_others updated other,Registry.updateUser_terms updated]
  exact ⟨fun _ => id,fun _ _ => .rfl⟩

theorem sparing_create {drawn : Input → UUID} {identity : Identity} :
    Sparing none fun i => UserRepository.written (createWrites (drawn i) identity) := by
  refine sparing_written fun i registry after events made v _ => ?_
  obtain ⟨inserted,_⟩ := createWrites_eq_some.mp made
  obtain ⟨fresh,same⟩ := Registry.insertUser_users inserted
  refine ⟨fun row there => ?_,fun row _ => ?_⟩
  · rw [same]
    exact Table.get?_insert_of_some fresh there
  · rw [Registry.insertUser_terms inserted]

theorem sparing_onboarding {form : Onboarding} :
    Sparing (some user.id) fun _ => UserRepository.written (onboardingWrites user form) := by
  refine sparing_written fun _ registry after events made v other => ?_
  obtain ⟨between,updated,termed,_⟩ := onboardingWrites_eq_some.mp made
  rw [Registry.insertTerms_users termed,Registry.updateUser_others updated other,Registry.insertTerms_rows termed,
    Registry.updateUser_terms updated]
  refine ⟨fun _ => id,?_⟩
  rintro row rfl
  rw [List.mem_append,or_iff_left_iff_imp]
  intro member
  have own : row.userId = user.id := by
    simp only [terms,List.mem_cons,List.not_mem_nil,or_false] at member
    rcases member with rfl | rfl | rfl | rfl <;> rfl
  exact absurd (congrArg some own.symm) other

/-- The user who asks is found under his own key. -/
theorem commits_getById {of : Option UUID} {userId : UUID} {k : Option User → App α}
    (each : ∀ found : Option User, (∀ user, found = some user → user.id = userId) →
      (k found).Commits (Sparing of) fun _ => True) : (getById userId >>= k).Commits (Sparing of) fun _ => True := by
  refine commits_bind (commits_query _) ?_
  rintro found ⟨db,rfl⟩
  exact each _ fun user => Table.key_of_get?

theorem commits_account (request : AccountRequest) :
    (accountProgram request).Commits (Sparing (Request.account request).user?) fun _ => True := by
  have refreshes : ∀ {of : Option UUID} (userId : UUID), (refresh userId : App User).Commits (Sparing of) fun _ => True := by
    intro of userId
    refine commits_bind (commits_query _) fun found _ => ?_
    split <;> trivial
  cases request with
  | login identity =>
    refine commits_bind (commits_query _) fun found _ => ?_
    split
    · refine commits_bind ⟨sparing_create,fun i done => ?_⟩ fun user (_ : True) => trivial
      cases done with
      | true => exact refreshes _
      | false =>
        have undone : (undo : App Unit).Commits (Sparing none) fun _ => True := trivial
        refine commits_bind undone fun _ _ => commits_bind (commits_query _) fun found _ => ?_
        split <;> trivial
    · trivial
  | completeOnboarding userId form =>
    refine commits_bind (commits_getById fun found own => ?_) fun user (_ : True) => trivial
    split
    · trivial
    next user kept =>
      split
      · trivial
      next unfinished =>
        have same := own user (Option.filter_eq_some_iff.mp kept).1
        subst same
        exact commits_bind (commits_commitOr sparing_onboarding) fun _ _ => refreshes _
  | updateProfile userId change =>
    refine commits_bind (commits_getById fun found own => ?_) fun user (_ : True) => trivial
    split
    · trivial
    next user kept =>
      split
      · trivial
      next finished =>
        have same := own user (Option.filter_eq_some_iff.mp kept).1
        subst same
        refine commits_bind (commits_commitOr (sparing_update fun registry after events made => ?_)) fun _ _ => refreshes _
        exact ⟨_,_,(profileWrites_eq_some.mp made).1⟩
  | withdraw userId =>
    refine commits_bind (commits_getById fun found own => ?_) fun user (_ : True) => trivial
    split
    · trivial
    next user kept =>
      have same := own user (Option.filter_eq_some_iff.mp kept).1
      subst same
      refine commits_bind commits_supply fun clock _ =>
        commits_bind (commits_commitOr (sparing_update fun registry after events made => ?_)) fun _ _ => trivial
      exact ⟨_,_,(withdrawWrites_eq_some.mp made).1⟩

end accounts
section safety
open SafetyRepository ReportRepository

theorem commits_select {key : RowKey} {C : (Input → Db → Option (Db × List Event)) → Prop} :
    (selectForUpdate key : App (Option (Lockable.Row Db key))).Commits C fun _ => True := fun _ => trivial

theorem commits_block (blockedId : UUID) : (block u blockedId).Commits (Sparing (some u)) fun _ => True := by
  unfold block
  split
  · trivial
  refine commits_bind commits_supply fun start _ => commits_bind (commits_query _) fun target _ => ?_
  split
  · trivial
  refine commits_bind (commits_commitOr ?_) fun _ _ => trivial
  intro i db db' events written v other
  obtain ⟨_,fresh,rfl⟩ := blockWrites_eq written
  exact spared_newBlock fresh fun same => other (congrArg some same)

theorem commits_unblock (blockedId : UUID) : (unblock u blockedId).Commits (Sparing (some u)) fun _ => True := by
  refine commits_bind (commits_commitOr ?_) fun _ _ => trivial
  intro i db db' events written v other
  cases written
  refine {Spared.refl v db with blocks := ?_}
  rintro row rfl
  simp only [Db.deleteBlock,Table.erase,List.mem_filter,and_iff_left_iff_imp]
  intro member
  have apart : (row.blockerId,row.blockedId) ≠ (u,blockedId) :=
    fun same => other (congrArg some (congrArg Prod.fst same).symm)
  simp [apart]

theorem commits_flushReport {arguments : ReportRepository.Arguments} {report : Report} {of : Option UUID} :
    (flushReport arguments report).Commits (Sparing of) fun _ => True := by
  refine commits_bind commits_select fun row _ => commits_bind (commits_query _) fun flushed _ => ?_
  split <;> trivial

theorem sparing_reportPhoto {arguments : ReportRepository.Arguments} {id : UUID} {start now : Time}
    {participant : Option MatchParticipant} (own : ∀ row ∈ participant, row.userId = arguments.reporterId) :
    Sparing (some arguments.reporterId) fun _ db =>
      reportPhotoWrites arguments (newReport arguments id start) participant now db := by
  intro i db db' events written v other
  obtain ⟨_,fresh,rfl⟩ := reportPhotoWrites_eq written
  have reports := spared_newReport (v := v) fresh fun same => other (congrArg some same)
  cases participant with
  | none => exact reports
  | some row =>
    refine {reports with seat := ?_}
    intro m seat found
    have apart : (m,v) ≠ (row.matchId,row.userId) :=
      fun same => other (congrArg some ((own row rfl).symm.trans (congrArg Prod.snd same).symm))
    change (db.participants.modify _ _ _).get? (m,v) = some seat
    rw [Table.get?_modify,found]
    simp [apart]

theorem commits_report (arguments : ReportRepository.Arguments) :
    (ReportRepository.create arguments).Commits (Sparing (some arguments.reporterId)) fun _ => True := by
  unfold ReportRepository.create
  split
  · unfold createForUser
    split
    · trivial
    refine commits_bind commits_supply fun start _ => commits_bind (commits_query _) fun target _ => ?_
    split
    · trivial
    refine commits_bind commits_flushReport fun _ _ => commits_bind (commits_query _) fun already _ =>
      commits_bind (commits_commitOr ?_) fun _ _ => trivial
    intro i db db' events written v other
    rcases reportUserWrites_eq written with ⟨freshReport,_,rfl⟩ | ⟨freshReport,fresh,_,rfl⟩
    · exact spared_newReport freshReport fun same => other (congrArg some same)
    · have reports := spared_newReport (v := v) freshReport fun same => other (congrArg some same)
      have blocks := spared_newBlock (v := v) fresh fun same => other (congrArg some same)
      exact {reports with blocks := blocks.blocks}
  · unfold createForPhoto
    refine commits_bind commits_supply fun start _ => commits_bind (commits_query _) fun target _ => ?_
    split
    · trivial
    refine commits_bind commits_flushReport fun _ _ => commits_bind (commits_query _) ?_
    rintro participant ⟨db,rfl⟩
    split
    · refine commits_bind (commits_commitOr (sparing_reportPhoto fun row member => ?_)) fun _ _ => trivial
      cases member
    next row joined =>
      refine commits_bind commits_supply fun clock _ => commits_bind commits_select fun _ _ =>
        commits_bind (commits_commitOr (sparing_reportPhoto fun row' member => ?_)) fun _ _ => trivial
      cases member
      unfold ownParticipant at joined
      have picked := List.find?_some joined
      exact (of_decide_eq_true picked).1
  · trivial

end safety

section postcards
open PostcardRepository

theorem commits_get {p : UUID} {of : Option UUID} : (get u p).Commits (Sparing of) fun _ => True := by
  refine commits_bind (commits_query _) fun row _ => ?_
  split <;> trivial

theorem commits_lockParticipants {of : Option UUID} (rows : List (MatchParticipant × Photo)) :
    (lockParticipants rows).Commits (Sparing of) fun _ => True := by
  induction rows with
  | nil => trivial
  | cons row rest ih =>
    refine commits_bind commits_select fun participant _ => commits_bind commits_select fun photo _ =>
      commits_bind ih fun others _ => ?_
    split <;> trivial

theorem commits_deliver (draft : Draft) (start : Time) :
    (deliver draft start).Commits (Sparing (some draft.userId)) fun _ => True := by
  refine commits_bind (commits_query _) fun listed _ => commits_bind (commits_lockParticipants _) fun rows _ => ?_
  split
  · trivial
  refine commits_bind (commits_query _) fun blocked _ => ?_
  split
  · trivial
  refine commits_bind (commits_query _) fun last _ => ?_
  split
  · trivial
  split
  · trivial
  refine commits_bind (commits_commitOr ?_) fun _ _ => commits_get
  intro i db db' events written v other
  obtain ⟨_,fresh,_,rfl⟩ := sendWrites_eq written
  exact {spared_newPostcard fresh fun same => other (congrArg some same) with}

theorem commits_send (draft : Draft) : (send draft).Commits (Sparing (some draft.userId)) fun _ => True := by
  refine commits_bind commits_supply fun start _ => ?_
  split
  · exact commits_deliver _ _
  · refine commits_bind (commits_query _) fun existing _ => ?_
    split
    · exact commits_get
    · exact commits_deliver _ _

end postcards
end commits

section postcards
open PostcardRepository

/-- The postcard's text and parties are those of a card seen before. -/
theorem Belongs.card {c : UUID} {card card' : Postcard} (step : Belongs w w')
    (before : w.db.postcards.get? c = some card) (after : w'.db.postcards.get? c = some card') :
    card'.envelope = card.envelope := by
  obtain ⟨card₁,found,same⟩ := step.2 c card before
  cases found.symm.trans after
  exact same

theorem warrants_markRead {c : UUID} {Q : Except Exc PostcardRow → BackendWorld → Prop} (always : ∀ x w, Q x w) :
    (PostcardRepository.markRead u c).Warrants (fun _ => True) Belongs (SparesOthers (some u)) t Q w := by
  unfold PostcardRepository.markRead
  refine warrants_query fun w₁ step₁ _ => ?_
  split
  · exact fun _ _ => always _ _
  next card kept =>
    obtain ⟨found,own⟩ := Option.filter_eq_some_iff.mp kept
    split
    · refine warrants_supply fun clock w₂ step₂ w₃ step₃ _ => warrants_commitOr (fun i w₄ db events step₄ _ written => ?_)
        fun _ _ _ _ => always _ _
      cases written
      refine ⟨fun v other => spared_postcard (fun _ => rfl) fun card' found' => ?_,spares_of_commits commits_get always⟩
      have step := (step₂.trans _ _ _ step₃).trans _ _ _ step₄
      have receiver : card'.receiverId = u :=
        (congrArg Postcard.receiverId (step.card found found')).trans (of_decide_eq_true own).1
      have apart : card'.receiverId ≠ v := fun same => other (congrArg some (receiver.symm.trans same))
      simp [cover,apart]
    · exact spares_of_commits commits_get always

theorem sideOf_party {card : Postcard} {side : Side} (chosen : sideOf u card = some side) :
    (match side with
      | .sender => card.senderId
      | .receiver => card.receiverId) = u := by
  unfold sideOf at chosen
  split at chosen
  next mine =>
    cases chosen
    exact mine.1
  next =>
    split at chosen
    next mine =>
      cases chosen
      exact mine.1
    next => cases chosen

theorem warrants_delete {c : UUID} {Q : Except Exc Unit → BackendWorld → Prop} (always : ∀ x w, Q x w) :
    (PostcardRepository.delete u c).Warrants (fun _ => True) Belongs (SparesOthers (some u)) t Q w := by
  unfold PostcardRepository.delete
  refine warrants_query fun w₁ step₁ _ => ?_
  split
  · exact fun _ _ => always _ _
  next side chosen =>
    obtain ⟨card,found,mine⟩ := Option.bind_eq_some_iff.mp chosen
    refine warrants_supply fun clock w₂ step₂ w₃ step₃ _ => warrants_commitOr (fun i w₄ db events step₄ _ written => ?_)
      fun _ _ _ _ => always _ _
    cases written
    have step := (step₂.trans _ _ _ step₃).trans _ _ _ step₄
    refine ⟨fun v other => ?_,fun _ _ => always _ _⟩
    have apart : ∀ {party}, party = u → party ≠ v := fun own same => other (congrArg some (own.symm.trans same))
    cases side with
    | sender =>
      refine spared_postcard (fun _ => rfl) fun card' found' => ?_
      have sender : card'.senderId = u :=
        (congrArg Postcard.senderId (step.card found found')).trans (sideOf_party mine)
      simp [cover,apart sender]
    | receiver =>
      refine spared_postcard (fun _ => rfl) fun card' found' => ?_
      have receiver : card'.receiverId = u :=
        (congrArg Postcard.receiverId (step.card found found')).trans (sideOf_party mine)
      simp [cover,apart receiver]

end postcards

theorem commits_getPhotoImage {of : Option UUID} (p : UUID) : (getPhotoImage u p).Commits (Sparing of) fun _ => True := by
  refine commits_bind (commits_query _) fun photo _ => ?_
  split
  · trivial
  split
  · trivial
  refine commits_bind (G := fun _ => True) ?_ fun allowed _ => ?_
  · refine commits_bind (commits_query _) fun owned _ => ?_
    split
    · trivial
    · exact commits_bind (commits_query _) fun _ _ => trivial
  · split <;> trivial

section quiet

theorem quiet_claimNext (queue : Queue) (workerId : String) (leaseSeconds : Int) :
    (claimNext queue workerId leaseSeconds).Quiet Event.isTimeout := by
  refine quiet_bind quiet_supply fun i => quiet_bind (quiet_query _) fun due =>
    quiet_bind (quiet_firstUnlocked _) fun found => ?_
  split
  · trivial
  next id job =>
    refine quiet_bind (quiet_query _) fun photo => ?_
    split
    · refine quiet_bind (quiet_commitOr fun i db db' events written event member => ?_) fun _ => trivial
      cases written
      rw [List.mem_singleton.mp member]
      exact fun timeout => timeout
    · refine quiet_bind (quiet_commitOr fun i db db' events written event member => ?_) fun _ => trivial
      cases written
      rw [List.mem_singleton.mp member]
      exact fun timeout => timeout

theorem quiet_expireDue (now : Time) : (SqlExpirationStore.expireDue now).Quiet Event.isTimeout := by
  refine quiet_bind quiet_supply fun start => quiet_bind (quiet_query _) fun due =>
    quiet_bind (quiet_lockEach _) fun rows =>
    quiet_bind (quiet_commitOr fun ids db db' events written event member => ?_) fun _ => trivial
  obtain ⟨rfl,_,_⟩ := SqlExpirationStore.expireWrites_eq written
  rw [List.mem_singleton.mp member]
  exact fun timeout => timeout

theorem quiet_finalize (first second : UUID) (explanation : List Char) (now : Time) (opened : Option Time) :
    (SqlMatchFinalizationStore.finalize first second explanation now opened).Quiet Event.isTimeout := by
  refine quiet_rescue ?_ fun error => trivial
  refine quiet_bind quiet_supply fun clock => quiet_bind (quiet_query _) fun present =>
    quiet_bind (quiet_lockEach _) fun rows => ?_
  split
  · split
    · trivial
    split
    · trivial
    split
    · trivial
    refine fun db => ⟨fun event member => ?_,?_⟩
    · rw [List.mem_singleton.mp member]
      exact fun timeout => timeout
    change Txn.Quiet Event.isTimeout (if _ then _ else _)
    split
    · trivial
    refine quiet_bind (quiet_commitOr fun ids db db' events written event member => ?_) fun _ => trivial
    obtain ⟨rfl,_,_⟩ := SqlMatchFinalizationStore.finalizeWrites_eq written
    rw [List.mem_singleton.mp member]
    exact fun timeout => timeout
  · trivial

end quiet

section requests
variable {K : Type} [Field K] [LinearOrder K] [IsStrictOrderedRing K] [FloorRing K] {sqrt : ℚ → K}

/-- What the commits of a request answer for. -/
def KeepsOff (r : Request) (w : BackendWorld) (db : Db) (events : List Event) : Prop :=
  if r.byService then r.report? = none → ∀ event ∈ events, ¬ event.isTimeout else SparesOthers r.user? w db events

theorem warrants_request (r : Request) (w : BackendWorld) :
    (program settings sqrt r).Warrants (fun _ => True) Belongs (KeepsOff r) t (fun _ _ => True) w := by
  have quiet : ∀ {p : App Response}, r.byService = true → p.Quiet Event.isTimeout →
      p.Warrants (fun _ => True) Belongs (KeepsOff r) t (fun _ _ => True) w := by
    intro p service quiet
    refine warrants_of_quiet (fun _ _ _ silent => ?_) (fun _ _ => trivial) quiet w
    rw [KeepsOff,if_pos service]
    exact fun _ => silent
  have reports : r.byService = true → r.report? ≠ none →
      (program settings sqrt r).Warrants (fun _ => True) Belongs (KeepsOff r) t (fun _ _ => True) w := by
    intro service reports
    refine warrants_all (fun _ _ _ => ?_) (fun _ _ => trivial) _ w
    rw [KeepsOff,if_pos service]
    exact fun none_ => absurd none_ reports
  have ends : ∀ {β : Type} {C : BackendWorld → Db → List Event → Prop} (f : β → Response) (x : Except Exc β) (w : BackendWorld),
      Continues (fun _ => True) Belongs C t (fun b => (return f b : App Response)) (fun _ _ => True) x w := by
    intro β C f x w
    cases x with
    | ok value => exact fun _ _ => trivial
    | error error => trivial
  cases r with
  | claim queue workerId =>
    cases queue <;> exact quiet rfl (quiet_bind (quiet_claimNext _ _ _) fun _ => trivial)
  | expireDue now => exact quiet rfl (quiet_bind (quiet_expireDue now) fun _ => trivial)
  | finalize first second explanation now => exact quiet rfl (quiet_bind (quiet_finalize _ _ _ _ _) fun _ => trivial)
  | validationResult | validationFailure | embeddingResult | embeddingFailure => exact reports rfl nofun
  | account request => exact spares_of_commits (commits_account request) fun _ _ => trivial
  | createPhoto => exact warrants_bind Belongs.refl (warrants_createPhoto (ends _))
  | todayPhoto => exact warrants_bind Belongs.refl (warrants_getTodayPhoto (ends _))
  | deletePhoto => exact warrants_bind Belongs.refl (warrants_deletePhoto (ends _))
  | photoImage =>
    exact warrants_bind Belongs.refl (spares_of_commits (commits_getPhotoImage _) (ends _))
  | block => exact warrants_bind Belongs.refl (spares_of_commits (commits_block _) (ends _))
  | unblock => exact warrants_bind Belongs.refl (spares_of_commits (commits_unblock _) (ends _))
  | report => exact warrants_bind Belongs.refl (spares_of_commits (commits_report _) (ends _))
  | send => exact warrants_bind Belongs.refl (spares_of_commits (commits_send _) (ends _))
  | postcard => exact warrants_bind Belongs.refl (spares_of_commits commits_get (ends _))
  | postcards =>
    exact warrants_bind Belongs.refl (spares_of_commits (commits_query _) (ends _))
  | readPostcard => exact warrants_bind Belongs.refl (warrants_markRead (ends _))
  | deletePostcard => exact warrants_bind Belongs.refl (warrants_delete (ends _))

variable {users : Table User.id} {s s' : Backend} {action : Action Input Exc Request}

theorem Reachable.belongs (reachable : Reachable settings sqrt users s)
    (taken : s.step (program settings sqrt) action = some s') : Belongs s.world s'.world := by
  rcases reachable.change taken with same | ⟨t,i,session,held,db,events,_,_,_,change,same⟩
  · rw [same]
    exact .refl _
  · rw [same]
    exact change.belongs

/-- No statement of the user's requests changes the database. -/
def Abstains (v : UUID) (a : Backend) (action : Action Input Exc Request) (b : Backend) : Prop :=
  ∀ t i session, action = .exec t i → a.session t = some session → session.request.user? = some v →
    b.world.db = a.world.db

theorem Reachable.spares (reachable : Reachable settings sqrt users s)
    (taken : s.step (program settings sqrt) action = some s') (abstains : Abstains v s action s') :
    Spared v s.world.db s'.world.db := by
  rcases reachable.change taken with same | ⟨t,i,session,held,db,events,rfl,running,_,change,same⟩
  · rw [same]
    exact .refl v _
  rcases Reach.warranted (C := fun r _ => KeepsOff r) reachable (fun _ => rfl) Belongs.refl Belongs.trans
    (fun _ _ => trivial) (fun r t a _ => warrants_request r a.world)
    (fun a action b there taken _ => Reachable.belongs there taken) taken
    with still | ⟨v',j,r,state,db',events',acted,present,answers,same'⟩
  · rw [show s'.world.db = s.world.db from still]
    exact .refl v _
  · cases acted
    cases running.symm.trans present
    have dbs : s'.world.db = db' := congrArg World.db same'
    rw [dbs]
    by_cases service : r.byService = true
    · rw [KeepsOff,if_pos service] at answers
      have told := List.append_cancel_left ((congrArg World.log same).symm.trans (congrArg World.log same'))
      have events_ : events = events' := List.map_injective_iff.mpr (fun _ _ pair => (Prod.mk.inj pair).2) told
      have db_ : db = db' := (congrArg World.db same).symm.trans (congrArg World.db same')
      subst events_
      subst db_
      exact change.spares service answers
    · rw [KeepsOff,if_neg service] at answers
      by_cases own : r.user? = some v
      · rw [← dbs,abstains _ _ _ rfl running own]
        exact .refl v _
      · exact answers v own

/-- However the requests of the others and of the service interleave, a user's own is as he left it. -/
theorem ownRows (reachable : Reachable settings sqrt users s)
    (run : Runs (program settings sqrt) (Abstains v) s s') : Spared v s.world.db s'.world.db := by
  have both : Reachable settings sqrt users s' ∧ Spared v s.world.db s'.world.db := by
    induction run with
    | refl => exact ⟨reachable,.refl v _⟩
    | tail _ link ih =>
      obtain ⟨action,taken,abstains⟩ := link
      obtain ⟨there,spared⟩ := ih
      exact ⟨.step action there taken (Reach.admits_none action),spared.trans (there.spares taken abstains)⟩
  exact both.2

end requests
end programs

namespace Sample

def startsOthers (user : UUID) (a : Backend) : Action Input Exc Request → Backend → Bool
  | .exec t _,_ => (a.session t).all fun session => session.request.user? ≠ some user
  | _,_ => true

theorem startsOthers_sound (user : UUID) (a : Backend) (action : Action Input Exc Request) (b : Backend)
    (passes : startsOthers user a action b = true) : Abstains user a action b := by
  rintro t i session rfl running own
  have passes : (a.session t).all (fun session => session.request.user? ≠ some user) = true := passes
  rw [running] at passes
  exact absurd own (of_decide_eq_true passes)

/-- The second user blocks the first and asks for the photo of the first to be deleted. -/
def meddling : List (Action Input Exc Request) :=
  session 2 (.block 2 1) 4 (input 1 200) ++ session 3 (.deletePhoto 2 11) 2 (input 2 300) ++ claimed 4 "worker" 3

end Sample

/-- An upload of the first user, and what the second and a worker do afterwards. -/
theorem ownRows_others : ∃ s s' : Backend, Runs (program Sample.settings Rat.sqrt) (Abstains 1) s s' ∧
    (s.db.photos.get? 11).isSome ∧ s.db.blocks.rows = [] ∧ s'.db.blocks.rows ≠ [] ∧
    Spared 1 s.world.db s'.world.db := by
  obtain ⟨s,_,reachable,passed⟩ := Sample.reached Sample.uploaded (fun s => decide ((s.db.photos.get? 11).isSome ∧
    s.db.blocks.rows = []) && (s.runWhile (program Sample.settings Rat.sqrt) (Sample.startsOthers 1)
      Sample.meddling).any fun (s' : Backend) => decide (s'.db.blocks.rows ≠ [])) (by decide +kernel)
  obtain ⟨first,passed⟩ := (Bool.and_eq_true _ _).mp passed
  obtain ⟨s',ran,blocked⟩ := (Option.any_eq_true _ _).mp passed
  obtain ⟨there,none_⟩ := of_decide_eq_true first
  have run := Reach.runs_of_runWhile (fun a action b _ => Sample.startsOthers_sound 1 a action b) ran
  exact ⟨s,s',run,there,none_,of_decide_eq_true blocked,ownRows reachable run⟩

end Dalm
