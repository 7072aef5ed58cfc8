import Dalm.Finalization

/-! Commits that draw fresh identifiers. An accepted photo gets its embedding job and two
photos that are ready get their match; only a drawn identifier in use could prevent it. -/
namespace Dalm
open Relational
variable {settings : Settings} {w : BackendWorld} {ids : Input} {start now : Time}

/-- The first identifiers drawn differ and are new to the tables they go to. -/
@[mk_iff] structure Input.Fresh (db : Db) (ids : Input) : Prop where
  distinct : [ids.uuid 0,ids.uuid 1,ids.uuid 2].Nodup
  validations : ∀ n < 3, db.validations.get? (ids.uuid n) = none
  embeddingJobs : ∀ n < 3, db.embeddingJobs.get? (ids.uuid n) = none
  matches_ : ∀ n < 3, db.matches_.get? (ids.uuid n) = none
  reports : ∀ n < 3, db.reports.get? (ids.uuid n) = none
  notifications : ∀ n < 3, db.notifications.get? (ids.uuid n) = none
  postcards : ∀ n < 3, db.postcards.get? (ids.uuid n) = none

instance (db : Db) (ids : Input) : Decidable (ids.Fresh db) :=
  decidable_of_iff' _ (Input.fresh_iff db ids)

/-- Identifiers are fresh and the database does not fail. -/
def fresh : Discipline Db Input Event := ⟨fun w ids => ids.Fresh w.db,fun _ _ => True,False⟩

private theorem notify (db : Db) (row : Notification) (owned : (db.users.get? row.userId).isSome)
    (unused : db.notifications.get? row.id = none) : ∃ db', db.insertNotification row = some db' :=
  ⟨_,Db.insertNotification_eq_some.mpr ⟨owned,unused,rfl⟩⟩

/-- No embedding job is there for a photo that still waits for its verdict. -/
theorem unembedded_of_validating (inv : Inv settings w) {photo : Photo}
    (found : w.db.photos.get? photo.id = some photo) (validating : photo.status = .validating) :
    ∀ job ∈ w.db.embeddingJobs.rows, photo.id ≠ job.photoId := by
  intro job member same
  obtain ⟨v,row,present,owner,ok⟩ := inv.validations.validated _ photo found
  have passed := (inv.embeddings.passed v row present).mpr
    ⟨job.id,job,Table.get?_of_mem member,by rw [owner,same]⟩
  rcases ok.1 validating with open_ | open_ <;> rw [open_] at passed <;> cases passed

theorem HomeRepository.createWrites_of_fresh {arguments : HomeRepository.PhotoArguments} {mock : Bool}
    {cleared : List UUID} {db : Db} (known : (db.users.get? arguments.userId).isSome)
    (unused : db.photos.get? arguments.photoId = none)
    (compatible : ∀ photo ∈ (HomeRepository.released db cleared).photos.rows,
      Db.photosCompatible (HomeRepository.newPhoto arguments mock now) photo)
    (unvalidated : ∀ row ∈ db.validations.rows, arguments.photoId ≠ row.photoId)
    (unembedded : ∀ row ∈ db.embeddingJobs.rows, arguments.photoId ≠ row.photoId)
    (fresh : ids.Fresh db) :
    HomeRepository.createWrites arguments mock cleared start now ids db ≠ none := by
  have absent : (HomeRepository.released db cleared).photos.get?
      (HomeRepository.newPhoto arguments mock now).id = none := by
    unfold HomeRepository.released Db.updatePhotos
    rw [Table.get?_modify,show (HomeRepository.newPhoto arguments mock now).id = arguments.photoId from rfl,
      unused]
    exact ite_self none
  let photos := (HomeRepository.released db cleared).photos.insert
    (HomeRepository.newPhoto arguments mock now) absent
  have there : (photos.get? arguments.photoId).isSome := by
    rw [show photos.get? arguments.photoId = _ from Table.get?_insert_self absent]
    rfl
  have registered : (HomeRepository.released db cleared).insertPhoto
      (HomeRepository.newPhoto arguments mock now) = some {db with photos := photos} :=
    Db.insertPhoto_eq_some.mpr ⟨⟨known,List.all_eq_true.mpr compatible⟩,absent,rfl⟩
  have validated : ∀ row : PhotoValidation, row.id = ids.uuid 0 → row.photoId = arguments.photoId →
      ∃ validations, Db.insertValidation {db with photos := photos} row =
        some {db with photos := photos,validations := validations} := by
    intro row key owner
    refine ⟨_,Db.insertValidation_eq_some.mpr ⟨⟨owner ▸ there,?_⟩,?_,rfl⟩⟩
    · exact List.all_eq_true.mpr fun other member => decide_eq_true (owner ▸ unvalidated other member)
    · rw [key]
      exact fresh.validations 0 (by decide)
  unfold HomeRepository.createWrites
  cases mock with
  | false =>
    obtain ⟨validations,inserted⟩ := validated
      (HomeRepository.newValidation (ids.uuid 0) arguments.photoId start) rfl rfl
    simp [registered,inserted]
  | true =>
    obtain ⟨validations,inserted⟩ := validated
      (HomeRepository.mockValidation (ids.uuid 0) arguments.photoId now start) rfl rfl
    obtain ⟨jobs,queued⟩ : ∃ jobs, Db.insertEmbeddingJob {db with photos := photos,validations := validations}
        (PhotoValidationRepository.newEmbeddingJob (ids.uuid 1) arguments.photoId start) =
          some {db with photos := photos,validations := validations,embeddingJobs := jobs} := by
      refine ⟨_,Db.insertEmbeddingJob_eq_some.mpr ⟨⟨there,?_⟩,fresh.embeddingJobs 1 (by decide),rfl⟩⟩
      exact List.all_eq_true.mpr fun other member => decide_eq_true (unembedded other member)
    obtain ⟨_,notified⟩ := notify
      {db with photos := photos,validations := validations,embeddingJobs := jobs}
      (notification (ids.uuid 2) arguments.userId .validationPassed arguments.photoId start)
      known (fresh.notifications 2 (by decide))
    simp [registered,inserted,queued,notified]

namespace PhotoValidationRepository

theorem resultWrites_of_fresh (inv : Inv settings w) {id : UUID} {result : Result} {photo : Photo}
    (found : w.db.photos.get? photo.id = some photo) (validating : photo.status = .validating)
    (fresh : ids.Fresh w.db) : resultWrites id result photo start now ids w.db ≠ none := by
  have owned := (inv.photos _ photo found).owned
  cases verdict : result.status with
  | passed =>
    have there : ((w.db.photos.get? photo.id).map (accept photo)).isSome := by simp [found]
    have distinct := unembedded_of_validating inv found validating
    have inserted : ∃ db, ((w.db.updateValidation id (complete result now)).updatePhoto photo.id
        (accept photo)).insertEmbeddingJob (newEmbeddingJob (ids.uuid 0) photo.id start) = some db ∧
          db.users = w.db.users ∧ db.notifications = w.db.notifications := by
      refine ⟨_,Db.insertEmbeddingJob_eq_some.mpr ⟨⟨?_,?_⟩,fresh.embeddingJobs 0 (by decide),rfl⟩,rfl,rfl⟩
      · simpa [newEmbeddingJob,Db.updateValidation] using there
      · exact List.all_eq_true.mpr fun job member => decide_eq_true (distinct job member)
    obtain ⟨db,inserted,users,notifications⟩ := inserted
    obtain ⟨db',notified⟩ := notify db
      (notification (ids.uuid 1) photo.userId .validationPassed photo.id start)
      (by rw [users]; exact owned.known) (by rw [notifications]; exact fresh.notifications 1 (by decide))
    have passed : passWrites photo start ids (w.db.updateValidation id (complete result now)) =
        some db' := Option.bind_eq_some_iff.mpr ⟨db,inserted,notified⟩
    simp [resultWrites,verdict,passed]
  | rejected =>
    obtain ⟨db',notified⟩ := notify
      ((w.db.updateValidation id (complete result now)).updatePhoto photo.id
        (reject result.rejectionCode (rejectionMessage result.rejectionCode)))
      (notification (ids.uuid 1) photo.userId .photoRejected photo.id start)
      owned.known (fresh.notifications 1 (by decide))
    have rejected : rejectWrites photo result.rejectionCode start ids
        (w.db.updateValidation id (complete result now)) = some db' := notified
    simp [resultWrites,verdict,rejected]

end PhotoValidationRepository

namespace SqlMatchFinalizationStore

/-- A photo that is searching takes no part in a match. -/
theorem unjoined_of_searching (inv : Inv settings w) {photo : Photo}
    (found : w.db.photos.get? photo.id = some photo) (searching : photo.status = .searching) :
    ∀ row ∈ w.db.participants.rows, photo.id ≠ row.photoId := by
  intro row member same
  obtain ⟨_,other,present,_,status⟩ := inv.matches_.participant _ _ row (Table.get?_of_mem member)
  rw [← same] at present
  cases Option.some.inj (present.symm.trans found)
  rw [searching] at status
  cases status

theorem finalizeWrites_of_fresh (inv : Inv settings w) {first second : UUID} {a b : Photo}
    {explanation : List Char} (ready : Ready w.db first second now a b) (fresh : ids.Fresh w.db) :
    finalizeWrites a b explanation now start ids w.db ≠ none := by
  have owned₁ := (inv.photos _ a ready.found.1).owned.known
  have owned₂ := (inv.photos _ b ready.found.2).owned.known
  have there₁ : (w.db.photos.get? a.id).isSome := by rw [ready.found.1]; rfl
  have there₂ : (w.db.photos.get? b.id).isSome := by rw [ready.found.2]; rfl
  have alone₁ := unjoined_of_searching inv ready.found.1 ready.searching.1
  have alone₂ := unjoined_of_searching inv ready.found.2 ready.searching.2
  have unjoined : ∀ u, w.db.participants.get? (ids.uuid 0,u) = none := by
    intro u
    cases joined : w.db.participants.get? (ids.uuid 0,u) with
    | none => rfl
    | some row =>
      have there := (inv.matches_.participant _ u row joined).1
      rw [fresh.matches_ 0 (by decide)] at there
      cases there
  let row : Match := ⟨ids.uuid 0,explanation,start⟩
  let db₁ : Db := {w.db with matches_ := w.db.matches_.insert row (fresh.matches_ 0 (by decide))}
  have one : w.db.insertMatch row = some db₁ := Db.insertMatch_eq_some.mpr ⟨fresh.matches_ 0 (by decide),rfl⟩
  have matched : (db₁.matches_.get? (ids.uuid 0)).isSome := by
    have found : db₁.matches_.get? (ids.uuid 0) = some row :=
      (Table.get?_insert _ row (fresh.matches_ 0 (by decide)) _).trans (if_pos rfl)
    rw [found]
    rfl
  let db₂ : Db := {db₁ with
    participants := w.db.participants.insert (participant (ids.uuid 0) a) (unjoined a.userId)}
  have two : db₁.insertParticipant (participant (ids.uuid 0) a) = some db₂ := by
    refine Db.insertParticipant_eq_some.mpr ⟨⟨matched,owned₁,there₁,?_⟩,unjoined a.userId,rfl⟩
    exact List.all_eq_true.mpr fun other member => decide_eq_true (alone₁ other member)
  have absent : db₂.participants.get? (ids.uuid 0,b.userId) = none := by
    refine (Table.get?_insert _ _ (unjoined a.userId) _).trans ?_
    rw [if_neg fun same => ready.users (congrArg Prod.snd same),unjoined]
  let db₃ : Db := {db₂ with participants := db₂.participants.insert (participant (ids.uuid 0) b) absent}
  have three : db₂.insertParticipant (participant (ids.uuid 0) b) = some db₃ := by
    refine Db.insertParticipant_eq_some.mpr ⟨⟨matched,owned₂,there₂,?_⟩,absent,rfl⟩
    refine List.all_eq_true.mpr fun other member => decide_eq_true ?_
    rcases List.mem_append.mp member with member | member
    · exact alone₂ other member
    · rw [List.mem_singleton.mp member]
      exact ready.apart.symm
  let db₄ : Db := db₃.updatePhotos (fun id => id = a.id ∨ id = b.id) fun row => {row with status := .matched}
  let notice : Notification := notification (ids.uuid 1) a.userId .matched (ids.uuid 0) start
  let db₅ : Db := {db₄ with notifications := w.db.notifications.insert notice (fresh.notifications 1 (by decide))}
  have four : db₄.insertNotification notice = some db₅ :=
    Db.insertNotification_eq_some.mpr ⟨owned₁,fresh.notifications 1 (by decide),rfl⟩
  have unused : db₅.notifications.get? (ids.uuid 2) = none := by
    refine (Table.get?_insert _ notice (fresh.notifications 1 (by decide)) _).trans ?_
    have different : notice.id ≠ ids.uuid 2 := by
      have distinct := fresh.distinct
      simp only [List.nodup_cons,List.mem_cons,List.not_mem_nil,or_false,not_or] at distinct
      exact distinct.2.1
    rw [if_neg different]
    exact fresh.notifications 2 (by decide)
  obtain ⟨db₆,five⟩ := notify db₅
    (notification (ids.uuid 2) b.userId .matched (ids.uuid 0) start) owned₂ unused
  have all : finalizeWrites a b explanation now start ids w.db =
      some (db₆,[.matched (ids.uuid 0) a.id b.id now]) :=
    Option.bind_eq_some_iff.mpr ⟨db₁,one,Option.bind_eq_some_iff.mpr ⟨db₂,two,
      Option.bind_eq_some_iff.mpr ⟨db₃,three,Option.bind_eq_some_iff.mpr ⟨db₅,four,
        Option.bind_eq_some_iff.mpr ⟨db₆,five,rfl⟩⟩⟩⟩⟩
  rw [all]
  exact Option.some_ne_none _

end SqlMatchFinalizationStore

end Dalm
