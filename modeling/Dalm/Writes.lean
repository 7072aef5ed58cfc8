import Dalm.Changes

/-! What each commit writes, table by table. -/
namespace Dalm
open Relational
variable {db db' : Db} {events : List Event} {ids : Input} {start now : Time}

namespace HomeRepository
variable {arguments : PhotoArguments} {mock : Bool} {cleared : List UUID}

theorem createWrites_plain
    (written : createWrites arguments false cleared start now ids db = some (db',events)) :
    (db.users.get? arguments.userId).isSome ∧ events = [.photoCreated arguments.photoId (ids.uuid 0) none] ∧
      ∃ freshPhoto freshValidation, db' = {released db cleared with
        photos := (released db cleared).photos.insert (newPhoto arguments false now) freshPhoto
        validations :=
          db.validations.insert (newValidation (ids.uuid 0) arguments.photoId start) freshValidation} := by
  simp only [createWrites,Bool.false_eq_true,if_false,Option.bind_eq_bind,Option.bind_eq_some_iff,
    Db.insertPhoto_eq_some,Db.insertValidation_eq_some] at written
  obtain ⟨_,⟨⟨owned,_⟩,freshPhoto,rfl⟩,_,⟨_,freshValidation,rfl⟩,done⟩ := written
  simp only [pure,Option.some.injEq,Prod.mk.injEq] at done
  obtain ⟨rfl,rfl⟩ := done
  exact ⟨owned,rfl,freshPhoto,freshValidation,rfl⟩

theorem createWrites_mock
    (written : createWrites arguments true cleared start now ids db = some (db',events)) :
    (db.users.get? arguments.userId).isSome ∧
      events = [.photoCreated arguments.photoId (ids.uuid 0) (some (ids.uuid 1))] ∧
      (∀ job ∈ db.embeddingJobs.rows, arguments.photoId ≠ job.photoId) ∧
      ∃ freshPhoto freshValidation freshJob freshNotice, db' = {released db cleared with
        photos := (released db cleared).photos.insert (newPhoto arguments true now) freshPhoto
        validations := db.validations.insert
          (mockValidation (ids.uuid 0) arguments.photoId now start) freshValidation
        embeddingJobs := db.embeddingJobs.insert
          (PhotoValidationRepository.newEmbeddingJob (ids.uuid 1) arguments.photoId start) freshJob
        notifications := db.notifications.insert
          (notification (ids.uuid 2) arguments.userId .validationPassed arguments.photoId start)
          freshNotice} := by
  simp only [createWrites,if_true,Option.bind_eq_bind,Option.bind_eq_some_iff,
    Db.insertPhoto_eq_some,Db.insertValidation_eq_some,Db.insertEmbeddingJob_eq_some] at written
  obtain ⟨_,⟨⟨owned,_⟩,freshPhoto,rfl⟩,_,⟨_,freshValidation,rfl⟩,_,⟨⟨_,others⟩,freshJob,rfl⟩,_,
    notified,done⟩ := written
  obtain ⟨_,freshNotice,rfl⟩ := Db.insertNotification_eq_some.mp notified
  simp only [pure,Option.some.injEq,Prod.mk.injEq] at done
  obtain ⟨rfl,rfl⟩ := done
  have distinct : ∀ job ∈ db.embeddingJobs.rows, arguments.photoId ≠ job.photoId := by
    intro job member
    exact of_decide_eq_true (List.all_eq_true.mp others job member)
  exact ⟨owned,rfl,distinct,freshPhoto,freshValidation,freshJob,freshNotice,rfl⟩

theorem createWrites_compatible
    (written : createWrites arguments mock cleared start now ids db = some (db',events)) :
    ∀ photo ∈ (released db cleared).photos.rows, Db.photosCompatible (newPhoto arguments mock now) photo := by
  obtain ⟨_,inserted,_⟩ := Option.bind_eq_some_iff.mp written
  exact List.all_eq_true.mp (Db.insertPhoto_eq_some.mp inserted).1.2

theorem createWrites_photos
    (written : createWrites arguments mock cleared start now ids db = some (db',events)) :
    ∃ fresh validation job, events = [.photoCreated arguments.photoId validation job] ∧
      db'.photos = (released db cleared).photos.insert (newPhoto arguments mock now) fresh := by
  cases mock with
  | false =>
    obtain ⟨_,same,fresh,_,rfl⟩ := createWrites_plain written
    exact ⟨fresh,_,_,same,rfl⟩
  | true =>
    obtain ⟨_,same,_,fresh,_,_,_,rfl⟩ := createWrites_mock written
    exact ⟨fresh,_,_,same,rfl⟩

end HomeRepository

namespace PhotoValidationRepository
variable {jobId : UUID} {result : Result} {photo : Photo} {report : FailureReport}

def accept (photo row : Photo) : Photo :=
  {row with
    status := .searching
    searchExpiresAt := some (photo.registeredAt + days 7)
    rejectionCode := none
    rejectionMessage := none}

def reject (code : Option String) (message : String) (row : Photo) : Photo :=
  {row with status := .rejected,rejectionCode := code,rejectionMessage := some message}

theorem resultWrites_passed (passed : result.status = .passed)
    (written : resultWrites jobId result photo start now ids db = some (db',events)) :
    events = [.job .validation jobId .closed,.photoPassed photo.id (ids.uuid 0)] ∧
      (∀ job ∈ db.embeddingJobs.rows, photo.id ≠ job.photoId) ∧
      ∃ freshJob freshNotice,
        db' = {(db.updateValidation jobId (complete result now)).updatePhoto photo.id
            (accept photo) with
          embeddingJobs := db.embeddingJobs.insert (newEmbeddingJob (ids.uuid 0) photo.id start) freshJob
          notifications := db.notifications.insert
            (notification (ids.uuid 1) photo.userId .validationPassed photo.id start) freshNotice} := by
  simp only [resultWrites,passed,passWrites,Option.bind_eq_bind,Option.bind_eq_some_iff,
    Db.insertEmbeddingJob_eq_some] at written
  obtain ⟨_,⟨_,⟨⟨_,others⟩,freshJob,rfl⟩,notified⟩,done⟩ := written
  obtain ⟨_,freshNotice,rfl⟩ := Db.insertNotification_eq_some.mp notified
  simp only [pure,Option.some.injEq,Prod.mk.injEq] at done
  obtain ⟨rfl,rfl⟩ := done
  have distinct : ∀ job ∈ db.embeddingJobs.rows, photo.id ≠ job.photoId := by
    intro job member
    exact of_decide_eq_true (List.all_eq_true.mp others job member)
  exact ⟨rfl,distinct,freshJob,freshNotice,rfl⟩

theorem resultWrites_rejected (rejected : result.status = .rejected)
    (written : resultWrites jobId result photo start now ids db = some (db',events)) :
    events = [.job .validation jobId .closed,.photoRejected photo.id] ∧
      ∃ freshNotice, db' = {(db.updateValidation jobId (complete result now)).updatePhoto photo.id
          (reject result.rejectionCode (rejectionMessage result.rejectionCode)) with
        notifications := db.notifications.insert
          (notification (ids.uuid 1) photo.userId .photoRejected photo.id start) freshNotice} := by
  simp only [resultWrites,rejected,rejectWrites,Option.bind_eq_bind,Option.bind_eq_some_iff] at written
  obtain ⟨_,notified,done⟩ := written
  obtain ⟨_,freshNotice,rfl⟩ := Db.insertNotification_eq_some.mp notified
  simp only [pure,Option.some.injEq,Prod.mk.injEq] at done
  obtain ⟨rfl,rfl⟩ := done
  exact ⟨rfl,freshNotice,rfl⟩

/-- The notification of a photo that could not be checked has texts of its own. -/
def failureNotice (id : UUID) (photo : Photo) (start : Time) : Notification :=
  ⟨id,photo.userId,.photoRejected,"사진 확인이 지연됐어요","잠시 후 새로운 순간을 등록해주세요.",
    (templates .photoRejected).targetType,photo.id,none,none,start⟩

theorem failureWrites_validating (validating : photo.status = .validating)
    (written : failureWrites jobId report photo start now ids db = some (db',events)) :
    events = [.job .validation jobId .closed,.photoRejected photo.id] ∧
      ∃ freshNotice, db' = {(db.updateJob .validation jobId (fail report now)).updatePhoto photo.id
          (reject (some "VALIDATION_FAILED")
            "사진을 확인하지 못했습니다. 잠시 후 다시 등록해주세요.") with
        notifications := db.notifications.insert (failureNotice (ids.uuid 0) photo start)
          freshNotice} := by
  simp only [failureWrites,validating,if_true,Option.bind_eq_bind,Option.bind_eq_some_iff] at written
  obtain ⟨_,notified,done⟩ := written
  obtain ⟨_,freshNotice,rfl⟩ := Db.insertNotification_eq_some.mp notified
  simp only [pure,Option.some.injEq,Prod.mk.injEq] at done
  obtain ⟨rfl,rfl⟩ := done
  exact ⟨rfl,freshNotice,rfl⟩

theorem failureWrites_other (other : photo.status ≠ .validating)
    (written : failureWrites jobId report photo start now ids db = some (db',events)) :
    events = [.job .validation jobId .closed] ∧ db' = db.updateJob .validation jobId (fail report now) := by
  simp only [failureWrites,other,if_false,pure,Option.some.injEq,Prod.mk.injEq] at written
  exact ⟨written.2.symm,written.1.symm⟩

end PhotoValidationRepository

namespace PhotoEmbeddingJobRepository
variable {job : Job} {embedding : PhotoEmbeddingData}

theorem resultWrites_eq (written : resultWrites job embedding start now db = some (db',events)) :
    events = [.job .embedding job.id .closed,.embeddingStored job.photoId] ∧
      ∃ embeddings, db' = {db.updateJob .embedding job.id (complete now) with
        embeddings := embeddings} := by
  simp only [resultWrites,Db.upsertEmbedding,Option.bind_eq_bind,Option.bind_eq_some_iff] at written
  obtain ⟨stored,inserted,done⟩ := written
  simp only [pure,Option.some.injEq,Prod.mk.injEq] at done
  obtain ⟨rfl,rfl⟩ := done
  refine ⟨rfl,?_⟩
  split at inserted
  · split at inserted <;> cases Option.some.inj inserted <;> exact ⟨_,rfl⟩
  · cases inserted

theorem resultWrites_fresh (fresh : db.embeddings.get? job.photoId = none)
    (written : resultWrites job embedding start now db = some (db',events)) :
    db' = {db.updateJob .embedding job.id (complete now) with
      embeddings := db.embeddings.insert ⟨job.photoId,embedding,start⟩ fresh} := by
  simp only [resultWrites,Option.bind_eq_bind,Option.bind_eq_some_iff] at written
  obtain ⟨stored,inserted,done⟩ := written
  have same := Db.upsertEmbedding_fresh fresh inserted
  subst same
  simp only [pure,Option.some.injEq,Prod.mk.injEq] at done
  obtain ⟨rfl,rfl⟩ := done
  rfl

end PhotoEmbeddingJobRepository

/-- What a notification is, what it is about and whom it is for. -/
def Notification.letter (row : Notification) : NotificationType × UUID × UUID :=
  (row.type,row.targetId,row.userId)

namespace SqlExpirationStore

private theorem notified_eq {α : Type} (row : α → Notification) (items : List α)
    (done : items.foldlM (fun db item => db.insertNotification (row item)) db = some db') :
    ∃ notifications, db' = {db with notifications := notifications} := by
  induction items generalizing db with
  | nil =>
    cases Option.some.inj done
    exact ⟨_,rfl⟩
  | cons item items ih =>
    rw [List.foldlM_cons] at done
    obtain ⟨next,first,rest⟩ := Option.bind_eq_some_iff.mp done
    obtain ⟨_,rfl⟩ := Db.insertNotification_eq first
    obtain ⟨notifications,rfl⟩ := ih rest
    exact ⟨notifications,rfl⟩

private theorem letters_notified {α : Type} (row : α → Notification) (items : List α)
    (done : items.foldlM (fun db item => db.insertNotification (row item)) db = some db') :
    ∃ added, db'.notifications.rows = db.notifications.rows ++ added ∧
      added.map Notification.letter = items.map fun item => (row item).letter := by
  induction items generalizing db with
  | nil =>
    cases Option.some.inj done
    exact ⟨[],(List.append_nil _).symm,rfl⟩
  | cons item items ih =>
    rw [List.foldlM_cons] at done
    obtain ⟨next,first,rest⟩ := Option.bind_eq_some_iff.mp done
    obtain ⟨_,fresh,rfl⟩ := Db.insertNotification_eq_some.mp first
    obtain ⟨added,same,letters⟩ := ih rest
    refine ⟨row item :: added,?_,by rw [List.map_cons,letters]; rfl⟩
    rw [same,show (Table.rows _) = _ from Table.rows_insert _ _ fresh,List.append_assoc]
    rfl

theorem expireWrites_eq {rows : List ((_ : UUID) × Photo)}
    (written : expireWrites rows start ids db = some (db',events)) :
    events = [.photosExpired (rows.map Sigma.fst)] ∧ ∃ notifications,
      db' = {db.updatePhotos (fun id => rows.any fun row => row.1 = id)
          (fun row => {row with status := .expired}) with
        notifications := notifications} := by
  simp only [expireWrites,Option.bind_eq_bind,Option.bind_eq_some_iff] at written
  obtain ⟨_,notified,done⟩ := written
  obtain ⟨notifications,rfl⟩ := notified_eq _ _ notified
  simp only [pure,Option.some.injEq,Prod.mk.injEq] at done
  obtain ⟨rfl,rfl⟩ := done
  exact ⟨rfl,notifications,rfl⟩

theorem expireWrites_notifies {rows : List ((_ : UUID) × Photo)}
    (written : expireWrites rows start ids db = some (db',events)) :
    ∃ added, db'.notifications.rows = db.notifications.rows ++ added ∧
      added.map Notification.letter = rows.map fun row => (.searchExpired,row.2.id,row.2.userId) := by
  simp only [expireWrites,Option.bind_eq_bind,Option.bind_eq_some_iff] at written
  obtain ⟨_,notified,done⟩ := written
  simp only [pure,Option.some.injEq,Prod.mk.injEq] at done
  obtain ⟨rfl,_⟩ := done
  obtain ⟨added,same,letters⟩ := letters_notified _ _ notified
  refine ⟨added,same,letters.trans ?_⟩
  have rest := List.zipIdx_map_fst 0 rows
  conv_rhs => rw [← rest,List.map_map]
  rfl

end SqlExpirationStore

namespace SqlMatchFinalizationStore

def participant (matchId : UUID) (photo : Photo) : MatchParticipant :=
  ⟨matchId,photo.userId,photo.id,none,none⟩

theorem finalizeWrites_eq {first second : Photo} {explanation : List Char}
    (written : finalizeWrites first second explanation now start ids db = some (db',events)) :
    events = [.matched (ids.uuid 0) first.id second.id now] ∧
      ∃ freshMatch freshFirst freshSecond notifications,
        db' = {db.updatePhotos (fun id => id = first.id ∨ id = second.id)
            (fun row => {row with status := .matched}) with
          matches_ := db.matches_.insert ⟨ids.uuid 0,explanation,start⟩ freshMatch
          participants := (db.participants.insert (participant (ids.uuid 0) first) freshFirst).insert
            (participant (ids.uuid 0) second) freshSecond
          notifications := notifications} := by
  simp only [finalizeWrites,Option.bind_eq_bind,Option.bind_eq_some_iff,Db.insertMatch_eq_some,
    Db.insertParticipant_eq_some] at written
  obtain ⟨_,⟨freshMatch,rfl⟩,_,⟨_,freshFirst,rfl⟩,_,⟨_,freshSecond,rfl⟩,_,one,_,two,done⟩ := written
  obtain ⟨_,rfl⟩ := Db.insertNotification_eq one
  obtain ⟨notifications,rfl⟩ := Db.insertNotification_eq two
  simp only [pure,Option.some.injEq,Prod.mk.injEq] at done
  obtain ⟨rfl,rfl⟩ := done
  exact ⟨rfl,freshMatch,freshFirst,freshSecond,notifications,rfl⟩

theorem finalizeWrites_notifies {first second : Photo} {explanation : List Char}
    (written : finalizeWrites first second explanation now start ids db = some (db',events)) :
    db'.notifications.rows = db.notifications.rows ++
      [notification (ids.uuid 1) first.userId .matched (ids.uuid 0) start,
        notification (ids.uuid 2) second.userId .matched (ids.uuid 0) start] := by
  simp only [finalizeWrites,Option.bind_eq_bind,Option.bind_eq_some_iff,Db.insertMatch_eq_some,
    Db.insertParticipant_eq_some] at written
  obtain ⟨_,⟨_,rfl⟩,_,⟨_,_,rfl⟩,_,⟨_,_,rfl⟩,_,one,_,two,done⟩ := written
  obtain ⟨_,_,rfl⟩ := Db.insertNotification_eq_some.mp one
  obtain ⟨_,_,rfl⟩ := Db.insertNotification_eq_some.mp two
  simp only [pure,Option.some.injEq,Prod.mk.injEq] at done
  obtain ⟨rfl,_⟩ := done
  exact List.append_assoc _ _ _

end SqlMatchFinalizationStore

theorem SafetyRepository.blockWrites_eq {blockerId blockedId : UUID}
    (written : blockWrites blockerId blockedId start db = some (db',events)) :
    events = [.blocked blockerId blockedId] ∧
      ∃ fresh, db' = {db with blocks := db.blocks.insert ⟨blockerId,blockedId,start⟩ fresh} := by
  simp only [blockWrites,Option.bind_eq_bind,Option.bind_eq_some_iff,Db.insertBlock_eq_some] at written
  obtain ⟨_,⟨_,fresh,rfl⟩,done⟩ := written
  simp only [pure,Option.some.injEq,Prod.mk.injEq] at done
  obtain ⟨rfl,rfl⟩ := done
  exact ⟨rfl,fresh,rfl⟩

namespace ReportRepository
variable {arguments : Arguments} {report : Report}

theorem reportUserWrites_eq {already : Bool}
    (written : reportUserWrites arguments report already start db = some (db',events)) :
    (∃ freshReport, events = [.reported arguments.reporterId arguments.targetType arguments.targetId] ∧
      db' = {db with reports := db.reports.insert report freshReport}) ∨
    ∃ freshReport fresh, events = [.reported arguments.reporterId arguments.targetType arguments.targetId,
        .blocked arguments.reporterId arguments.targetId] ∧
      db' = {db with
        reports := db.reports.insert report freshReport
        blocks := db.blocks.insert ⟨arguments.reporterId,arguments.targetId,start⟩ fresh} := by
  simp only [reportUserWrites,Option.bind_eq_bind,Option.bind_eq_some_iff] at written
  obtain ⟨_,reported,rest⟩ := written
  obtain ⟨_,freshReport,rfl⟩ := Db.insertReport_eq_some.mp reported
  split at rest
  · simp only [pure,Option.some.injEq,Prod.mk.injEq] at rest
    exact .inl ⟨freshReport,rest.2.symm,rest.1.symm⟩
  · simp only [Option.bind_eq_some_iff,Db.insertBlock_eq_some] at rest
    obtain ⟨_,⟨_,fresh,rfl⟩,done⟩ := rest
    simp only [pure,Option.some.injEq,Prod.mk.injEq] at done
    exact .inr ⟨freshReport,fresh,done.2.symm,done.1.symm⟩

theorem reportPhotoWrites_eq {row : Option MatchParticipant}
    (written : reportPhotoWrites arguments report row now db = some (db',events)) :
    events = [.reported arguments.reporterId arguments.targetType arguments.targetId] ∧
      ∃ freshReport, db' = {(match row with
        | none => db
        | some row => db.hideParticipant row.matchId row.userId now) with
          reports := db.reports.insert report freshReport} := by
  simp only [reportPhotoWrites,Option.bind_eq_bind,Option.bind_eq_some_iff] at written
  obtain ⟨_,reported,rest⟩ := written
  obtain ⟨_,freshReport,rfl⟩ := Db.insertReport_eq_some.mp reported
  cases row with
  | none =>
    simp only [pure,Option.some.injEq,Prod.mk.injEq] at rest
    exact ⟨rest.2.symm,freshReport,rest.1.symm⟩
  | some row =>
    simp only [pure,Option.some.injEq,Prod.mk.injEq] at rest
    exact ⟨rest.2.symm,freshReport,rest.1.symm⟩

end ReportRepository

namespace PostcardRepository

def newPostcard (draft : Draft) (receiverId : UUID) (start : Time) (ids : Input) : Postcard :=
  ⟨ids.uuid 0,draft.matchId,draft.userId,receiverId,draft.content,draft.idempotencyKey,none,start,
    none,none⟩

theorem sendWrites_eq {draft : Draft} {receiverId : UUID}
    (written : sendWrites draft receiverId start ids db = some (db',events)) :
    events = [.sent draft.matchId (ids.uuid 0) draft.userId] ∧ ∃ fresh freshNotice,
      db' = {db with
        postcards := db.postcards.insert (newPostcard draft receiverId start ids) fresh
        notifications := db.notifications.insert
          (notification (ids.uuid 1) receiverId .postcardReceived (ids.uuid 0) start) freshNotice} := by
  simp only [sendWrites,Option.bind_eq_bind,Option.bind_eq_some_iff,Db.insertPostcard_eq_some] at written
  obtain ⟨_,⟨_,fresh,rfl⟩,_,notified,done⟩ := written
  obtain ⟨_,freshNotice,rfl⟩ := Db.insertNotification_eq_some.mp notified
  simp only [pure,Option.some.injEq,Prod.mk.injEq] at done
  obtain ⟨rfl,rfl⟩ := done
  exact ⟨rfl,fresh,freshNotice,rfl⟩

theorem sendWrites_unused {draft : Draft} {receiverId : UUID}
    (written : sendWrites draft receiverId start ids db = some (db',events)) :
    draft.idempotencyKey = none ∨ ∀ card ∈ db.postcards.rows,
      (draft.userId,draft.idempotencyKey) ≠ (card.senderId,card.idempotencyKey) := by
  simp only [sendWrites,Option.bind_eq_bind,Option.bind_eq_some_iff,Db.insertPostcard_eq_some] at written
  obtain ⟨_,⟨⟨_,_,_,_,_,keys⟩,_⟩,_⟩ := written
  refine or_iff_not_imp_left.mpr fun keyed card member => ?_
  exact (of_decide_eq_true (List.all_eq_true.mp keys card member)).resolve_left keyed

end PostcardRepository
end Dalm
