import Dalm.App
import Mathlib.Data.List.Sort

/-! PhotoValidationRepository, and the hand-out both work queues share. -/
namespace Dalm
open Relational Txn

/-- The WHERE clause of claim_next; a NULL time makes a comparison false. -/
def claimable (leaseSeconds : Int) (now : Time) (job : Job) : Bool :=
  (job.status = .pending ∧ job.nextAttemptAt.all (· ≤ now)) ∨
    (job.status = .processing ∧ job.startedAt.any (· < now - seconds leaseSeconds))

def claimedBefore (first second : Job) : Prop :=
  first.createdAt < second.createdAt ∨
    (first.createdAt = second.createdAt ∧ first.id ≤ second.id)

instance : DecidableRel claimedBefore := fun _ _ => inferInstanceAs (Decidable (_ ∨ _))

def Queue.usable : Queue → PhotoStatus
  | .validation => .validating
  | .embedding => .searching

def abandon (now : Time) (job : Job) : Job :=
  {job with status := .failed,errorCode := some "PHOTO_NOT_AVAILABLE",completedAt := some now}

def handOut (workerId : String) (now : Time) (job : Job) : Job :=
  {job with
    status := .processing
    workerId := some workerId
    attemptCount := job.attemptCount + 1
    startedAt := some now
    nextAttemptAt := none}

/-- claim_next of either queue. -/
def claimNext (queue : Queue) (workerId : String) (leaseSeconds : Int) :
    App (Option (Job × Photo)) := do
  let i ← supply
  let due ← query fun db =>
    (((db.jobs queue).filter (claimable leaseSeconds i.now)).insertionSort claimedBefore).map Job.id
  let found ← skipLockedJob queue (claimable leaseSeconds i.now) due
  match found with
  | none =>
    undo
    return none
  | some ⟨id,job⟩ =>
    let photo ← query fun db => db.photos.get? job.photoId
    match photo.filter (fun photo => photo.status = queue.usable ∧ photo.storageKey.isSome) with
    | none =>
      let _ ← commitOr .integrityError fun _ db =>
        some (db.updateJob queue id (abandon i.now),[.job queue id .closed])
      return none
    | some photo =>
      let _ ← commitOr .integrityError fun _ db =>
        some (db.updateJob queue id (handOut workerId i.now),[.job queue id (.handed workerId i.now)])
      return some (handOut workerId i.now job,photo)

/-- `retry_base_seconds * 2 ** (attempt_count - 1)` seconds; Python's power of a
negative exponent halves. -/
def retryDelay (retryBaseSeconds : Int) : Nat → Time
  | 0 => retryBaseSeconds * 500000
  | attempts + 1 => seconds (retryBaseSeconds * 2 ^ attempts)

def retryLater (errorCode : String) (errorMessage : Option String) (now delay : Time)
    (job : Job) : Job :=
  {job with
    errorCode := some errorCode
    errorMessage := errorMessage
    workerId := none
    startedAt := none
    status := .pending
    nextAttemptAt := some (now + delay)}

structure FailureReport where
  workerId : String
  errorCode : String
  errorMessage : Option String
  retryable : Bool
deriving DecidableEq

/-- The UPDATE a retried failure comes to in either queue. -/
def Db.retryJob (db : Db) (queue : Queue) (id : UUID) (report : FailureReport) (now delay : Time) : Db :=
  db.updateJob queue id (retryLater report.errorCode report.errorMessage now delay)

namespace PhotoValidationRepository

def jobNotFound : Exc :=
  .api ⟨404,.validationJobNotFound,"사진 검증 작업을 찾을 수 없습니다."⟩

def alreadyCompleted : Exc :=
  .api ⟨409,.validationAlreadyCompleted,"이미 완료된 사진 검증 작업입니다."⟩

def leaseLost : Exc :=
  .api ⟨409,.validationLeaseLost,"사진 검증 작업의 실행 권한이 만료되었습니다."⟩

def notProcessing : Exc :=
  .api ⟨409,.validationNotProcessing,"실행 중인 사진 검증 작업이 아닙니다."⟩

def photoNotValidating : Exc :=
  .api ⟨409,.photoNotValidating,"사진이 검증 대기 상태가 아닙니다."⟩

def claimNext (workerId : String) (leaseSeconds : Int) : App (Option (Job × Photo)) :=
  Dalm.claimNext .validation workerId leaseSeconds

inductive Verdict where
  | passed
  | rejected
deriving DecidableEq

def Verdict.status : Verdict → JobStatus
  | .passed => .passed
  | .rejected => .rejected

structure Result where
  status : Verdict
  scores : Option (List (String × ℚ))
  rejectionCode : Option String
  modelName : String
  modelVersion : String
  processingTimeMs : Nat
  workerId : Option String
deriving DecidableEq

def rejectionMessages : List (String × String) :=
  [("TOO_BLURRY","사진이 너무 흐립니다."),
   ("TOO_DARK","사진이 너무 어둡습니다."),
   ("SCREENSHOT","스크린샷이나 메신저 캡처는 등록할 수 없습니다."),
   ("TEXT_DOMINANT","문자 위주의 사진은 등록할 수 없습니다."),
   ("QR_OR_BARCODE","QR 코드나 바코드가 포함된 사진은 등록할 수 없습니다."),
   ("SENSITIVE_INFORMATION","민감한 개인정보가 포함된 사진은 등록할 수 없습니다."),
   ("SEXUAL_OR_VIOLENT","안전 정책에 맞지 않는 사진입니다."),
   ("ADVERTISEMENT","광고 또는 홍보성 사진은 등록할 수 없습니다."),
   ("DUPLICATE_PHOTO","이미 등록한 사진입니다.")]

def rejectionMessage (code : Option String) : String :=
  (rejectionMessages.lookup (code.getD "")).getD "사진 검증을 통과하지 못했습니다."

def complete (result : Result) (now : Time) (row : PhotoValidation) : PhotoValidation :=
  {row with
    status := result.status.status
    scores := result.scores
    rejectionCode := result.rejectionCode
    modelName := some result.modelName
    modelVersion := some result.modelVersion
    processingTimeMs := some result.processingTimeMs
    completedAt := some now
    workerId := none
    errorCode := none
    errorMessage := none
    nextAttemptAt := none}

def newEmbeddingJob (id photoId : UUID) (now : Time) : PhotoEmbeddingJob :=
  ⟨id,photoId,.pending,0,none,none,none,none,none,none,now⟩

def passWrites (photo : Photo) (start : Time) (ids : Input) (db : Db) : Option Db := do
  let db := db.updatePhoto photo.id fun row =>
    {row with
      status := .searching
      searchExpiresAt := some (photo.registeredAt + days 7)
      rejectionCode := none
      rejectionMessage := none}
  let db ← db.insertEmbeddingJob (newEmbeddingJob (ids.uuid 0) photo.id start)
  db.insertNotification (notification (ids.uuid 1) photo.userId .validationPassed photo.id start)

def rejectWrites (photo : Photo) (code : Option String) (start : Time) (ids : Input) (db : Db) :
    Option Db := do
  let db := db.updatePhoto photo.id fun row =>
    {row with
      status := .rejected
      rejectionCode := code
      rejectionMessage := some (rejectionMessage code)}
  db.insertNotification (notification (ids.uuid 1) photo.userId .photoRejected photo.id start)

def resultWrites (jobId : UUID) (result : Result) (photo : Photo) (start now : Time)
    (ids : Input) (db : Db) : Option (Db × List Event) := do
  let db := db.updateValidation jobId (complete result now)
  match result.status with
  | .passed =>
    let db ← passWrites photo start ids db
    return (db,[.job .validation jobId .closed,.photoPassed photo.id (ids.uuid 0)])
  | .rejected =>
    let db ← rejectWrites photo result.rejectionCode start ids db
    return (db,[.job .validation jobId .closed,.photoRejected photo.id])

def applyResult (jobId : UUID) (result : Result) : App Job := do
  let start ← supply
  let found ← lockJob .validation jobId
  match found with
  | none => throw jobNotFound
  | some validation =>
    if validation.status ≠ .pending ∧ validation.status ≠ .processing then
      if validation.status = result.status.status then return validation
      else throw alreadyCompleted
    else if validation.status = .processing ∧ validation.workerId ≠ result.workerId then
      throw leaseLost
    else
      let owner ← lockPhoto validation.photoId
      match owner with
      | none => throw .noResultFound
      | some photo =>
        if photo.status ≠ .validating then
          throw photoNotValidating
        else
          let clock ← supply
          let _ ← commitOr .integrityError
            (resultWrites jobId result photo start.now clock.now)
          return {validation with
            status := result.status.status
            completedAt := some clock.now
            workerId := none
            errorCode := none
            errorMessage := none
            nextAttemptAt := none}

def fail (report : FailureReport) (now : Time) (job : Job) : Job :=
  {job with
    errorCode := some report.errorCode
    errorMessage := report.errorMessage
    workerId := none
    startedAt := none
    status := .failed
    nextAttemptAt := none
    completedAt := some now}

def failureWrites (jobId : UUID) (report : FailureReport) (photo : Photo) (start now : Time)
    (ids : Input) (db : Db) : Option (Db × List Event) := do
  let db := db.updateJob .validation jobId (fail report now)
  if photo.status = .validating then
    let db := db.updatePhoto photo.id fun row =>
      {row with
        status := .rejected
        rejectionCode := some "VALIDATION_FAILED"
        rejectionMessage := some "사진을 확인하지 못했습니다. 잠시 후 다시 등록해주세요."}
    let db ← db.insertNotification
      ⟨ids.uuid 0,photo.userId,.photoRejected,"사진 확인이 지연됐어요",
        "잠시 후 새로운 순간을 등록해주세요.",(templates .photoRejected).targetType,photo.id,
        none,none,start⟩
    return (db,[.job .validation jobId .closed,.photoRejected photo.id])
  else
    return (db,[.job .validation jobId .closed])

def recordFailure (jobId : UUID) (report : FailureReport) (maxAttempts retryBaseSeconds : Int) :
    App Job := do
  let start ← supply
  let found ← lockJob .validation jobId
  match found with
  | none => throw jobNotFound
  | some validation =>
    if validation.status = .passed ∨ validation.status = .rejected then
      throw alreadyCompleted
    else if validation.status = .failed then
      return validation
    else if validation.status ≠ .processing then
      throw notProcessing
    else if validation.workerId ≠ some report.workerId then
      throw leaseLost
    else
      let clock ← supply
      if report.retryable ∧ (validation.attemptCount : Int) < maxAttempts then
        let delay := retryDelay retryBaseSeconds validation.attemptCount
        let _ ← commitOr .integrityError fun _ db =>
          some (db.retryJob .validation jobId report clock.now delay,
            [.job .validation jobId (.retried clock.now)])
        return retryLater report.errorCode report.errorMessage clock.now delay validation
      else
        let owner ← lockPhoto validation.photoId
        match owner with
        | none => throw .noResultFound
        | some photo =>
          let _ ← commitOr .integrityError (failureWrites jobId report photo start.now clock.now)
          return fail report clock.now validation

end PhotoValidationRepository
end Dalm
