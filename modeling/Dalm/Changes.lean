import Dalm.Service
import Dalm.Tables

/-! The service as atomic changes. A request changes the database in one of these ways,
each at one instant, under a condition on the database of that instant and with the
rows it touches locked. What the programs do between statements is gone. -/
namespace Dalm
open Relational

/-- The job a worker's report is about, and the worker it names. -/
def Request.report? : Request → Option (Queue × UUID × Option String)
  | .validationResult jobId result => some (.validation,jobId,result.workerId)
  | .validationFailure jobId failure => some (.validation,jobId,some failure.workerId)
  | .embeddingResult jobId workerId _ => some (.embedding,jobId,some workerId)
  | .embeddingFailure jobId failure => some (.embedding,jobId,some failure.workerId)
  | _ => none

def Event.isObservation : Event → Bool
  | .sourceRead _ _ => true
  | .candidatesListed _ _ => true
  | .blocksChecked _ _ _ => true
  | .passedOver _ _ => true
  | _ => false

/-- Whether a block stands after an event. -/
def standsAfter (blocker blocked : UUID) (standing : Bool) : Event → Bool
  | .blocked first second => if (first,second) = (blocker,blocked) then true else standing
  | .unblocked first second => if (first,second) = (blocker,blocked) then false else standing
  | _ => standing

/-- Whether a block was the last word on the pair, as the history tells it. -/
def blockedAt (blocker blocked : UUID) (log : List (Nat × Event)) : Bool :=
  (log.map Prod.snd).foldl (standsAfter blocker blocked) false

def holdsLease (worker : String) (job : Job) : Prop :=
  job.status = .processing ∧ job.workerId = some worker

/-- Session `t` checked the pair when no block stood, and has done nothing since. -/
def checkedFree (t : Nat) (first second : UUID) (log : List (Nat × Event)) : Prop :=
  ∃ before after, log = before ++ (t,.blocksChecked first second false) :: after ∧
    (∀ entry ∈ after, entry.1 ≠ t) ∧
    blockedAt first second before = false ∧ blockedAt second first before = false

/-- The two participants of a match, the one whose photo was registered first in front. -/
structure Pair (db : Db) (matchId : UUID) (first second : MatchParticipant × Photo) : Prop where
  firstRow : db.participants.get? (matchId,first.1.userId) = some first.1
  secondRow : db.participants.get? (matchId,second.1.userId) = some second.1
  firstPhoto : db.photos.get? first.1.photoId = some first.2
  secondPhoto : db.photos.get? second.1.photoId = some second.2
  apart : first.1.userId ≠ second.1.userId
  ordered : PostcardRepository.registeredBefore first second

def lockedRows (held : List RowKey) (db : Db) (accepted : Photo → Bool)
    (rows : List ((_ : UUID) × Photo)) : Prop :=
  ∀ row ∈ rows, .photo row.1 ∈ held ∧ db.photos.get? row.1 = some row.2 ∧ accepted row.2

/-- A user who has had a nickname: only a withdrawal takes it away. -/
def Onboarded (users : Table User.id) (userId : UUID) : Prop :=
  ∃ row, users.get? userId = some row ∧ (row.nickname = none → row.status = .withdrawn)

inductive Change (settings : Settings) (r : Request) (t : Nat) (held : List RowKey)
    (w : BackendWorld) : Db → List Event → Prop where
  | observed {event : Event} (observation : event.isObservation) :
    Change settings r t held w w.db [event]
  | created {arguments : HomeRepository.PhotoArguments} {mock : Bool} {cleared : List UUID}
      {start now : Time} {ids : Input} {db : Db} {events : List Event}
      (asked : r = .createPhoto arguments mock) (onboarded : Onboarded w.db.users arguments.userId)
      (locked : ∀ id ∈ cleared, .photo id ∈ held)
      (written : HomeRepository.createWrites arguments mock cleared start now ids w.db =
        some (db,events)) :
    Change settings r t held w db events
  | timedOut {userId : UUID} {now : Time} {rows : List ((_ : UUID) × Photo)}
      (asked : r.report? = none)
      (locked : lockedRows held w.db (HomeRepository.isStale userId now) rows) :
    Change settings r t held w
      (w.db.updatePhotos (fun id => rows.any fun row => row.1 = id) HomeRepository.timeOut)
      [.validationsTimedOut (rows.map Sigma.fst)]
  | deleted {userId photoId : UUID} {now : Time} {photo : Photo}
      (asked : r = .deletePhoto userId photoId) (locked : .photo photoId ∈ held)
      (found : w.db.photos.get? photoId = some photo)
      (accepted : HomeRepository.isDeletable photo.status) :
    Change settings r t held w
      (w.db.updatePhoto photoId fun row => {row with status := .deleted,deletedAt := some now})
      [.photoDeleted photoId]
  | abandoned {queue : Queue} {workerId : String} {id : UUID} {now : Time} {job : Job}
      (asked : r = .claim queue workerId) (locked : .job queue id ∈ held)
      (found : w.db.job? queue id = some job)
      (accepted : claimable settings.validationLeaseSeconds now job)
      (useless : queue = .validation → ∃ photo, w.db.photos.get? job.photoId = some photo ∧
        photo.status ≠ .validating) :
    Change settings r t held w (w.db.updateJob queue id (abandon now)) [.job queue id .closed]
  | handed {queue : Queue} {workerId : String} {id : UUID} {now : Time} {job : Job}
      (asked : r = .claim queue workerId) (locked : .job queue id ∈ held)
      (found : w.db.job? queue id = some job)
      (accepted : claimable settings.validationLeaseSeconds now job) :
    Change settings r t held w (w.db.updateJob queue id (handOut workerId now))
      [.job queue id (.handed workerId now)]
  | retried {queue : Queue} {id : UUID} {report : FailureReport} {now : Time} {job : Job}
      (asked : r.report? = some (queue,id,some report.workerId)) (locked : .job queue id ∈ held)
      (found : w.db.job? queue id = some job) (owned : holdsLease report.workerId job)
      (below : (job.attemptCount : Int) < settings.validationMaxAttempts) :
    Change settings r t held w
      (w.db.updateJob queue id (retryLater report.errorCode report.errorMessage now
        (retryDelay settings.validationRetryBaseSeconds job.attemptCount)))
      [.job queue id (.retried now)]
  | judged {id : UUID} {result : PhotoValidationRepository.Result} {job : Job} {photo : Photo}
      {start now : Time} {ids : Input} {db : Db} {events : List Event}
      (asked : r = .validationResult id result)
      (locked : .job .validation id ∈ held ∧ .photo job.photoId ∈ held)
      (found : w.db.job? .validation id = some job)
      (owned : job.status = .pending ∨ (job.status = .processing ∧ job.workerId = result.workerId))
      (owner : w.db.photos.get? job.photoId = some photo) (accepted : photo.status = .validating)
      (written : PhotoValidationRepository.resultWrites id result photo start now ids w.db =
        some (db,events)) :
    Change settings r t held w db events
  | validationFailed {id : UUID} {report : FailureReport} {job : Job} {photo : Photo}
      {start now : Time} {ids : Input} {db : Db} {events : List Event}
      (asked : r = .validationFailure id report)
      (locked : .job .validation id ∈ held ∧ .photo job.photoId ∈ held)
      (found : w.db.job? .validation id = some job) (owned : holdsLease report.workerId job)
      (owner : w.db.photos.get? job.photoId = some photo)
      (written : PhotoValidationRepository.failureWrites id report photo start now ids w.db =
        some (db,events)) :
    Change settings r t held w db events
  | embeddingFailed {id : UUID} {report : FailureReport} {now : Time} {job : Job}
      (asked : r = .embeddingFailure id report) (locked : .job .embedding id ∈ held)
      (found : w.db.job? .embedding id = some job) (owned : holdsLease report.workerId job) :
    Change settings r t held w
      (w.db.updateJob .embedding id (PhotoEmbeddingJobRepository.fail report now))
      [.job .embedding id .closed]
  | embedded {id : UUID} {workerId : String} {embedding : PhotoEmbeddingData} {job : Job}
      {start now : Time} {db : Db} {events : List Event}
      (asked : r = .embeddingResult id workerId embedding) (locked : .job .embedding id ∈ held)
      (found : w.db.job? .embedding id = some job) (owned : holdsLease workerId job)
      (written : PhotoEmbeddingJobRepository.resultWrites job embedding start now w.db =
        some (db,events)) :
    Change settings r t held w db events
  | expired {now start : Time} {rows : List ((_ : UUID) × Photo)} {ids : Input} {db : Db}
      {events : List Event} (asked : r = .expireDue now)
      (locked : lockedRows held w.db (SqlExpirationStore.isDue now) rows)
      (written : SqlExpirationStore.expireWrites rows start ids w.db = some (db,events))
      (distinct : (rows.map Sigma.fst).Nodup) : Change settings r t held w db events
  | matched {first second : Photo} {explanation : List Char} {now start : Time} {ids : Input}
      {db : Db} {events : List Event}
      (asked : (∃ a b explanation, r = .finalize a b explanation now) ∨
        ∃ id workerId embedding, r = .embeddingResult id workerId embedding)
      (locked : .photo first.id ∈ held ∧ .photo second.id ∈ held)
      (found : w.db.photos.get? first.id = some first ∧ w.db.photos.get? second.id = some second)
      (apart : first.id ≠ second.id ∧ first.userId ≠ second.userId)
      (searching : first.status = .searching ∧ second.status = .searching)
      (timely : ¬ SqlMatchFinalizationStore.isOver now first ∧
        ¬ SqlMatchFinalizationStore.isOver now second)
      (checked : checkedFree t first.userId second.userId w.log)
      (written : SqlMatchFinalizationStore.finalizeWrites first second explanation now start ids
        w.db = some (db,events)) :
    Change settings r t held w db events
  | blocked {blockerId blockedId : UUID} {start : Time} {db : Db} {events : List Event}
      (asked : r = .block blockerId blockedId)
      (written : SafetyRepository.blockWrites blockerId blockedId start w.db = some (db,events)) :
    Change settings r t held w db events
  | unblocked {blockerId blockedId : UUID} (asked : r = .unblock blockerId blockedId) :
    Change settings r t held w (w.db.deleteBlock blockerId blockedId)
      [.unblocked blockerId blockedId]
  | reportedUser {arguments : ReportRepository.Arguments} {report : Report} {already : Bool}
      {start : Time} {db : Db} {events : List Event} (asked : r = .report arguments)
      (written : ReportRepository.reportUserWrites arguments report already start w.db =
        some (db,events)) :
    Change settings r t held w db events
  | reportedPhoto {arguments : ReportRepository.Arguments} {report : Report}
      {participant : Option MatchParticipant} {now : Time} {db : Db} {events : List Event}
      (asked : r = .report arguments)
      (locked : ∀ row ∈ participant, .participant row.matchId row.userId ∈ held)
      (written : ReportRepository.reportPhotoWrites arguments report participant now w.db =
        some (db,events)) :
    Change settings r t held w db events
  | sent {draft : PostcardRepository.Draft} {first second : MatchParticipant × Photo}
      {receiverId : UUID} {start : Time} {ids : Input} {db : Db} {events : List Event}
      (asked : r = .send draft) (pair : Pair w.db draft.matchId first second)
      (locked : .participant draft.matchId first.1.userId ∈ held)
      (parties : (draft.userId = first.1.userId ∧ receiverId = second.1.userId) ∨
        (draft.userId = second.1.userId ∧ receiverId = first.1.userId))
      (turn : PostcardRepository.lastSender draft.matchId w.db = none →
        draft.userId = first.1.userId)
      (reply : PostcardRepository.lastSender draft.matchId w.db ≠ some draft.userId)
      (written : PostcardRepository.sendWrites draft receiverId start ids w.db = some (db,events)) :
    Change settings r t held w db events
  | postcardRead {userId postcardId : UUID} {now : Time}
      (asked : r = .readPostcard userId postcardId) (locked : .postcard postcardId ∈ held) :
    Change settings r t held w
      (w.db.updatePostcard postcardId fun row => {row with readAt := some now})
      [.postcardRead postcardId]
  | postcardDeleted {userId postcardId : UUID} {now : Time} {side : PostcardRepository.Side}
      (asked : r = .deletePostcard userId postcardId) (locked : .postcard postcardId ∈ held) :
    Change settings r t held w (PostcardRepository.deleteSide w.db postcardId now side)
      [.postcardDeleted postcardId]
  | account {request : AccountRequest} {registry : Registry} {event : UserEvent}
      (asked : r = .account request)
      (written : UserRepository.Writes ⟨w.db.users,w.db.terms⟩ registry [event]) :
    Change settings r t held w {w.db with users := registry.users,terms := registry.terms}
      [.account event]

end Dalm
