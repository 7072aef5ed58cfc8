import Dalm.EmbeddingJobs
import Dalm.Expiration
import Dalm.Home
import Dalm.Postcards
import Dalm.Safety
import Dalm.Relational.Soundness

/-! The requests clients, workers and the scheduler make, and the program each runs. -/
namespace Dalm
open Relational

/-- What the accounts of users are asked; how a user proves who he is is not seen here. -/
inductive AccountRequest where
  | login (identity : Identity)
  | completeOnboarding (userId : UUID) (form : Onboarding)
  | updateProfile (userId : UUID) (change : ProfileEdit)
  | withdraw (userId : UUID)

inductive Request where
  | createPhoto (arguments : HomeRepository.PhotoArguments) (mockPassed : Bool)
  | todayPhoto (userId : UUID) (today : Date)
  | photoImage (userId photoId : UUID)
  | deletePhoto (userId photoId : UUID)
  | claim (queue : Queue) (workerId : String)
  | validationResult (jobId : UUID) (result : PhotoValidationRepository.Result)
  | validationFailure (jobId : UUID) (report : FailureReport)
  | embeddingResult (jobId : UUID) (workerId : String) (embedding : PhotoEmbeddingData)
  | embeddingFailure (jobId : UUID) (report : FailureReport)
  | expireDue (now : Time)
  | finalize (firstPhotoId secondPhotoId : UUID) (explanation : List Char) (now : Time)
  | block (blockerId blockedId : UUID)
  | unblock (blockerId blockedId : UUID)
  | report (arguments : ReportRepository.Arguments)
  | send (draft : PostcardRepository.Draft)
  | postcard (userId postcardId : UUID)
  | postcards (userId : UUID) (mailbox : PostcardRepository.Mailbox) (size : Nat)
    (cursor : Option Cursor)
  | readPostcard (userId postcardId : UUID)
  | deletePostcard (userId postcardId : UUID)
  | account (request : AccountRequest)

inductive Response where
  | photo (photo : Option Photo)
  | imageUrl (storageKey : String)
  | claimed (job : Option (Job × Photo))
  | job (job : Job)
  | delivered (data : EmbeddingResultData)
  | expired (photos : List UUID)
  | matched (id : UUID)
  | postcard (row : PostcardRepository.PostcardRow)
  | postcards (rows : List PostcardRepository.PostcardRow)
  | user (user : User)
  | done

def accountProgram : AccountRequest → App Response
  | .login identity => do
    match ← UserRepository.getBy identity with
    | none => return .user (← UserRepository.createFrom identity)
    | some user => return .user user
  | .completeOnboarding userId form => do
    return .user (← UserRepository.completeOnboarding userId form)
  | .updateProfile userId change => do
    return .user (← UserRepository.updateProfile userId change)
  | .withdraw userId => do
    UserRepository.withdraw userId
    return .done

section program
variable {K : Type} [Field K] [LinearOrder K] [IsStrictOrderedRing K] [FloorRing K]

def program (settings : Settings) (sqrt : ℚ → K) : Request → App Response
  | .createPhoto arguments mockPassed => do
    return .photo (some (← HomeRepository.createPhoto arguments mockPassed))
  | .todayPhoto userId today => do
    return .photo (← HomeRepository.getTodayPhoto userId today)
  | .photoImage userId photoId => do
    return .imageUrl (← getPhotoImage userId photoId)
  | .deletePhoto userId photoId => do
    HomeRepository.deletePhoto userId photoId
    return .done
  | .claim .validation workerId => do
    return .claimed
      (← PhotoValidationRepository.claimNext workerId settings.validationLeaseSeconds)
  | .claim .embedding workerId => do
    return .claimed
      (← PhotoEmbeddingJobRepository.claimNext workerId settings.validationLeaseSeconds)
  | .validationResult jobId result => do
    return .job (← PhotoValidationRepository.applyResult jobId result)
  | .validationFailure jobId report => do
    return .job (← PhotoValidationRepository.recordFailure jobId report
      settings.validationMaxAttempts settings.validationRetryBaseSeconds)
  | .embeddingResult jobId workerId embedding => do
    return .delivered (← applyPhotoEmbeddingResult sqrt jobId workerId embedding)
  | .embeddingFailure jobId report => do
    return .job (← PhotoEmbeddingJobRepository.recordFailure jobId report
      settings.validationMaxAttempts settings.validationRetryBaseSeconds)
  | .expireDue now => do
    return .expired (← SqlExpirationStore.expireDue now)
  | .finalize firstPhotoId secondPhotoId explanation now => do
    return .matched
      (← SqlMatchFinalizationStore.finalize firstPhotoId secondPhotoId explanation now none)
  | .block blockerId blockedId => do
    SafetyRepository.block blockerId blockedId
    return .done
  | .unblock blockerId blockedId => do
    SafetyRepository.unblock blockerId blockedId
    return .done
  | .report arguments => do
    ReportRepository.create arguments
    return .done
  | .send draft => do
    return .postcard (← PostcardRepository.send draft)
  | .postcard userId postcardId => do
    return .postcard (← PostcardRepository.get userId postcardId)
  | .postcards userId mailbox size cursor => do
    return .postcards (← PostcardRepository.list userId mailbox size cursor)
  | .readPostcard userId postcardId => do
    return .postcard (← PostcardRepository.markRead userId postcardId)
  | .deletePostcard userId postcardId => do
    PostcardRepository.delete userId postcardId
    return .done
  | .account request => accountProgram request

end program

abbrev Backend := System Db RowKey Input Event Exc Request Response

abbrev BackendWorld := World Db Event

/-- Registered users and nothing else: no photo, no block, nobody at work. -/
def launch (users : Table User.id) : Backend := System.initial (Db.empty users)

end Dalm
