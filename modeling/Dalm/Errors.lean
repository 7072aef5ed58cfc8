import Dalm.Models

/-! The errors the service answers with, and the exceptions of the database layer that
reach it. -/
namespace Dalm

inductive ErrorCode where
  | authenticationRequired
  | authenticationFailed
  | invalidAccessToken
  | accessTokenExpired
  | refreshTokenExpired
  | accountRestricted
  | accountWithdrawn
  | onboardingAlreadyCompleted
  | nicknameConflict
  | accountNotActive
  | onboardingRequired
  | todayPhotoAlreadyExists
  | duplicatePhoto
  | photoConflict
  | photoNotFound
  | photoNotOwned
  | photoAccessDenied
  | photoAlreadyMatched
  | photoDeleteNotAllowed
  | photoNotSearching
  | photoNotValidating
  | validationJobNotFound
  | validationAlreadyCompleted
  | validationLeaseLost
  | validationNotProcessing
  | embeddingJobNotFound
  | embeddingAlreadyCompleted
  | embeddingLeaseLost
  | matchPhotoNotFound
  | sameUserMatch
  | samePhotoMatch
  | matchCandidateChanged
  | searchPeriodExpired
  | matchExplanationRequired
  | userBlocked
  | matchNotFound
  | postcardOrderNotAllowed
  | postcardReplyNotReceived
  | postcardAlreadySent
  | postcardNotFound
  | cannotBlockSelf
  | userNotFound
  | userAlreadyBlocked
  | cannotReportSelf
  | reportTargetNotFound
  | reportAlreadyExists
  | postcardReportNotAvailable
  | invalidPostcardContent
  | notificationNotFound
  | invalidCursor
deriving DecidableEq

structure ApiError where
  statusCode : Nat
  code : ErrorCode
  message : String
deriving DecidableEq

/-- What a repository call raises. The last four are SQLAlchemy's refusal to reload an
expired attribute outside of an awaited call, an error of Redis, Python's refusal to
order a value and None, and that of a datetime to leave the years 1 to 9999. -/
inductive Exc where
  | api (error : ApiError)
  | integrityError
  | noResultFound
  | multipleResultsFound
  | valueError
  | missingGreenlet
  | responseError
  | typeError
  | overflowError
deriving DecidableEq

def Exc.code : Exc → Option ErrorCode
  | .api error => some error.code
  | _ => none

end Dalm
