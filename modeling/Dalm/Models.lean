import Mathlib.Algebra.Ring.Int.Defs
import Mathlib.Algebra.Ring.Nat
import Mathlib.Data.Char
import Mathlib.Data.List.Lex
import Mathlib.Data.Rat.Defs
import Mathlib.Order.Fin.Basic

/-! Values and rows. Times are microseconds, as PostgreSQL and datetime keep them, and
dates are day numbers. Columns no modelled operation reads are left out. -/
namespace Dalm

instance UUID.neZero : NeZero (2 ^ 128 : Nat) := ⟨by decide⟩

abbrev UUID := Fin (2 ^ 128)

abbrev Time := Int

abbrev Date := Int

def seconds (n : Int) : Time := n * 1000000

def minutes (n : Int) : Time := seconds (n * 60)

def days (n : Int) : Time := seconds (n * 86400)

namespace UUID

def hexDigit (n : Nat) : Char := "0123456789abcdef".toList.getD n '0'

def hex (u : UUID) : List Char :=
  (List.range 32).map fun k => hexDigit (u.val / 16 ^ (31 - k) % 16)

/-- `str(uuid)`: hexadecimal digits in groups of 8, 4, 4, 4 and 12. -/
def str (u : UUID) : List Char :=
  u.hex.take 8 ++ '-' :: (u.hex.drop 8).take 4 ++ '-' :: (u.hex.drop 12).take 4 ++
    '-' :: (u.hex.drop 16).take 4 ++ '-' :: u.hex.drop 20

end UUID

inductive UserStatus where
  | active
  | restricted
  | withdrawn
deriving DecidableEq

inductive PhotoStatus where
  | validating
  | rejected
  | searching
  | matched
  | expired
  | deleted
deriving DecidableEq

/-- The statuses of both job tables: passed and rejected are a validation's, completed
an embedding job's. -/
inductive JobStatus where
  | pending
  | processing
  | passed
  | rejected
  | completed
  | failed
deriving DecidableEq

inductive NotificationType where
  | validationPassed
  | photoRejected
  | matched
  | postcardReceived
  | searchExpired
  | system
deriving DecidableEq

inductive NotificationTarget where
  | photo
  | match_
  | postcard
  | system
deriving DecidableEq

inductive ReportTarget where
  | user
  | photo
  | postcard
deriving DecidableEq

structure User where
  id : UUID
  kakaoId : Option String
  appleId : Option String
  nickname : Option String
  profileImageKey : Option String
  bio : Option String
  marketingAgreed : Bool
  status : UserStatus
  withdrawnAt : Option Time
deriving DecidableEq

def User.onboardingRequired (user : User) : Bool := user.nickname.isNone

structure UserTerm where
  userId : UUID
  termType : String
  termVersion : String
  agreed : Bool
deriving DecidableEq

structure Photo where
  id : UUID
  userId : UUID
  imageUrl : String
  storageKey : Option String
  checksum : Option String
  status : PhotoStatus
  registeredDate : Date
  registeredAt : Time
  searchExpiresAt : Option Time
  rejectionCode : Option String
  rejectionMessage : Option String
  deletedAt : Option Time
  /-- No operation of the service writes it. -/
  aiTitle : Option String := none
deriving DecidableEq

/-- The columns photo_validations and photo_embedding_jobs share. -/
structure Job where
  id : UUID
  photoId : UUID
  status : JobStatus
  attemptCount : Nat
  workerId : Option String
  errorCode : Option String
  errorMessage : Option String
  nextAttemptAt : Option Time
  startedAt : Option Time
  completedAt : Option Time
  createdAt : Time
deriving DecidableEq

structure PhotoValidation extends Job where
  scores : Option (List (String × ℚ))
  rejectionCode : Option String
  modelName : Option String
  modelVersion : Option String
  processingTimeMs : Option Nat
deriving DecidableEq

abbrev PhotoEmbeddingJob := Job

/-- `str.isspace` on the characters Python strips. -/
def isSpace (c : Char) : Bool :=
  (9 ≤ c.toNat && c.toNat ≤ 13) || (28 ≤ c.toNat && c.toNat ≤ 32) ||
    [0x85,0xa0,0x1680,0x2028,0x2029,0x202f,0x205f,0x3000].contains c.toNat ||
    (0x2000 ≤ c.toNat && c.toNat ≤ 0x200a)

def strip (text : List Char) : List Char :=
  ((text.dropWhile isSpace).reverse.dropWhile isSpace).reverse

/-- An embedding that passed `__post_init__`; its vectors are kept exactly. -/
structure PhotoEmbeddingData where
  scene : List ℚ
  objectAction : List ℚ
  composition : List ℚ
  color : List ℚ
  mood : List ℚ
  labels : List (String × List String)
  modelName : List Char
  modelVersion : List Char
  vectors : ∀ vector ∈ [scene,objectAction,composition,color,mood], vector ≠ []
  named : strip modelName ≠ [] ∧ strip modelVersion ≠ []
deriving DecidableEq

structure PhotoEmbedding where
  photoId : UUID
  data : PhotoEmbeddingData
  createdAt : Time
deriving DecidableEq

structure Match where
  id : UUID
  explanation : List Char
  matchedAt : Time
deriving DecidableEq

structure MatchParticipant where
  matchId : UUID
  userId : UUID
  photoId : UUID
  viewedAt : Option Time
  hiddenAt : Option Time
deriving DecidableEq

structure Block where
  blockerId : UUID
  blockedId : UUID
  createdAt : Time
deriving DecidableEq

structure Report where
  id : UUID
  reporterId : UUID
  targetType : ReportTarget
  targetId : UUID
  reasonCode : String
  detail : Option String
  createdAt : Time
deriving DecidableEq

structure Notification where
  id : UUID
  userId : UUID
  type : NotificationType
  title : String
  message : String
  targetType : NotificationTarget
  targetId : UUID
  readAt : Option Time
  deletedAt : Option Time
  createdAt : Time
deriving DecidableEq

structure Postcard where
  id : UUID
  matchId : UUID
  senderId : UUID
  receiverId : UUID
  content : List Char
  idempotencyKey : Option UUID
  readAt : Option Time
  sentAt : Time
  senderDeletedAt : Option Time
  receiverDeletedAt : Option Time
deriving DecidableEq

structure NotificationTemplate where
  title : String
  message : String
  targetType : NotificationTarget

def templates : NotificationType → NotificationTemplate
  | .validationPassed => ⟨"탐색을 시작했어요","오늘의 순간이 닮은 장면을 찾고 있어요.",.photo⟩
  | .photoRejected => ⟨"다른 사진이 필요해요","사진을 확인하고 새로운 순간을 등록해주세요.",.photo⟩
  | .matched => ⟨"닮은 순간을 발견했어요","당신과 나란한 순간을 확인해보세요.",.match_⟩
  | .postcardReceived => ⟨"엽서가 도착했어요","평행한 순간으로부터 온 메시지를 확인해보세요.",.postcard⟩
  | .searchExpired => ⟨"탐색이 끝났어요","7일간의 순간 탐색이 종료되었습니다.",.photo⟩
  | .system => ⟨"DALM 안내","새로운 운영 안내가 있습니다.",.system⟩

end Dalm
