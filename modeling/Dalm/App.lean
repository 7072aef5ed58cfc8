import Dalm.Database
import Dalm.Lease
import Dalm.Users

/-! What the environment supplies to a statement, what the service leaves in its
history, and the settings. -/
namespace Dalm
open Relational

/-- A clock reading, fresh identifiers in the order they are drawn, and the order in
which PostgreSQL meets the rows of a bulk UPDATE. -/
structure Input where
  now : Time
  uuid : Nat → UUID
  order : List UUID

inductive Event where
  | photoCreated (photo validation : UUID) (embeddingJob : Option UUID)
  | photoDeleted (photo : UUID)
  | photosExpired (photos : List UUID)
  | validationsTimedOut (photos : List UUID)
  | job (queue : Queue) (id : UUID) (event : Lease.Event String)
  | photoPassed (photo embeddingJob : UUID)
  | photoRejected (photo : UUID)
  | embeddingStored (photo : UUID)
  | sourceRead (photo : UUID) (available : Bool)
  | candidatesListed (photo : UUID) (total : Nat)
  | blocksChecked (first second : UUID) (found : Bool)
  | passedOver (photo candidate : UUID)
  | matched (id first second : UUID) (now : Time)
  | blocked (blocker blocked : UUID)
  | unblocked (blocker blocked : UUID)
  | reported (reporter : UUID) (targetType : ReportTarget) (target : UUID)
  | sent (matchId postcard sender : UUID)
  | postcardRead (postcard : UUID)
  | postcardDeleted (postcard : UUID)
  | account (event : UserEvent)
deriving DecidableEq

instance Db.hasUsers : HasUsers Db Input Event where
  registry db := ⟨db.users,db.terms⟩
  withRegistry db registry := {db with users := registry.users,terms := registry.terms}
  clock := Input.now
  drawn i := i.uuid 0
  told := .account

abbrev App (α : Type) := Txn Db RowKey Input Event Exc α

section statements
open Txn

abbrev lockPhoto (id : UUID) : App (Option Photo) := selectForUpdate (RowKey.photo id)

abbrev lockPhotos (cond : Photo → Bool) (ids : List UUID) : App (List ((_ : UUID) × Photo)) :=
  lockEach RowKey.photo (fun _ photo => cond photo) ids

abbrev lockJob (queue : Queue) (id : UUID) : App (Option Job) :=
  selectForUpdate (RowKey.job queue id)

abbrev skipLockedJob (queue : Queue) (cond : Job → Bool) (ids : List UUID) :
    App (Option ((_ : UUID) × Job)) :=
  firstUnlocked (RowKey.job queue) (fun _ job => cond job) ids

abbrev lockParticipant (matchId userId : UUID) : App (Option MatchParticipant) :=
  selectForUpdate (RowKey.participant matchId userId)

abbrev lockPostcard (id : UUID) : App (Option Postcard) := selectForUpdate (RowKey.postcard id)

end statements

structure Settings where
  validationMaxAttempts : Int
  validationRetryBaseSeconds : Int
  validationLeaseSeconds : Int
deriving DecidableEq

/-- The timestamp and the id of the last row of a page. -/
abbrev Cursor := Time × UUID

/-- The rows a list continues with: `at < cursor_at OR at = cursor_at AND id < cursor_id`. -/
def precedes (cursor : Option Cursor) (at_ : Time) (id : UUID) : Bool :=
  match cursor with
  | none => true
  | some (cursorAt,cursorId) => at_ < cursorAt ∨ (at_ = cursorAt ∧ id < cursorId)

/-- The listed rows in the order the input names them, where it names all of them. -/
def arrange (order ids : List UUID) : List UUID := if order.isPerm ids then order else ids

def notification (id userId : UUID) (type : NotificationType) (targetId : UUID) (now : Time) :
    Notification :=
  ⟨id,userId,type,(templates type).title,(templates type).message,(templates type).targetType,
    targetId,none,none,now⟩

end Dalm
