import Dalm.App
import Mathlib.Data.List.Sort

/-! NotificationRepository: the list of a user's notifications, and reading them. -/
namespace Dalm.NotificationRepository
open Relational Txn

def notificationNotFound : Exc := .api ⟨404,.notificationNotFound,"알림을 찾을 수 없습니다."⟩

def createdLater (first second : Notification) : Prop :=
  second.createdAt < first.createdAt ∨ (first.createdAt = second.createdAt ∧ second.id ≤ first.id)

instance : DecidableRel createdLater := fun _ _ => inferInstanceAs (Decidable (_ ∨ _))

/-- The rows that match, `created_at DESC, id DESC`. -/
def notificationRows (userId : UUID) (unreadOnly : Bool) (cursor : Option Cursor) (db : Db) :
    List Notification :=
  (db.notifications.rows.filter fun row => row.userId = userId ∧ row.deletedAt = none ∧
    (unreadOnly → row.readAt = none) ∧ precedes cursor row.createdAt row.id).insertionSort createdLater

/-- One row more than the page shows, and the number of the unread. -/
def list (userId : UUID) (unreadOnly : Bool) (size : Nat) (cursor : Option Cursor) :
    App (List Notification × Nat) := do
  let items ← query fun db => (notificationRows userId unreadOnly cursor db).take (size + 1)
  let unreadCount ← query fun db => (notificationRows userId true none db).length
  return (items,unreadCount)

/-- UPDATE of `read_at`. -/
def readWrites (chosen : UUID → Bool) (now : Time) (db : Db) : Db :=
  {db with
    notifications := db.notifications.modify chosen (fun row => {row with readAt := some now})
      (fun _ => rfl)}

/-- No statement of the service locks a notification before it writes it. -/
def markRead (userId notificationId : UUID) : App Notification := do
  let found ← query fun db => (db.notifications.get? notificationId).filter fun row =>
    row.userId = userId ∧ row.deletedAt = none
  match found with
  | none => throw notificationNotFound
  | some row =>
    if row.readAt = none then
      let clock ← supply
      let _ ← commitOr .integrityError fun _ db =>
        some (readWrites (fun id => id = notificationId) clock.now db,[])
      return {row with readAt := some clock.now}
    else
      return row

def markAllRead (userId : UUID) : App Unit := do
  let clock ← supply
  let _ ← commitOr .integrityError fun _ db =>
    let unread := (db.notifications.rows.filter fun row => row.userId = userId ∧ row.deletedAt = none ∧
      row.readAt = none).map Notification.id
    some (readWrites (fun id => unread.contains id) clock.now db,[])
  return ()

end Dalm.NotificationRepository
