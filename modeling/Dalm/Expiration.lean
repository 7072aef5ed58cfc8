import Dalm.App

/-! SqlExpirationStore.expire_due. -/
namespace Dalm.SqlExpirationStore
open Relational Txn

def isDue (now : Time) (photo : Photo) : Bool :=
  photo.status = .searching ∧ photo.searchExpiresAt.any (· ≤ now) ∧ photo.deletedAt = none

def expireWrites (rows : List ((_ : UUID) × Photo)) (start : Time) (ids : Input) (db : Db) :
    Option (Db × List Event) := do
  let db := db.updatePhotos (fun id => rows.any fun row => row.1 = id)
    fun row => {row with status := .expired}
  let db ← rows.zipIdx.foldlM (fun db (row,k) =>
    db.insertNotification (notification (ids.uuid k) row.2.userId .searchExpired row.2.id start)) db
  return (db,[.photosExpired (rows.map Sigma.fst)])

def expireDue (now : Time) : App (List UUID) := do
  let start ← supply
  let due ← query fun db => (db.photos.rows.filter (isDue now)).map Photo.id
  let rows ← lockPhotos (isDue now) (arrange start.order due)
  let _ ← commitOr .integrityError (expireWrites rows start.now)
  return rows.map fun row => row.2.id

end Dalm.SqlExpirationStore
