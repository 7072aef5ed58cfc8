import Dalm.Cursors
import Dalm.Notifications
import Dalm.Today

/-! The lists a user reads page by page: his moments, blocks, notifications and postcards. -/
namespace Dalm
open Relational Txn Codec

/-- What a timestamp of a row is to Python: the driver makes an aware datetime of it and takes
the same instant back from it. `others` are the ISO forms that `isoformat` does not write. -/
structure Timestamps where
  datetime : Time → Option DateTime
  timestamp : DateTime → Option Time
  others : List Char → Option DateTime
  exact : ∀ instant value, datetime instant = some value → value.isAware ∧ timestamp value = some instant

structure PageSize where
  value : Nat
  bounded : 1 ≤ value ∧ value ≤ 50
deriving DecidableEq

structure Paged (α : Type) where
  items : List α
  nextCursor : Option (List Char)
  hasNext : Bool

/-- What a request raises ends it. -/
def orRaise {α : Type} : Except Exc α → App α
  | .ok value => return value
  | .error error => throw error

namespace Timestamps
variable {ρ : Type} (service : Timestamps)

/-- `decode_cursor`, and the driver's argument for the timestamp. -/
def decode (cursor : Option (List Char)) : Except Exc (Option Cursor) :=
  match decodeCursor service.others cursor with
  | .error error => .error error
  | .ok none => .ok none
  | .ok (some (value,id)) =>
    match service.timestamp value with
    | none => .error .overflowError
    | some instant => .ok (some (instant,id))

def encode (place : Cursor) : Except Exc (List Char) :=
  match service.datetime place.1 with
  | none => .error .overflowError
  | some value => .ok (encodeCursor value place.2)

/-- The page of the rows that were fetched, and the cursor of the next one. -/
def paginate (place : ρ → Cursor) (size : PageSize) (rows : List ρ) : Except Exc (Paged ρ) :=
  let page := rows.take size.value
  if size.value < rows.length then
    match page.getLast? with
    | none => .ok ⟨page,none,true⟩
    | some row => (service.encode (place row)).map fun text => ⟨page,some text,true⟩
  else .ok ⟨page,none,false⟩

end Timestamps

namespace SafetyRepository

def createdLater (first second : Block) : Prop :=
  second.createdAt < first.createdAt ∨
    (first.createdAt = second.createdAt ∧ second.blockedId ≤ first.blockedId)

instance : DecidableRel createdLater := fun _ _ => inferInstanceAs (Decidable (_ ∨ _))

end SafetyRepository

structure MomentPhoto where
  photoId : UUID
  imageUrl : String
  aiTitle : Option String
  status : PhotoStatus
  registeredAt : Time
  searchExpiresAt : Option Time
  remainingDays : Option Int
  matchId : Option UUID
  matchedAt : Option Time
  hidden : Bool
  postcardPermission : Option HomeRepository.PostcardPermission
deriving DecidableEq

structure MomentListData extends Paged MomentPhoto where
  searchingCount : Nat
  matchedCount : Nat
  expiredCount : Nat

structure PublicUser where
  id : UUID
  nickname : String
  profileImageUrl : Option String
deriving DecidableEq

structure BlockedUser where
  user : PublicUser
  blockedAt : Time
deriving DecidableEq

structure NotificationData where
  id : UUID
  type : NotificationType
  title : String
  message : String
  targetType : NotificationTarget
  targetId : UUID
  isRead : Bool
  createdAt : Time
deriving DecidableEq

section places

def MomentPhoto.place (item : MomentPhoto) : Cursor := (item.registeredAt,item.photoId)

def BlockedUser.place (item : BlockedUser) : Cursor := (item.blockedAt,item.user.id)

def NotificationData.place (item : NotificationData) : Cursor := (item.createdAt,item.id)

def PostcardRepository.PostcardData.place (item : PostcardRepository.PostcardData) : Cursor :=
  (item.sentAt,item.id)

end places

def momentPhoto (row : HomeRepository.MomentRow) : App MomentPhoto := do
  let remaining ← if row.status = .searching then do
      let clock ← supply
      pure (remainingDays row.searchExpiresAt clock.now)
    else pure none
  return {
    photoId := row.photoId
    imageUrl := row.imageUrl
    aiTitle := row.aiTitle
    status := row.status
    registeredAt := row.registeredAt
    searchExpiresAt := row.searchExpiresAt
    remainingDays := remaining
    matchId := row.matchId
    matchedAt := row.matchedAt
    hidden := row.hidden
    postcardPermission := row.postcardPermission}

namespace Endpoint

/-- GET /v1/moments -/
def listMoments (service : Timestamps) (seoulDate : Time → Date) (userId : UUID)
    (filter : HomeRepository.MomentFilter) (excludeToday : Bool) (size : PageSize)
    (cursor : Option (List Char)) : App MomentListData := do
  let clock ← supply
  let today := seoulDate clock.now
  let cursor ← orRaise (service.decode cursor)
  let photos ← HomeRepository.listMoments ⟨userId,filter,today,excludeToday⟩ size.value cursor
  let counts ← HomeRepository.countMoments userId today excludeToday
  let page ← orRaise (service.paginate (fun row => (row.registeredAt,row.photoId)) size photos)
  let items ← page.items.mapM momentPhoto
  return ⟨⟨items,page.nextCursor,page.hasNext⟩,counts.searching,counts.matched,counts.expired⟩

end Endpoint
end Dalm
