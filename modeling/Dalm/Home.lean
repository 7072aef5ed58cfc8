import Dalm.PhotoValidation

/-! HomeRepository: registering, finding and deleting photos. -/
namespace Dalm
open Relational Txn

namespace HomeRepository

def accountNotActive : Exc :=
  .api ⟨403,.accountNotActive,"활성 상태의 사용자만 사진을 등록할 수 있습니다."⟩

def onboardingRequired : Exc := .api ⟨409,.onboardingRequired,"온보딩을 먼저 완료해주세요."⟩

def todayPhotoAlreadyExists : Exc :=
  .api ⟨409,.todayPhotoAlreadyExists,"오늘 등록한 사진이 이미 있습니다."⟩

def duplicatePhoto : Exc := .api ⟨409,.duplicatePhoto,"이미 등록한 사진입니다."⟩

def photoConflict : Exc :=
  .api ⟨409,.photoConflict,"사진을 등록할 수 없습니다. 다시 확인해주세요."⟩

def photoNotFound : Exc := .api ⟨404,.photoNotFound,"사진을 찾을 수 없습니다."⟩

def photoNotOwned : Exc := .api ⟨403,.photoNotOwned,"본인의 사진만 삭제할 수 있습니다."⟩

def photoAccessDenied : Exc := .api ⟨403,.photoAccessDenied,"사진에 접근할 권한이 없습니다."⟩

def notDeletable (status : PhotoStatus) : Exc :=
  .api ⟨409,if status = .matched then .photoAlreadyMatched else .photoDeleteNotAllowed,
    "현재 상태에서는 사진을 삭제할 수 없습니다."⟩

def isStale (userId : UUID) (now : Time) (photo : Photo) : Bool :=
  photo.userId = userId ∧ photo.status = .validating ∧ photo.registeredAt ≤ now - minutes 15

def timeOut (photo : Photo) : Photo :=
  {photo with
    status := .rejected
    rejectionCode := some "VALIDATION_TIMEOUT"
    rejectionMessage := some "사진 확인이 지연됐습니다. 다시 등록해주세요."}

/-- Whether a row was updated, and so committed. -/
def expireStaleValidations (userId : UUID) : App Bool := do
  let clock ← supply
  let stale ← query fun db => (db.photos.rows.filter (isStale userId clock.now)).map Photo.id
  let rows ← lockPhotos (isStale userId clock.now) (arrange clock.order stale)
  if rows = [] then
    return false
  else
    let _ ← commitOr .integrityError fun _ db =>
      some (db.updatePhotos (fun id => rows.any fun row => row.1 = id) timeOut,
        [.validationsTimedOut (rows.map Sigma.fst)])
    return true

def registeredLater (first second : Photo) : Prop :=
  second.registeredAt < first.registeredAt ∨
    (first.registeredAt = second.registeredAt ∧ second.id ≤ first.id)

instance : DecidableRel registeredLater := fun _ _ => inferInstanceAs (Decidable (_ ∨ _))

def getTodayPhoto (userId : UUID) (today : Date) : App (Option Photo) := do
  let _ ← expireStaleValidations userId
  query fun db => ((db.photos.rows.filter fun photo =>
    photo.userId = userId ∧ photo.registeredDate = today ∧ photo.status ≠ .deleted).insertionSort
      registeredLater).head?

def getPhoto (photoId : UUID) : App (Option Photo) := query fun db => db.photos.get? photoId

structure PhotoArguments where
  photoId : UUID
  userId : UUID
  imageUrl : String
  storageKey : String
  checksum : String
  registeredDate : Date
deriving DecidableEq

def isHistorical (userId : UUID) (checksum : String) (photo : Photo) : Bool :=
  photo.userId = userId ∧ photo.checksum = some checksum ∧
    (photo.status = .rejected ∨ photo.status = .deleted)

def isDuplicate (userId : UUID) (checksum : String) (photo : Photo) : Bool :=
  photo.userId = userId ∧ photo.checksum = some checksum ∧
    ¬ (photo.status = .rejected ∨ photo.status = .deleted)

def isActiveOn (userId : UUID) (date : Date) (photo : Photo) : Bool :=
  photo.userId = userId ∧ photo.registeredDate = date ∧ Db.isActive photo.status

def newPhoto (arguments : PhotoArguments) (mockPassed : Bool) (now : Time) : Photo where
  id := arguments.photoId
  userId := arguments.userId
  imageUrl := arguments.imageUrl
  storageKey := some arguments.storageKey
  checksum := some arguments.checksum
  status := if mockPassed then .searching else .validating
  registeredDate := arguments.registeredDate
  registeredAt := now
  searchExpiresAt := if mockPassed then some (now + days 7) else none
  rejectionCode := none
  rejectionMessage := none
  deletedAt := none

def newValidation (id photoId : UUID) (start : Time) : PhotoValidation :=
  ⟨⟨id,photoId,.pending,0,none,none,none,none,none,none,start⟩,none,none,none,none,none⟩

def mockValidation (id photoId : UUID) (now start : Time) : PhotoValidation :=
  ⟨⟨id,photoId,.passed,1,none,none,none,none,none,some now,start⟩,none,none,
    some "dalm-mock-validator",some "1",some 0⟩

/-- The checksums released by a registration. -/
def released (db : Db) (cleared : List UUID) : Db :=
  db.updatePhotos (fun id => cleared.contains id) fun row => {row with checksum := none}

def createWrites (arguments : PhotoArguments) (mockPassed : Bool) (cleared : List UUID)
    (start now : Time) (ids : Input) (db : Db) : Option (Db × List Event) := do
  let db := released db cleared
  let db ← db.insertPhoto (newPhoto arguments mockPassed now)
  if mockPassed then
    let db ← db.insertValidation (mockValidation (ids.uuid 0) arguments.photoId now start)
    let db ← db.insertEmbeddingJob
      (PhotoValidationRepository.newEmbeddingJob (ids.uuid 1) arguments.photoId start)
    let db ← db.insertNotification
      (notification (ids.uuid 2) arguments.userId .validationPassed arguments.photoId start)
    return (db,[.photoCreated arguments.photoId (ids.uuid 0) (some (ids.uuid 1))])
  else
    let db ← db.insertValidation (newValidation (ids.uuid 0) arguments.photoId start)
    return (db,[.photoCreated arguments.photoId (ids.uuid 0) none])

/-- The rows `scalar_one_or_none` answers for. -/
def atMostOne (ids : List UUID) (taken : Exc) (rest : App Photo) : App Photo :=
  match ids with
  | [] => rest
  | [_] => throw taken
  | _ => throw .multipleResultsFound

/-- From the UPDATE that releases the checksum on. -/
def registerPhoto (arguments : PhotoArguments) (mockPassed : Bool) (start : Time) : App Photo := do
  let order ← supply
  let historical ← query fun db =>
    (db.photos.rows.filter (isHistorical arguments.userId arguments.checksum)).map Photo.id
  let cleared ← lockPhotos (isHistorical arguments.userId arguments.checksum)
    (arrange order.order historical)
  let duplicates ← query fun db =>
    (db.photos.rows.filter (isDuplicate arguments.userId arguments.checksum)).map Photo.id
  atMostOne duplicates duplicatePhoto do
    let clock ← supply
    let _ ← commitOr photoConflict
      (createWrites arguments mockPassed (cleared.map Sigma.fst) start clock.now)
    let refreshed ← query fun db => db.photos.get? arguments.photoId
    match refreshed with
    | none => throw .noResultFound
    | some photo => return photo

def createPhoto (arguments : PhotoArguments) (mockPassed : Bool) : App Photo := do
  let clock ← supply
  let user ← query fun db => db.users.get? arguments.userId
  match user.filter (fun user => user.status = .active) with
  | none => throw accountNotActive
  | some user =>
    if user.onboardingRequired then
      throw onboardingRequired
    else
      let committed ← expireStaleValidations arguments.userId
      let reopened ← supply
      let actives ← query fun db =>
        (db.photos.rows.filter (isActiveOn arguments.userId arguments.registeredDate)).map Photo.id
      atMostOne actives todayPhotoAlreadyExists
        (registerPhoto arguments mockPassed (if committed then reopened.now else clock.now))

/-- The matches in which the photo takes part and the viewer does. -/
def sharedMatches (userId photoId : UUID) (db : Db) : List UUID :=
  (db.participants.rows.filter fun target => target.photoId = photoId).flatMap fun target =>
    (db.participants.rows.filter fun viewer =>
      viewer.matchId = target.matchId ∧ viewer.userId = userId).map fun _ => target.matchId

def canAccessPhoto (userId photoId : UUID) : App Bool := do
  let owned ← query fun db => (db.photos.get? photoId).filter fun photo =>
    photo.userId = userId ∧ photo.deletedAt = none
  if owned.isSome then
    return true
  else
    let sharedMatch ← query fun db => (sharedMatches userId photoId db).head?
    return sharedMatch.isSome

def isDeletable (status : PhotoStatus) : Bool :=
  status = .validating ∨ status = .rejected ∨ status = .searching ∨ status = .expired

def deletePhoto (userId photoId : UUID) : App Unit := do
  let found ← lockPhoto photoId
  match found.filter (fun photo => photo.status ≠ .deleted) with
  | none => throw photoNotFound
  | some photo =>
    if photo.userId ≠ userId then
      throw photoNotOwned
    else if ¬ isDeletable photo.status then
      throw (notDeletable photo.status)
    else
      let clock ← supply
      let _ ← commitOr .integrityError fun _ db =>
        some (db.updatePhoto photoId fun row =>
            {row with status := .deleted,deletedAt := some clock.now},
          [.photoDeleted photoId])
      return ()

end HomeRepository

/-- The storage key of the image whose URL is signed. -/
def getPhotoImage (userId photoId : UUID) : App String := do
  let photo ← HomeRepository.getPhoto photoId
  match photo.filter fun photo => photo.deletedAt = none with
  | none => throw HomeRepository.photoNotFound
  | some photo =>
    match photo.storageKey with
    | none => throw HomeRepository.photoNotFound
    | some storageKey =>
      if ← HomeRepository.canAccessPhoto userId photoId then
        return storageKey
      else throw HomeRepository.photoAccessDenied

end Dalm
