import Dalm.Home
import Dalm.Uuid

/-! POST /v1/photos: the object is stored, the photo is registered, and the object is
deleted again where that failed. -/
namespace Dalm
open Relational

/-- A processed upload, the id drawn for its photo, and whether it passes at once. -/
structure PhotoUpload where
  photoId : UUID
  userId : UUID
  checksum : String
  registeredDate : Date
  mockPassed : Bool
deriving DecidableEq

namespace PhotoUpload

/-- `photos/{user_id}/{photo_id}/original.webp` -/
def keyOf (userId photoId : UUID) : String :=
  String.ofList ("photos/".toList ++ userId.str ++ '/' :: photoId.str ++ "/original.webp".toList)

def storageKey (upload : PhotoUpload) : String := keyOf upload.userId upload.photoId

def arguments (upload : PhotoUpload) : HomeRepository.PhotoArguments where
  photoId := upload.photoId
  userId := upload.userId
  imageUrl := String.ofList ("/v1/photos/".toList ++ upload.photoId.str ++ "/image".toList)
  storageKey := upload.storageKey
  checksum := upload.checksum
  registeredDate := upload.registeredDate

end PhotoUpload

/-- The keys that hold an object. -/
abbrev Objects := List String

/-- The calls of the object storage that fail. -/
structure StorageFaults where
  upload : Option Exc
  delete : Option Exc
deriving DecidableEq

structure CreatePhotoData where
  photoId : UUID
  status : PhotoStatus
  registeredAt : Time
deriving DecidableEq

/-- The endpoint around its call of the repository, which came to `created`: its response
and what it left in the storage. -/
def createPhotoEndpoint (upload : PhotoUpload) (faults : StorageFaults)
    (created : Except Exc Photo) (objects : Objects) : Except Exc CreatePhotoData × Objects :=
  match faults.upload with
  | some error => (.error error,objects)
  | none =>
    let stored := upload.storageKey :: objects
    match created with
    | .ok photo =>
      (.ok ⟨upload.photoId,if upload.mockPassed then .searching else .validating,
        photo.registeredAt⟩,stored)
    | .error error =>
      match faults.delete with
      | some _ => (.error error,stored)
      | none => (.error error,stored.filter fun key => key ≠ upload.storageKey)

/-- The key tells whose photo it is and which. -/
theorem PhotoUpload.keyOf_inj {userId userId' photoId photoId' : UUID} (same : PhotoUpload.keyOf userId photoId = PhotoUpload.keyOf userId' photoId') :
    userId = userId' ∧ photoId = photoId' := by
  have chars := String.ofList_injective same
  have split : ∀ {front a b a' b' back : List Char}, a.length = a'.length →
      front ++ a ++ '/' :: b ++ back = front ++ a' ++ '/' :: b' ++ back → a = a' ∧ b = b' := by
    intro front a b a' b' back length equal
    rw [List.append_assoc,List.append_assoc,List.append_assoc,List.append_assoc] at equal
    obtain ⟨one,two⟩ := List.append_inj (List.append_cancel_left equal) length
    exact ⟨one,List.append_cancel_right (List.cons.inj two).2⟩
  obtain ⟨user,photo⟩ := split ((UUID.length_str userId).trans (UUID.length_str userId').symm) chars
  exact ⟨UUID.str_injective user,UUID.str_injective photo⟩

end Dalm
