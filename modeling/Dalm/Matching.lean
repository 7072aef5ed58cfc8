import Dalm.App
import Mathlib.Data.List.Sort

/-! SqlMatchFinalizationStore.finalize and finalize_match. -/
namespace Dalm
open Relational Txn

def attempt {α : Type} (program : App α) : App (Except Exc α) :=
  tryCatch (do
    let value ← program
    return .ok value) fun error => return .error error

namespace SqlMatchFinalizationStore

def photoNotFound : Exc := .api ⟨404,.matchPhotoNotFound,"매칭할 사진을 찾을 수 없습니다."⟩

def sameUser : Exc := .api ⟨409,.sameUserMatch,"같은 사용자의 사진은 매칭할 수 없습니다."⟩

def candidateChanged : Exc :=
  .api ⟨409,.matchCandidateChanged,"사진이 더 이상 매칭 대기 상태가 아닙니다."⟩

def periodExpired : Exc :=
  .api ⟨409,.searchPeriodExpired,"사진의 탐색 기간이 종료되었습니다."⟩

def userBlocked : Exc := .api ⟨409,.userBlocked,"차단 관계의 사용자는 매칭할 수 없습니다."⟩

def orderedIds (first second : UUID) : List UUID :=
  (if first = second then [first] else [first,second]).insertionSort (· ≤ ·)

def isOver (now : Time) (photo : Photo) : Bool := photo.searchExpiresAt.all (· ≤ now)

def finalizeWrites (first second : Photo) (explanation : List Char) (now start : Time)
    (ids : Input) (db : Db) : Option (Db × List Event) := do
  let matchId := ids.uuid 0
  let db ← db.insertMatch ⟨matchId,explanation,start⟩
  let db ← db.insertParticipant ⟨matchId,first.userId,first.id,none,none⟩
  let db ← db.insertParticipant ⟨matchId,second.userId,second.id,none,none⟩
  let db := db.updatePhotos (fun id => id = first.id ∨ id = second.id)
    fun row => {row with status := .matched}
  let db ← db.insertNotification (notification (ids.uuid 1) first.userId .matched matchId start)
  let db ← db.insertNotification (notification (ids.uuid 2) second.userId .matched matchId start)
  return (db,[.matched matchId first.id second.id now])

/-- The transaction was opened at `opened`, or opens here. -/
def finalizeBody (firstPhotoId secondPhotoId : UUID) (explanation : List Char) (now : Time)
    (opened : Option Time) : App UUID := do
  let clock ← supply
  let start := opened.getD clock.now
  let present ← query fun db =>
    (orderedIds firstPhotoId secondPhotoId).filter fun id => (db.photos.get? id).isSome
  let photos ← lockPhotos (fun _ => true) present
  match photos with
  | [⟨_,first⟩,⟨_,second⟩] =>
    if first.userId = second.userId then
      throw sameUser
    else if first.status ≠ .searching ∨ second.status ≠ .searching then
      throw candidateChanged
    else if isOver now first ∨ isOver now second then
      throw periodExpired
    else
      let blocked ← observe
        (fun db => .blocksChecked first.userId second.userId
          (db.blockedBetween first.userId second.userId))
        (fun db => db.blockedBetween first.userId second.userId)
      if blocked then
        throw userBlocked
      else
        let ids ← commitOr .integrityError (finalizeWrites first second explanation now start)
        return ids.uuid 0
  | _ => throw photoNotFound

def finalize (firstPhotoId secondPhotoId : UUID) (explanation : List Char) (now : Time)
    (opened : Option Time) : App UUID :=
  tryCatch (finalizeBody firstPhotoId secondPhotoId explanation now opened) fun error => do
    undo
    throw error

end SqlMatchFinalizationStore

def samePhotoMatch : Exc := .api ⟨409,.samePhotoMatch,"같은 사진끼리는 매칭할 수 없습니다."⟩

def explanationRequired : Exc :=
  .api ⟨422,.matchExplanationRequired,"매칭 설명이 필요합니다."⟩

def finalizeMatch (firstPhotoId secondPhotoId : UUID) (explanation : List Char)
    (now opened : Option Time) : App UUID := do
  if firstPhotoId = secondPhotoId then
    throw samePhotoMatch
  else if strip explanation = [] then
    throw explanationRequired
  else
    let clock ← supply
    if firstPhotoId.str ≤ secondPhotoId.str then
      SqlMatchFinalizationStore.finalize firstPhotoId secondPhotoId (strip explanation)
        (now.getD clock.now) opened
    else
      SqlMatchFinalizationStore.finalize secondPhotoId firstPhotoId (strip explanation)
        (now.getD clock.now) opened

end Dalm
