import Dalm.Moments

/-! What a user is shown of his day: the home screen and the photo of today, which both say
whether another photo may be registered. -/
namespace Dalm
open Relational Txn

namespace HomeRepository

/-- One row of the joins of the match cards. -/
structure CardColumns where
  match_ : Match
  mine : MatchParticipant
  photo : Photo
  partner : MatchParticipant
  partnerPhoto : Photo
deriving DecidableEq

def cardColumns (userId : UUID) (db : Db) : List CardColumns := do
  let mine ← db.participants.rows.filter fun row => row.userId = userId
  let match_ ← (db.matches_.get? mine.matchId).toList
  let photo ← (db.photos.get? mine.photoId).toList
  let partner ← partners userId match_.id db
  let partnerPhoto ← (db.photos.get? partner.photoId).toList
  return ⟨match_,mine,photo,partner,partnerPhoto⟩

/-- The explanation of the match takes the place of the title. -/
structure MatchCardRow where
  matchId : UUID
  myPhotoId : UUID
  myImageUrl : String
  partnerImageUrl : String
  aiTitle : List Char
  matchedAt : Time
deriving DecidableEq

def CardColumns.row (columns : CardColumns) : MatchCardRow :=
  ⟨columns.match_.id,columns.photo.id,columns.photo.imageUrl,columns.partnerPhoto.imageUrl,
    columns.match_.explanation,columns.match_.matchedAt⟩

def getMatchCardForPhoto (userId photoId : UUID) : App (Option MatchCardRow) := do
  let rows ← query fun db => (cardColumns userId db).filter fun row => row.mine.photoId = photoId
  match rows with
  | [] => return none
  | [row] => return some row.row
  | _ => throw .multipleResultsFound

def listSearchingPhotos (userId : UUID) (today : Date) (excludeToday : Bool) (size : Nat)
    (cursor : Option Cursor) : App (List Photo) :=
  query fun db => ((db.photos.rows.filter fun photo => photo.userId = userId ∧
    photo.status = .searching ∧ photo.deletedAt = none ∧
    (excludeToday → photo.registeredDate ≠ today) ∧
    precedes cursor photo.registeredAt photo.id).insertionSort registeredLater).take (size + 1)

def isUnviewed (userId : UUID) (today : Date) (db : Db) (row : CardColumns) : Bool :=
  row.mine.viewedAt = none ∧ row.mine.hiddenAt = none ∧ row.photo.registeredDate ≠ today ∧
    row.photo.deletedAt = none ∧ row.partnerPhoto.deletedAt = none ∧
    ¬ db.blockedBetween userId row.partner.userId ∧
    ¬ db.reports.rows.any fun report => report.reporterId = userId ∧
      ((report.targetType = .photo ∧ report.targetId = row.partner.photoId) ∨
        (report.targetType = .user ∧ report.targetId = row.partner.userId))

def matchedEarlier (first second : CardColumns) : Prop :=
  first.match_.matchedAt ≤ second.match_.matchedAt

instance : DecidableRel matchedEarlier := fun _ _ => inferInstanceAs (Decidable (_ ≤ _))

/-- The earliest match not looked at yet, and how many there are. -/
def getNextUnviewedMatch (userId : UUID) (today : Date) : App (Option MatchCardRow × Nat) := do
  let first ← query fun db =>
    (((cardColumns userId db).filter (isUnviewed userId today db)).insertionSort matchedEarlier).head?
  let count ← query fun db => ((cardColumns userId db).filter (isUnviewed userId today db)).length
  return (first.map CardColumns.row,count)

end HomeRepository

inductive HomeState where
  | empty
  | todayAvailableWithHistory
  | todaySearching
  | previousMatched
  | todayMatched
deriving DecidableEq

structure HomePhotoSummary where
  id : UUID
  imageUrl : String
  capturedAt : Time
  searchDay : Int
deriving DecidableEq

structure HomeMatchSummary where
  id : UUID
  photoId : UUID
  photoImageUrl : String
  matchedAt : Time
deriving DecidableEq

structure HomeData where
  date : Date
  state : HomeState
  canUploadToday : Bool
  todayPhoto : Option HomePhotoSummary
  searchingPhotos : List HomePhotoSummary
  newMatch : Option HomeMatchSummary
deriving DecidableEq

/-- Whole days left, rounded up, from 0 to 7. -/
def remainingDays (expiresAt : Option Time) (now : Time) : Option Int :=
  expiresAt.map fun expiresAt => min 7 (max 0 (-((now - expiresAt) / days 1)))

/-- `max(1, 8 - (remaining_days(...) or 7))` -/
def searchDay (expiresAt : Option Time) (now : Time) : Int :=
  max 1 (8 - match remainingDays expiresAt now with
    | none => 7
    | some remaining => if remaining = 0 then 7 else remaining)

def homeSummary (photo : Photo) : App HomePhotoSummary := do
  let clock ← supply
  return ⟨photo.id,photo.imageUrl,photo.registeredAt,searchDay photo.searchExpiresAt clock.now⟩

/-- The photo of today that takes the day. -/
def activeToday : Option Photo → App (Option HomePhotoSummary)
  | none => return none
  | some photo => do
    if photo.status = .rejected ∨ photo.status = .deleted then
      return none
    else if photo.status = .searching then
      return some (← homeSummary photo)
    else
      return some ⟨photo.id,photo.imageUrl,photo.registeredAt,1⟩

def homeState (todayPhoto : Option Photo) (newMatch : Option HomeMatchSummary)
    (searching : List HomePhotoSummary) : HomeState :=
  if todayPhoto.any fun photo => photo.status = .matched then .todayMatched
  else if todayPhoto.any fun photo => photo.status = .validating ∨ photo.status = .searching then
    .todaySearching
  else if newMatch.isSome then .previousMatched
  else if searching ≠ [] then .todayAvailableWithHistory
  else .empty

/-- `seoulDate` is the date of an instant in Asia/Seoul. -/
def getHome (seoulDate : Time → Date) (userId : UUID) : App HomeData := do
  let clock ← supply
  let today := seoulDate clock.now
  let todayPhoto ← HomeRepository.getTodayPhoto userId today
  let searching ← HomeRepository.listSearchingPhotos userId today true 3 none
  let unviewed ← HomeRepository.getNextUnviewedMatch userId today
  let active ← activeToday todayPhoto
  let summaries ← (searching.take 3).mapM homeSummary
  let newMatch := unviewed.1.map fun card =>
    (⟨card.matchId,card.myPhotoId,card.partnerImageUrl,card.matchedAt⟩ : HomeMatchSummary)
  return {
    date := today
    state := homeState todayPhoto newMatch summaries
    canUploadToday := todayPhoto.all fun photo => photo.status = .rejected ∨ photo.status = .deleted
    todayPhoto := active
    searchingPhotos := summaries
    newMatch := newMatch}

structure PhotoRejection where
  code : String
  message : String
deriving DecidableEq

/-- `value or default` of Python. -/
def orElse (value : Option String) (default_ : String) : String :=
  match value with
  | none => default_
  | some text => if text = "" then default_ else text

def PhotoRejection.fromPhotoStatus (photo : Photo) : Option PhotoRejection :=
  if photo.status = .rejected then
    some ⟨orElse photo.rejectionCode "VALIDATION_FAILED",
      orElse photo.rejectionMessage "사진을 확인하지 못했습니다. 잠시 후 다시 등록해주세요."⟩
  else none

structure TodayPhoto where
  id : UUID
  status : PhotoStatus
  imageUrl : String
  aiTitle : Option String
  registeredAt : Time
  searchExpiresAt : Option Time
  remainingDays : Option Int
  rejection : Option PhotoRejection
  matchId : Option UUID
  partnerImageUrl : Option String
  matchedAt : Option Time
deriving DecidableEq

structure TodayPhotoData where
  canRegister : Bool
  photo : Option TodayPhoto
deriving DecidableEq

/-- The card of a matched photo. -/
def matchCard (userId : UUID) (photo : Photo) : App (Option HomeRepository.MatchCardRow) :=
  if photo.status = .matched then HomeRepository.getMatchCardForPhoto userId photo.id
  else return none

/-- The days a searching photo has left. -/
def daysLeft (photo : Photo) : App (Option Int) :=
  if photo.status = .searching then do
    let clock ← supply
    return remainingDays photo.searchExpiresAt clock.now
  else return none

/-- GET /v1/photos/today -/
def getTodayPhoto (seoulDate : Time → Date) (userId : UUID) : App TodayPhotoData := do
  let clock ← supply
  match ← HomeRepository.getTodayPhoto userId (seoulDate clock.now) with
  | none => return ⟨true,none⟩
  | some photo => do
    let card ← matchCard userId photo
    let remaining ← daysLeft photo
    return ⟨photo.status = .rejected,some {
      id := photo.id
      status := photo.status
      imageUrl := photo.imageUrl
      aiTitle := photo.aiTitle
      registeredAt := photo.registeredAt
      searchExpiresAt := photo.searchExpiresAt
      remainingDays := remaining
      rejection := PhotoRejection.fromPhotoStatus photo
      matchId := card.map HomeRepository.MatchCardRow.matchId
      partnerImageUrl := card.map HomeRepository.MatchCardRow.partnerImageUrl
      matchedAt := card.map HomeRepository.MatchCardRow.matchedAt}⟩

end Dalm
