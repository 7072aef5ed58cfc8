import Dalm.Home
import Dalm.Postcards

/-! HomeRepository: the lists of a user's moments and the detail of a match, with the
permission to send a postcard they show. -/
namespace Dalm.HomeRepository
open Relational Txn

inductive PostcardPermission where
  | blocked
  | canSend
  | waitingForFirst
  | waitingForReply
deriving DecidableEq

def resolvePostcardPermission (blocked userIsFirstSender : Bool) (lastSenderId : Option UUID)
    (userId : UUID) : PostcardPermission :=
  if blocked then .blocked
  else
    match lastSenderId with
    | none => if userIsFirstSender then .canSend else .waitingForFirst
    | some last => if last = userId then .waitingForReply else .canSend

/-- `(registered_at, id) <= (registered_at, id)` of two photos, as Python compares tuples. -/
def registeredFirst (mine partner : Photo) : Bool :=
  if mine.registeredAt = partner.registeredAt then mine.id ≤ partner.id
  else mine.registeredAt < partner.registeredAt

/-- The rows of an outer join: a row without a partner is kept once. -/
def outer {β : Type} (rows : List β) : List (Option β) := if rows.isEmpty then [none] else rows.map some

/-- One row of the joins of `list_moments`, with the two subqueries. -/
structure MomentColumns where
  photo : Photo
  participant : Option MatchParticipant
  partnerPhoto : Option Photo
  match_ : Option Match
  blocked : Bool
  lastSenderId : Option UUID
deriving DecidableEq

def partners (userId matchId : UUID) (db : Db) : List MatchParticipant :=
  db.participants.rows.filter fun row => row.matchId = matchId ∧ row.userId ≠ userId

def momentColumns (userId : UUID) (db : Db) (photo : Photo) : List MomentColumns := do
  let participant ← outer (db.participants.rows.filter fun row =>
    row.photoId = photo.id ∧ row.userId = userId)
  let partner ← outer (match participant with
    | none => []
    | some participant => partners userId participant.matchId db)
  return {
    photo := photo
    participant := participant
    partnerPhoto := partner.bind fun partner => db.photos.get? partner.photoId
    match_ := participant.bind fun participant => db.matches_.get? participant.matchId
    blocked := partner.any fun partner => db.blockedBetween userId partner.userId
    lastSenderId := participant.bind fun participant =>
      PostcardRepository.lastSender participant.matchId db}

/-- The `status` of a list of moments. -/
inductive MomentFilter where
  | all
  | hidden
  | status (wanted : PhotoStatus)
deriving DecidableEq

def MomentFilter.accepts (row : MomentColumns) : MomentFilter → Bool
  | .all => row.participant.bind MatchParticipant.hiddenAt = none
  | .hidden => (row.participant.bind MatchParticipant.hiddenAt).isSome
  | .status wanted => row.photo.status = wanted ∧
      row.participant.bind MatchParticipant.hiddenAt = none

/-- What a request for moments chooses, but for the page. -/
structure MomentQuery where
  userId : UUID
  filter : MomentFilter
  today : Date
  excludeToday : Bool
deriving DecidableEq

/-- The rows that match, `registered_at DESC, id DESC`. -/
def momentRows (chosen : MomentQuery) (cursor : Option Cursor) (db : Db) : List MomentColumns :=
  ((db.photos.rows.filter fun photo => photo.userId = chosen.userId ∧ photo.deletedAt = none ∧
    (chosen.excludeToday → photo.registeredDate ≠ chosen.today) ∧
    precedes cursor photo.registeredAt photo.id).insertionSort registeredLater).flatMap
      fun photo => (momentColumns chosen.userId db photo).filter fun row => chosen.filter.accepts row

structure MomentRow where
  photoId : UUID
  imageUrl : String
  aiTitle : Option String
  status : PhotoStatus
  registeredAt : Time
  searchExpiresAt : Option Time
  matchId : Option UUID
  matchedAt : Option Time
  hidden : Bool
  postcardPermission : Option PostcardPermission
deriving DecidableEq

/-- The comparison of the two photos fails where the partner's is missing. -/
def momentPermission (userId : UUID) (row : MomentColumns) : Except Exc (Option PostcardPermission) :=
  if row.photo.status = .matched ∧ row.participant.isSome then
    match row.partnerPhoto with
    | none => .error .typeError
    | some partnerPhoto => .ok (some (resolvePostcardPermission row.blocked
        (registeredFirst row.photo partnerPhoto) row.lastSenderId userId))
  else .ok none

def momentRow (userId : UUID) (row : MomentColumns) : Except Exc MomentRow := do
  let permission ← momentPermission userId row
  return {
    photoId := row.photo.id
    imageUrl := row.photo.imageUrl
    aiTitle := row.photo.aiTitle
    status := row.photo.status
    registeredAt := row.photo.registeredAt
    searchExpiresAt := row.photo.searchExpiresAt
    matchId := row.participant.map MatchParticipant.matchId
    matchedAt := row.match_.map Match.matchedAt
    hidden := (row.participant.bind MatchParticipant.hiddenAt).isSome
    postcardPermission := permission}

/-- One row more than the page shows. -/
def listMoments (chosen : MomentQuery) (size : Nat) (cursor : Option Cursor) : App (List MomentRow) := do
  let rows ← query fun db => (momentRows chosen cursor db).take (size + 1)
  match rows.mapM (momentRow chosen.userId) with
  | .ok rows => return rows
  | .error error => throw error

structure MatchDetailRow where
  matchId : UUID
  myPhotoId : UUID
  myImageUrl : String
  myRegisteredAt : Time
  myDeleted : Bool
  partnerPhotoId : UUID
  partnerImageUrl : String
  partnerRegisteredAt : Time
  partnerDeleted : Bool
  partnerId : UUID
  partnerNickname : String
  explanation : List Char
  matchedAt : Time
  hidden : Bool
  postcardPermission : PostcardPermission
deriving DecidableEq

/-- `nickname or "알 수 없는 사용자"`. -/
def shownNickname (nickname : Option String) : String :=
  match nickname with
  | none => "알 수 없는 사용자"
  | some name => if name = "" then "알 수 없는 사용자" else name

/-- The joins of `get_match_detail`. -/
def matchDetails (userId matchId : UUID) (db : Db) : List MatchDetailRow := do
  let match_ ← (db.matches_.get? matchId).toList
  let mine ← (db.participants.get? (match_.id,userId)).toList
  let partner ← partners userId match_.id db
  let myPhoto ← (db.photos.get? mine.photoId).toList
  let partnerPhoto ← (db.photos.get? partner.photoId).toList
  let partnerUser ← (db.users.get? partner.userId).toList
  return {
    matchId := match_.id
    myPhotoId := myPhoto.id
    myImageUrl := myPhoto.imageUrl
    myRegisteredAt := myPhoto.registeredAt
    myDeleted := myPhoto.deletedAt.isSome
    partnerPhotoId := partnerPhoto.id
    partnerImageUrl := partnerPhoto.imageUrl
    partnerRegisteredAt := partnerPhoto.registeredAt
    partnerDeleted := partnerPhoto.deletedAt.isSome
    partnerId := partnerUser.id
    partnerNickname := shownNickname partnerUser.nickname
    explanation := match_.explanation
    matchedAt := match_.matchedAt
    hidden := mine.hiddenAt.isSome
    postcardPermission := resolvePostcardPermission (db.blockedBetween userId partner.userId)
      (registeredFirst myPhoto partnerPhoto) (PostcardRepository.lastSender match_.id db) userId}

def getMatchDetail (userId matchId : UUID) : App (Option MatchDetailRow) := do
  let rows ← query (matchDetails userId matchId)
  match rows with
  | [] => return none
  | [row] => return some row
  | _ => throw .multipleResultsFound

structure MomentCounts where
  searching : Nat
  matched : Nat
  expired : Nat
deriving DecidableEq

/-- The statuses of the rows that are counted. -/
def countedStatuses (userId : UUID) (today : Date) (excludeToday : Bool) (db : Db) : List PhotoStatus := do
  let photo ← db.photos.rows.filter fun photo => photo.userId = userId ∧ photo.deletedAt = none ∧
    (excludeToday → photo.registeredDate ≠ today)
  let participant ← outer (db.participants.rows.filter fun row =>
    row.photoId = photo.id ∧ row.userId = userId)
  if participant.bind MatchParticipant.hiddenAt = none then [photo.status] else []

def countMoments (userId : UUID) (today : Date) (excludeToday : Bool) : App MomentCounts := do
  let statuses ← query (countedStatuses userId today excludeToday)
  return ⟨statuses.count .searching,statuses.count .matched,statuses.count .expired⟩

/-- UPDATE of a participant's own columns. -/
def updateParticipant (matchId userId : UUID) (assign : MatchParticipant → MatchParticipant)
    (keeps : ∀ row, ((assign row).matchId,(assign row).userId) = (row.matchId,row.userId)) (db : Db) : Db :=
  {db with participants := db.participants.modify (fun key => key = (matchId,userId)) assign keeps}

def updateMatchVisibility (userId matchId : UUID) (hidden : Bool) : App (Option Bool) := do
  let participant ← query fun db => db.participants.get? (matchId,userId)
  match participant with
  | none => return none
  | some participant =>
    let clock ← supply
    let hiddenAt := if hidden then some clock.now else none
    -- A column that is set to what it was is not written.
    if hiddenAt = participant.hiddenAt then
      return some hidden
    else
      let _ ← lockParticipant matchId userId
      let _ ← commitOr .integrityError fun _ db =>
        some (updateParticipant matchId userId (fun row => {row with hiddenAt := hiddenAt}) (fun _ => rfl) db,[])
      return some hidden

def markMatchViewed (userId matchId : UUID) : App (Option Time) := do
  let participant ← query fun db => db.participants.get? (matchId,userId)
  match participant with
  | none => return none
  | some participant =>
    match participant.viewedAt with
    | some viewedAt => return some viewedAt
    | none =>
      let clock ← supply
      let _ ← lockParticipant matchId userId
      let _ ← commitOr .integrityError fun _ db =>
        some (updateParticipant matchId userId (fun row => {row with viewedAt := some clock.now})
          (fun _ => rfl) db,[])
      return some clock.now

end Dalm.HomeRepository
