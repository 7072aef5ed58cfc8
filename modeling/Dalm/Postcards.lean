import Dalm.App
import Mathlib.Data.List.Sort

/-! PostcardRepository: sending, reading and deleting postcards. -/
namespace Dalm.PostcardRepository
open Relational Txn

def matchNotFound : Exc := .api ⟨404,.matchNotFound,"매칭을 찾을 수 없습니다."⟩

def userBlocked : Exc := .api ⟨409,.userBlocked,"차단 관계에서는 엽서를 보낼 수 없습니다."⟩

def orderNotAllowed : Exc := .api ⟨409,.postcardOrderNotAllowed,"첫 엽서를 기다리고 있습니다."⟩

def replyNotReceived : Exc :=
  .api ⟨409,.postcardReplyNotReceived,"상대의 답 엽서를 기다리고 있습니다."⟩

def alreadySent : Exc := .api ⟨409,.postcardAlreadySent,"이미 엽서를 보냈습니다."⟩

def postcardNotFound : Exc := .api ⟨404,.postcardNotFound,"엽서를 찾을 수 없습니다."⟩

structure PostcardRow where
  id : UUID
  matchId : UUID
  senderId : UUID
  senderNickname : Option String
  receiverId : UUID
  receiverNickname : Option String
  content : List Char
  readAt : Option Time
  sentAt : Time
  momentThumbnailUrl : String
deriving DecidableEq

/-- `_row_query` joined for one postcard. -/
def rowOf (db : Db) (userId : UUID) (postcard : Postcard) : Option PostcardRow := do
  let sender ← db.users.get? postcard.senderId
  let receiver ← db.users.get? postcard.receiverId
  let participant ← db.participants.get? (postcard.matchId,userId)
  let photo ← db.photos.get? participant.photoId
  return ⟨postcard.id,postcard.matchId,postcard.senderId,sender.nickname,postcard.receiverId,
    receiver.nickname,postcard.content,postcard.readAt,postcard.sentAt,photo.imageUrl⟩

theorem rowOf_eq_some {db : Db} {userId : UUID} {card : Postcard} {row : PostcardRow} :
    rowOf db userId card = some row ↔ ∃ sender receiver participant photo,
      db.users.get? card.senderId = some sender ∧ db.users.get? card.receiverId = some receiver ∧
      db.participants.get? (card.matchId,userId) = some participant ∧
      db.photos.get? participant.photoId = some photo ∧
      row = ⟨card.id,card.matchId,card.senderId,sender.nickname,card.receiverId,receiver.nickname,
        card.content,card.readAt,card.sentAt,photo.imageUrl⟩ := by
  constructor
  · intro joined
    obtain ⟨sender,one,joined⟩ := Option.bind_eq_some_iff.mp joined
    obtain ⟨receiver,two,joined⟩ := Option.bind_eq_some_iff.mp joined
    obtain ⟨participant,seat,joined⟩ := Option.bind_eq_some_iff.mp joined
    obtain ⟨photo,image,joined⟩ := Option.bind_eq_some_iff.mp joined
    exact ⟨sender,receiver,participant,photo,one,two,seat,image,(Option.some.inj joined).symm⟩
  · rintro ⟨sender,receiver,participant,photo,one,two,seat,image,rfl⟩
    simp [rowOf,one,two,seat,image]

def isVisible (userId : UUID) (postcard : Postcard) : Bool :=
  (postcard.senderId = userId ∧ postcard.senderDeletedAt = none) ∨
    (postcard.receiverId = userId ∧ postcard.receiverDeletedAt = none)

/-- The two lists of a user's postcards. -/
inductive Mailbox where
  | received
  | sent
deriving DecidableEq

def Mailbox.owner : Mailbox → Postcard → UUID
  | .received => Postcard.receiverId
  | .sent => Postcard.senderId

def Mailbox.deletedAt : Mailbox → Postcard → Option Time
  | .received => Postcard.receiverDeletedAt
  | .sent => Postcard.senderDeletedAt

def sentLater (first second : Postcard) : Prop :=
  second.sentAt < first.sentAt ∨ (first.sentAt = second.sentAt ∧ second.id ≤ first.id)

instance : DecidableRel sentLater := fun _ _ => inferInstanceAs (Decidable (_ ∨ _))

/-- The rows of a mailbox that match, `sent_at DESC, id DESC`. -/
def mailboxRows (userId : UUID) (mailbox : Mailbox) (cursor : Option Cursor) (db : Db) :
    List PostcardRow :=
  ((db.postcards.rows.filter fun card => mailbox.owner card = userId ∧
    mailbox.deletedAt card = none ∧ precedes cursor card.sentAt card.id).insertionSort
    sentLater).filterMap (rowOf db userId)

/-- One row more than the page shows. -/
def list (userId : UUID) (mailbox : Mailbox) (size : Nat) (cursor : Option Cursor) :
    App (List PostcardRow) :=
  query fun db => (mailboxRows userId mailbox cursor db).take (size + 1)

def get (userId postcardId : UUID) : App PostcardRow := do
  let row ← query fun db =>
    ((db.postcards.get? postcardId).filter (isVisible userId)).bind (rowOf db userId)
  match row with
  | none => throw postcardNotFound
  | some row => return row

def registeredBefore (first second : MatchParticipant × Photo) : Prop :=
  first.2.registeredAt < second.2.registeredAt ∨
    (first.2.registeredAt = second.2.registeredAt ∧ first.2.id ≤ second.2.id)

instance : DecidableRel registeredBefore := fun _ _ => inferInstanceAs (Decidable (_ ∨ _))

/-- The participants of a match with their photos, by registration. -/
def participantsOf (matchId : UUID) (db : Db) : List (MatchParticipant × Photo) :=
  ((db.participants.rows.filter fun row => row.matchId = matchId).filterMap
    fun row => (db.photos.get? row.photoId).map fun photo => (row,photo)).insertionSort
    registeredBefore

/-- FOR UPDATE over the join locks the rows of both tables. -/
def lockParticipants : List (MatchParticipant × Photo) → App (List (MatchParticipant × Photo))
  | [] => return []
  | (row,_) :: rest => do
    let participant ← lockParticipant row.matchId row.userId
    let photo ← lockPhoto row.photoId
    let others ← lockParticipants rest
    match participant,photo with
    | some participant,some photo => return (participant,photo) :: others
    | _,_ => return others

/-- `ORDER BY sent_at DESC, id DESC LIMIT 1`. -/
def lastSender (matchId : UUID) (db : Db) : Option UUID :=
  (((db.postcards.rows.filter fun row => row.matchId = matchId).insertionSort sentLater).head?).map
    Postcard.senderId

structure Draft where
  userId : UUID
  matchId : UUID
  content : List Char
  idempotencyKey : Option UUID
deriving DecidableEq

def sendWrites (draft : Draft) (receiverId : UUID) (start : Time) (ids : Input) (db : Db) :
    Option (Db × List Event) := do
  let db ← db.insertPostcard ⟨ids.uuid 0,draft.matchId,draft.userId,receiverId,draft.content,
    draft.idempotencyKey,none,start,none,none⟩
  let db ← db.insertNotification
    (notification (ids.uuid 1) receiverId .postcardReceived (ids.uuid 0) start)
  return (db,[.sent draft.matchId (ids.uuid 0) draft.userId])

/-- The first two participants, where there are exactly two and the user is one. -/
def parties (userId : UUID) : List (MatchParticipant × Photo) → Option (UUID × UUID)
  | [(first,_),(second,_)] =>
    if userId = first.userId then some (first.userId,second.userId)
    else if userId = second.userId then some (first.userId,first.userId)
    else none
  | _ => none

def deliver (draft : Draft) (start : Time) : App PostcardRow := do
  let listed ← query (participantsOf draft.matchId)
  let rows ← lockParticipants listed
  match parties draft.userId rows with
  | none => throw matchNotFound
  | some (firstId,receiverId) =>
    let blocked ← query fun db => db.blockedBetween draft.userId receiverId
    if blocked then
      throw userBlocked
    else
      let last ← query (lastSender draft.matchId)
      if last = none ∧ draft.userId ≠ firstId then
        throw orderNotAllowed
      else if last = some draft.userId then
        throw replyNotReceived
      else
        let ids ← commitOr alreadySent (sendWrites draft receiverId start)
        get draft.userId (ids.uuid 0)

/-- The transaction starts at the first statement: the idempotency lookup with a key,
the locking SELECT without. -/
def send (draft : Draft) : App PostcardRow := do
  let start ← supply
  match draft.idempotencyKey with
  | none => deliver draft start.now
  | some key =>
    let existing ← query fun db => (db.postcards.rows.find? fun row =>
      row.senderId = draft.userId ∧ row.idempotencyKey = some key).map Postcard.id
    match existing with
    | some id => get draft.userId id
    | none => deliver draft start.now

def markRead (userId postcardId : UUID) : App PostcardRow := do
  let found ← query fun db => db.postcards.get? postcardId
  match found.filter (fun row => row.receiverId = userId ∧ row.receiverDeletedAt = none) with
  | none => throw postcardNotFound
  | some postcard =>
    if postcard.readAt = none then
      let clock ← supply
      let _ ← lockPostcard postcardId
      let _ ← commitOr .integrityError fun _ db =>
        some (db.updatePostcard postcardId fun row => {row with readAt := some clock.now},
          [.postcardRead postcardId])
      get userId postcardId
    else
      get userId postcardId

/-- The side whose copy a delete removes. -/
inductive Side where
  | sender
  | receiver
deriving DecidableEq

def sideOf (userId : UUID) (postcard : Postcard) : Option Side :=
  if postcard.senderId = userId ∧ postcard.senderDeletedAt = none then some .sender
  else if postcard.receiverId = userId ∧ postcard.receiverDeletedAt = none then some .receiver
  else none

def deleteSide (db : Db) (postcardId : UUID) (now : Time) : Side → Db
  | .sender => db.updatePostcard postcardId fun row => {row with senderDeletedAt := some now}
  | .receiver => db.updatePostcard postcardId fun row => {row with receiverDeletedAt := some now}

def delete (userId postcardId : UUID) : App Unit := do
  let found ← query fun db => db.postcards.get? postcardId
  match found.bind (sideOf userId) with
  | none => throw postcardNotFound
  | some side =>
    let clock ← supply
    let _ ← lockPostcard postcardId
    let _ ← commitOr .integrityError fun _ db =>
      some (deleteSide db postcardId clock.now side,[.postcardDeleted postcardId])
    return ()

structure SendPostcardRequest where
  content : List Char
  bounded : 1 ≤ content.length ∧ content.length ≤ 200

/-- The content the endpoint hands on. -/
def SendPostcardRequest.stripped (request : SendPostcardRequest) : Except Exc (List Char) :=
  let content := strip request.content
  if content = [] then
    .error (.api ⟨422,.invalidPostcardContent,"엽서 내용을 입력해주세요."⟩)
  else .ok content

structure PostcardUser where
  id : UUID
  nickname : String
  profileImageUrl : Option String := none
deriving DecidableEq

structure PostcardData where
  id : UUID
  matchId : UUID
  sender : PostcardUser
  receiver : PostcardUser
  content : List Char
  isRead : Bool
  readAt : Option Time
  sentAt : Time
  momentThumbnailUrl : String
deriving DecidableEq

/-- The response model of a row; `none` is the ValidationError of a user without a nickname. -/
def postcardData (row : PostcardRow) : Option PostcardData := do
  let sender ← row.senderNickname
  let receiver ← row.receiverNickname
  return ⟨row.id,row.matchId,{id := row.senderId,nickname := sender},
    {id := row.receiverId,nickname := receiver},row.content,row.readAt.isSome,row.readAt,
    row.sentAt,row.momentThumbnailUrl⟩

end Dalm.PostcardRepository
