import Dalm.Errors
import Dalm.Relational.Table
import Dalm.Relational.System

/-! The tables with the constraints of the migrations, the rows that can be locked, and
the history the service leaves. An insert that breaks a constraint answers `none`. -/
namespace Dalm
open Relational

structure Db where
  users : Table User.id
  terms : Table (fun t : UserTerm => (t.userId,t.termType,t.termVersion))
  photos : Table Photo.id
  validations : Table (fun v : PhotoValidation => v.id)
  embeddingJobs : Table (fun j : PhotoEmbeddingJob => j.id)
  embeddings : Table PhotoEmbedding.photoId
  matches_ : Table Match.id
  participants : Table (fun p : MatchParticipant => (p.matchId,p.userId))
  blocks : Table (fun b : Block => (b.blockerId,b.blockedId))
  reports : Table Report.id
  notifications : Table Notification.id
  postcards : Table Postcard.id

def Db.empty (users : Table User.id) : Db :=
  ⟨users,.empty,.empty,.empty,.empty,.empty,.empty,.empty,.empty,.empty,.empty,.empty⟩

/-- The two work queues. -/
inductive Queue where
  | validation
  | embedding
deriving DecidableEq

/-- Rows, and the entries of the unique index of reports: an INSERT of an entry waits
for an uncommitted INSERT of the same one. -/
inductive RowKey where
  | photo (id : UUID)
  | job (queue : Queue) (id : UUID)
  | participant (matchId userId : UUID)
  | postcard (id : UUID)
  | reportEntry (reporterId : UUID) (targetType : ReportTarget) (targetId : UUID)
deriving DecidableEq

namespace Db

def job? (db : Db) (queue : Queue) (id : UUID) : Option Job :=
  match queue with
  | .validation => (db.validations.get? id).map PhotoValidation.toJob
  | .embedding => db.embeddingJobs.get? id

def jobs (db : Db) (queue : Queue) : List Job :=
  match queue with
  | .validation => db.validations.rows.map PhotoValidation.toJob
  | .embedding => db.embeddingJobs.rows

end Db

instance : Lockable Db RowKey where
  Row
    | .photo _ => Photo
    | .job _ _ => Job
    | .participant _ _ => MatchParticipant
    | .postcard _ => Postcard
    | .reportEntry _ _ _ => Unit
  view
    | .photo id,db => db.photos.get? id
    | .job queue id,db => db.job? queue id
    | .participant matchId userId,db => db.participants.get? (matchId,userId)
    | .postcard id,db => db.postcards.get? id
    | .reportEntry _ _ _,_ => some ()

/-- Gives a definitional equality of keys the type it is stated with. -/
theorem idKept {first second : UUID} (same : first = second) : first = second := same

namespace Db

section updates
variable (db : Db)

def updatePhotos (chosen : UUID → Bool) (assign : Photo → Photo)
    (keeps : ∀ row, (assign row).id = row.id := by exact fun _ => Dalm.idKept rfl) : Db :=
  {db with photos := db.photos.modify chosen assign keeps}

def updatePhoto (id : UUID) (assign : Photo → Photo)
    (keeps : ∀ row, (assign row).id = row.id := by exact fun _ => Dalm.idKept rfl) : Db :=
  db.updatePhotos (fun other => other = id) assign keeps

def updateValidation (id : UUID) (assign : PhotoValidation → PhotoValidation)
    (keeps : ∀ row, (assign row).id = row.id := by exact fun _ => Dalm.idKept rfl) : Db :=
  {db with validations := db.validations.modify (fun other => other = id) assign keeps}

/-- UPDATE of the columns the job tables share. -/
def updateJob (queue : Queue) (id : UUID) (assign : Job → Job)
    (keeps : ∀ row, (assign row).id = row.id := by exact fun _ => Dalm.idKept rfl) : Db :=
  match queue with
  | .validation => db.updateValidation id
      (fun row => {row with toJob := assign row.toJob}) (fun row => keeps row.toJob)
  | .embedding => {db with
      embeddingJobs := db.embeddingJobs.modify (fun other => other = id) assign keeps}

def updatePostcard (id : UUID) (assign : Postcard → Postcard)
    (keeps : ∀ row, (assign row).id = row.id := by exact fun _ => Dalm.idKept rfl) : Db :=
  {db with postcards := db.postcards.modify (fun other => other = id) assign keeps}

def hideParticipant (matchId userId : UUID) (at_ : Time) : Db :=
  {db with
    participants := db.participants.modify (fun other => other = (matchId,userId))
      (fun row => {row with hiddenAt := some at_}) (fun _ => rfl)}

def deleteBlock (blockerId blockedId : UUID) : Db :=
  {db with blocks := db.blocks.erase (fun other => other = (blockerId,blockedId))}

end updates

def isActive (status : PhotoStatus) : Bool :=
  status = .validating ∨ status = .searching ∨ status = .matched ∨ status = .expired

/-- The unique constraints and the partial unique index of photos. -/
def photosCompatible (row other : Photo) : Bool :=
  (row.storageKey = none ∨ row.storageKey ≠ other.storageKey) ∧
  (row.checksum = none ∨ (row.userId,row.checksum) ≠ (other.userId,other.checksum)) ∧
  (!isActive row.status ∨ !isActive other.status ∨
    (row.userId,row.registeredDate) ≠ (other.userId,other.registeredDate))

section inserts
variable (db : Db)

def insertPhoto (row : Photo) : Option Db :=
  if (db.users.get? row.userId).isSome ∧ db.photos.rows.all (photosCompatible row) then
    (db.photos.insert? row).map fun t => {db with photos := t}
  else none

def insertValidation (row : PhotoValidation) : Option Db :=
  if (db.photos.get? row.photoId).isSome ∧
      db.validations.rows.all (fun other => row.photoId ≠ other.photoId) then
    (db.validations.insert? row).map fun t => {db with validations := t}
  else none

def insertEmbeddingJob (row : PhotoEmbeddingJob) : Option Db :=
  if (db.photos.get? row.photoId).isSome ∧
      db.embeddingJobs.rows.all (fun other => row.photoId ≠ other.photoId) then
    (db.embeddingJobs.insert? row).map fun t => {db with embeddingJobs := t}
  else none

/-- INSERT ... ON CONFLICT (photo_id) DO UPDATE of every column but created_at. -/
def upsertEmbedding (row : PhotoEmbedding) : Option Db :=
  if (db.photos.get? row.photoId).isSome then
    if fresh : db.embeddings.get? row.photoId = none then
      some {db with embeddings := db.embeddings.insert row fresh}
    else
      some {db with
        embeddings := db.embeddings.modify (fun other => other = row.photoId)
          (fun old => {old with data := row.data}) (fun _ => rfl)}
  else none

def insertMatch (row : Match) : Option Db :=
  (db.matches_.insert? row).map fun t => {db with matches_ := t}

def insertParticipant (row : MatchParticipant) : Option Db :=
  if (db.matches_.get? row.matchId).isSome ∧ (db.users.get? row.userId).isSome ∧
      (db.photos.get? row.photoId).isSome ∧
      db.participants.rows.all (fun other => row.photoId ≠ other.photoId) then
    (db.participants.insert? row).map fun t => {db with participants := t}
  else none

def insertBlock (row : Block) : Option Db :=
  if (db.users.get? row.blockerId).isSome ∧ (db.users.get? row.blockedId).isSome ∧
      row.blockerId ≠ row.blockedId then
    (db.blocks.insert? row).map fun t => {db with blocks := t}
  else none

def insertReport (row : Report) : Option Db :=
  if (db.users.get? row.reporterId).isSome ∧ db.reports.rows.all (fun other =>
      (row.reporterId,row.targetType,row.targetId) ≠
        (other.reporterId,other.targetType,other.targetId)) then
    (db.reports.insert? row).map fun t => {db with reports := t}
  else none

def insertNotification (row : Notification) : Option Db :=
  if (db.users.get? row.userId).isSome then
    (db.notifications.insert? row).map fun t => {db with notifications := t}
  else none

/-- `length(trim(content)) BETWEEN 1 AND 200`; PostgreSQL trims blanks only. -/
def contentAllowed (content : List Char) : Bool :=
  let trimmed := ((content.dropWhile (· = ' ')).reverse.dropWhile (· = ' ')).reverse
  1 ≤ trimmed.length ∧ trimmed.length ≤ 200

def insertPostcard (row : Postcard) : Option Db :=
  if (db.matches_.get? row.matchId).isSome ∧ (db.users.get? row.senderId).isSome ∧
      (db.users.get? row.receiverId).isSome ∧ row.senderId ≠ row.receiverId ∧
      contentAllowed row.content ∧ db.postcards.rows.all (fun other =>
        row.idempotencyKey = none ∨
          (row.senderId,row.idempotencyKey) ≠ (other.senderId,other.idempotencyKey)) then
    (db.postcards.insert? row).map fun t => {db with postcards := t}
  else none

end inserts

/-- The block checks select a row in either direction. -/
def blockedBetween (db : Db) (first second : UUID) : Bool :=
  db.blocks.rows.any fun block =>
    (block.blockerId = first ∧ block.blockedId = second) ∨
      (block.blockerId = second ∧ block.blockedId = first)

end Db
end Dalm
