import Dalm.App

/-! SafetyRepository and ReportRepository.create. -/
namespace Dalm
open Relational Txn

def userExists (db : Db) (id : UUID) : Bool :=
  (db.users.get? id).any fun user => user.status ≠ .withdrawn

namespace SafetyRepository

def cannotBlockSelf : Exc := .api ⟨409,.cannotBlockSelf,"본인은 차단할 수 없습니다."⟩

def userNotFound : Exc := .api ⟨404,.userNotFound,"사용자를 찾을 수 없습니다."⟩

def userAlreadyBlocked : Exc := .api ⟨409,.userAlreadyBlocked,"이미 차단한 사용자입니다."⟩

def blockWrites (blockerId blockedId : UUID) (start : Time) (db : Db) :
    Option (Db × List Event) := do
  let db ← db.insertBlock ⟨blockerId,blockedId,start⟩
  return (db,[.blocked blockerId blockedId])

def block (blockerId blockedId : UUID) : App Unit := do
  if blockerId = blockedId then
    throw cannotBlockSelf
  else
    let start ← supply
    let target ← query fun db => userExists db blockedId
    if ¬ target then
      throw userNotFound
    else
      let _ ← commitOr userAlreadyBlocked fun _ db => blockWrites blockerId blockedId start.now db
      return ()

def unblock (blockerId blockedId : UUID) : App Unit := do
  let _ ← commitOr .integrityError fun _ db =>
    some (db.deleteBlock blockerId blockedId,[.unblocked blockerId blockedId])
  return ()

end SafetyRepository

namespace ReportRepository

def cannotReportSelf : Exc := .api ⟨422,.cannotReportSelf,"본인은 신고할 수 없습니다."⟩

def postcardReportNotAvailable : Exc :=
  .api ⟨422,.postcardReportNotAvailable,"엽서 기능이 준비된 후 엽서를 신고할 수 있습니다."⟩

def reportTargetNotFound : Exc := .api ⟨404,.reportTargetNotFound,"신고 대상을 찾을 수 없습니다."⟩

def reportAlreadyExists : Exc := .api ⟨409,.reportAlreadyExists,"이미 접수한 신고입니다."⟩

structure Arguments where
  reporterId : UUID
  targetType : ReportTarget
  targetId : UUID
  reasonCode : String
  detail : Option String
deriving DecidableEq

def newReport (arguments : Arguments) (id : UUID) (start : Time) : Report :=
  ⟨id,arguments.reporterId,arguments.targetType,arguments.targetId,arguments.reasonCode,
    arguments.detail,start⟩

def reportUserWrites (arguments : Arguments) (report : Report) (alreadyBlocked : Bool)
    (start : Time) (db : Db) : Option (Db × List Event) := do
  let reported : Event := .reported arguments.reporterId arguments.targetType arguments.targetId
  let db ← db.insertReport report
  if alreadyBlocked then
    return (db,[reported])
  else
    let db ← db.insertBlock ⟨arguments.reporterId,arguments.targetId,start⟩
    return (db,[reported,.blocked arguments.reporterId arguments.targetId])

def reportPhotoWrites (arguments : Arguments) (report : Report)
    (participant : Option MatchParticipant) (now : Time) (db : Db) :
    Option (Db × List Event) := do
  let reported : Event := .reported arguments.reporterId arguments.targetType arguments.targetId
  let db ← db.insertReport report
  match participant with
  | none => return (db,[reported])
  | some row => return (db.hideParticipant row.matchId row.userId now,[reported])

/-- The reporter's own row in the match the photo is in. -/
def ownParticipant (reporterId photoId : UUID) (db : Db) : Option MatchParticipant :=
  db.participants.rows.find? fun own =>
    own.userId = reporterId ∧
      db.participants.rows.any fun target => target.matchId = own.matchId ∧ target.photoId = photoId

/-- The next query flushes the INSERT of the report, so a second report of the same
target fails there, outside of the `try` around the commit. -/
def flushReport (arguments : Arguments) (report : Report) : App Unit := do
  let _ ← selectForUpdate
    (RowKey.reportEntry arguments.reporterId arguments.targetType arguments.targetId)
  let flushed ← query fun db => (db.insertReport report).isSome
  if flushed then return () else throw .integrityError

def createForUser (arguments : Arguments) : App Unit := do
  if arguments.targetId = arguments.reporterId then
    throw cannotReportSelf
  else
    let start ← supply
    let target ← query fun db => userExists db arguments.targetId
    if ¬ target then
      throw reportTargetNotFound
    else
      let report := newReport arguments (start.uuid 0) start.now
      flushReport arguments report
      let already ← query fun db => (db.blocks.get? (arguments.reporterId,arguments.targetId)).isSome
      let _ ← commitOr reportAlreadyExists fun _ db =>
        reportUserWrites arguments report already start.now db
      return ()

def createForPhoto (arguments : Arguments) : App Unit := do
  let start ← supply
  let target ← query fun db =>
    (db.photos.get? arguments.targetId).any fun photo => photo.deletedAt = none
  if ¬ target then
    throw reportTargetNotFound
  else
    let report := newReport arguments (start.uuid 0) start.now
    flushReport arguments report
    let participant ← query (ownParticipant arguments.reporterId arguments.targetId)
    match participant with
    | none =>
      let _ ← commitOr reportAlreadyExists fun _ db =>
        reportPhotoWrites arguments report none start.now db
      return ()
    | some row =>
      let clock ← supply
      let _ ← lockParticipant row.matchId row.userId
      let _ ← commitOr reportAlreadyExists fun _ db =>
        reportPhotoWrites arguments report (some row) clock.now db
      return ()

def create (arguments : Arguments) : App Unit :=
  match arguments.targetType with
  | .user => createForUser arguments
  | .photo => createForPhoto arguments
  | .postcard => throw postcardReportNotAvailable

end ReportRepository
end Dalm
