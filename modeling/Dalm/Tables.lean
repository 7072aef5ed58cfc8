import Dalm.App
import Mathlib.Tactic.Common

/-! What each write does to each table: every insert says which checks it passed, and
every update is read back row by row. -/
namespace Dalm.Db
open Relational
variable {db db' : Db}

section updates
variable {chosen : UUID → Bool} {id other : UUID} {queue : Queue}

@[simp] theorem photos_updatePhotos {assign : Photo → Photo} {keeps} (p : UUID) :
    (db.updatePhotos chosen assign keeps).photos.get? p =
      if chosen p then (db.photos.get? p).map assign else db.photos.get? p :=
  Table.get?_modify db.photos chosen assign keeps p

@[simp] theorem photos_updatePhoto {assign : Photo → Photo} {keeps} (p : UUID) :
    (db.updatePhoto id assign keeps).photos.get? p =
      if p = id then (db.photos.get? p).map assign else db.photos.get? p := by
  simp [updatePhoto]

@[simp] theorem users_updatePhoto {assign : Photo → Photo} {keeps} :
    (db.updatePhoto id assign keeps).users = db.users := rfl

@[simp] theorem validations_updateValidation {assign : PhotoValidation → PhotoValidation} {keeps}
    (v : UUID) : (db.updateValidation id assign keeps).validations.get? v =
      if v = id then (db.validations.get? v).map assign else db.validations.get? v := by
  simp [updateValidation,Table.get?_modify]

@[simp] theorem job?_updateJob {assign : Job → Job} {keeps} (q : Queue) (other : UUID) :
    (db.updateJob queue id assign keeps).job? q other =
      if q = queue ∧ other = id then (db.job? q other).map assign else db.job? q other := by
  rcases queue with _ | _ <;> rcases q with _ | _
  · rcases eq_or_ne other id with rfl | different
    · simp [updateJob,job?,Function.comp_def]
    · simp [updateJob,job?,different]
  · simp [updateJob,job?,updateValidation]
  · simp [updateJob,job?]
  · simp [updateJob,job?,Table.get?_modify]

@[simp] theorem job?_updateValidation {assign : PhotoValidation → PhotoValidation} {keeps}
    (q : Queue) (other : UUID) : (db.updateValidation id assign keeps).job? q other =
      if q = .validation ∧ other = id then
        (db.validations.get? other).map fun row => (assign row).toJob
      else db.job? q other := by
  rcases q with _ | _
  · rcases eq_or_ne other id with rfl | different
    · simp [job?,Function.comp_def]
    · simp [job?,different]
  · simp [job?,updateValidation]

section frames
variable {assign : Job → Job} {keeps : ∀ row, (assign row).id = row.id}

@[simp] theorem users_updateJob : (db.updateJob queue id assign keeps).users = db.users := by
  cases queue <;> rfl

@[simp] theorem photos_updateJob : (db.updateJob queue id assign keeps).photos = db.photos := by
  cases queue <;> rfl

@[simp] theorem embeddings_updateJob :
    (db.updateJob queue id assign keeps).embeddings = db.embeddings := by
  cases queue <;> rfl

@[simp] theorem matches_updateJob :
    (db.updateJob queue id assign keeps).matches_ = db.matches_ := by
  cases queue <;> rfl

@[simp] theorem participants_updateJob :
    (db.updateJob queue id assign keeps).participants = db.participants := by
  cases queue <;> rfl

@[simp] theorem blocks_updateJob : (db.updateJob queue id assign keeps).blocks = db.blocks := by
  cases queue <;> rfl

@[simp] theorem postcards_updateJob :
    (db.updateJob queue id assign keeps).postcards = db.postcards := by
  cases queue <;> rfl

@[simp] theorem reports_updateJob : (db.updateJob queue id assign keeps).reports = db.reports := by
  cases queue <;> rfl

@[simp] theorem notifications_updateJob :
    (db.updateJob queue id assign keeps).notifications = db.notifications := by
  cases queue <;> rfl

end frames
end updates

section inserts

theorem insertPhoto_eq_some {row : Photo} : db.insertPhoto row = some db' ↔
    ((db.users.get? row.userId).isSome ∧ db.photos.rows.all (photosCompatible row)) ∧
      ∃ fresh, db' = {db with photos := db.photos.insert row fresh} :=
  Table.insertWhen_eq_some

theorem insertValidation_eq_some {row : PhotoValidation} : db.insertValidation row = some db' ↔
    ((db.photos.get? row.photoId).isSome ∧
      db.validations.rows.all (fun other => row.photoId ≠ other.photoId)) ∧
      ∃ fresh, db' = {db with validations := db.validations.insert row fresh} :=
  Table.insertWhen_eq_some

theorem insertEmbeddingJob_eq_some {row : PhotoEmbeddingJob} :
    db.insertEmbeddingJob row = some db' ↔ ((db.photos.get? row.photoId).isSome ∧
      db.embeddingJobs.rows.all (fun other => row.photoId ≠ other.photoId)) ∧
      ∃ fresh, db' = {db with embeddingJobs := db.embeddingJobs.insert row fresh} :=
  Table.insertWhen_eq_some

theorem insertMatch_eq_some {row : Match} : db.insertMatch row = some db' ↔
    ∃ fresh, db' = {db with matches_ := db.matches_.insert row fresh} := by
  unfold insertMatch
  rw [Option.map_eq_some_iff]
  constructor
  · rintro ⟨table,inserted,rfl⟩
    obtain ⟨fresh,rfl⟩ := Table.insert?_eq_some.mp inserted
    exact ⟨fresh,rfl⟩
  · rintro ⟨fresh,rfl⟩
    exact ⟨_,Table.insert?_eq_some.mpr ⟨fresh,rfl⟩,rfl⟩

theorem insertParticipant_eq_some {row : MatchParticipant} :
    db.insertParticipant row = some db' ↔ ((db.matches_.get? row.matchId).isSome ∧
      (db.users.get? row.userId).isSome ∧ (db.photos.get? row.photoId).isSome ∧
      db.participants.rows.all (fun other => row.photoId ≠ other.photoId)) ∧
      ∃ fresh, db' = {db with participants := db.participants.insert row fresh} :=
  Table.insertWhen_eq_some

theorem insertBlock_eq_some {row : Block} : db.insertBlock row = some db' ↔
    ((db.users.get? row.blockerId).isSome ∧ (db.users.get? row.blockedId).isSome ∧
      row.blockerId ≠ row.blockedId) ∧
      ∃ fresh, db' = {db with blocks := db.blocks.insert row fresh} :=
  Table.insertWhen_eq_some

theorem insertReport_eq_some {row : Report} : db.insertReport row = some db' ↔
    ((db.users.get? row.reporterId).isSome ∧ db.reports.rows.all fun other =>
      (row.reporterId,row.targetType,row.targetId) ≠
        (other.reporterId,other.targetType,other.targetId)) ∧
      ∃ fresh, db' = {db with reports := db.reports.insert row fresh} :=
  Table.insertWhen_eq_some

theorem insertNotification_eq_some {row : Notification} :
    db.insertNotification row = some db' ↔ (db.users.get? row.userId).isSome ∧
      ∃ fresh, db' = {db with notifications := db.notifications.insert row fresh} :=
  Table.insertWhen_eq_some

theorem insertNotification_eq {row : Notification} (done : db.insertNotification row = some db') :
    ∃ notifications, db' = {db with notifications := notifications} := by
  obtain ⟨_,_,rfl⟩ := insertNotification_eq_some.mp done
  exact ⟨_,rfl⟩

theorem insertPostcard_eq_some {row : Postcard} : db.insertPostcard row = some db' ↔
    ((db.matches_.get? row.matchId).isSome ∧ (db.users.get? row.senderId).isSome ∧
      (db.users.get? row.receiverId).isSome ∧ row.senderId ≠ row.receiverId ∧
      contentAllowed row.content ∧ db.postcards.rows.all (fun other =>
        row.idempotencyKey = none ∨
          (row.senderId,row.idempotencyKey) ≠ (other.senderId,other.idempotencyKey))) ∧
      ∃ fresh, db' = {db with postcards := db.postcards.insert row fresh} :=
  Table.insertWhen_eq_some

theorem upsertEmbedding_fresh {row : PhotoEmbedding} (fresh : db.embeddings.get? row.photoId = none)
    (done : db.upsertEmbedding row = some db') :
    db' = {db with embeddings := db.embeddings.insert row fresh} := by
  unfold upsertEmbedding at done
  rw [dif_pos fresh] at done
  split at done
  · exact (Option.some.inj done).symm
  · cases done

end inserts
theorem blockedBetween_eq (first second : UUID) : db.blockedBetween first second =
    ((db.blocks.get? (first,second)).isSome || (db.blocks.get? (second,first)).isSome) := by
  rw [Bool.eq_iff_iff]
  simp only [blockedBetween,List.any_eq_true,decide_eq_true_eq,Bool.or_eq_true,
    Option.isSome_iff_exists]
  constructor
  · rintro ⟨block,member,⟨rfl,rfl⟩ | ⟨rfl,rfl⟩⟩
    · exact .inl ⟨block,Table.get?_of_mem member⟩
    · exact .inr ⟨block,Table.get?_of_mem member⟩
  · rintro (⟨block,found⟩ | ⟨block,found⟩)
    · obtain ⟨member,key⟩ := Table.mem_rows_of_get? found
      cases key
      exact ⟨block,member,.inl ⟨rfl,rfl⟩⟩
    · obtain ⟨member,key⟩ := Table.mem_rows_of_get? found
      cases key
      exact ⟨block,member,.inr ⟨rfl,rfl⟩⟩

theorem mem_jobs {queue : Queue} {id : UUID} {job : Job}
    (found : db.job? queue id = some job) : job ∈ db.jobs queue := by
  cases queue with
  | validation =>
    obtain ⟨row,present,rfl⟩ := Option.map_eq_some_iff.mp found
    exact List.mem_map_of_mem (Table.mem_rows_of_get? present).1
  | embedding => exact (Table.mem_rows_of_get? found).1

theorem job?_of_mem {queue : Queue} {job : Job} (member : job ∈ db.jobs queue) :
    db.job? queue job.id = some job := by
  cases queue with
  | validation =>
    obtain ⟨row,present,rfl⟩ := List.mem_map.mp member
    exact Option.map_eq_some_iff.mpr ⟨row,Table.get?_of_mem present,rfl⟩
  | embedding => exact Table.get?_of_mem member

end Dalm.Db
