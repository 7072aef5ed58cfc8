import Dalm.Writes

/-! What holds of the database and the history in every reachable world. Each part is
about the tables it names, so a change of other tables keeps it as it is. -/
namespace Dalm
open Relational

/-- The status changes a photo makes in one commit. -/
def PhotoStatus.allowed : PhotoStatus → PhotoStatus → Bool
  | .validating,.searching => true
  | .validating,.rejected => true
  | .validating,.deleted => true
  | .searching,.matched => true
  | .searching,.expired => true
  | .searching,.deleted => true
  | .rejected,.deleted => true
  | .expired,.deleted => true
  | _,_ => false

/-- The statuses of photos whose validation passed. -/
def PhotoStatus.accepted : PhotoStatus → Bool
  | .searching => true
  | .matched => true
  | .expired => true
  | _ => false

abbrev Photos := Table Photo.id
abbrev Validations := Table (fun v : PhotoValidation => v.id)
abbrev EmbeddingJobs := Table (fun j : PhotoEmbeddingJob => j.id)
abbrev Embeddings := Table PhotoEmbedding.photoId
abbrev Matches := Table Match.id
abbrev Participants := Table (fun p : MatchParticipant => (p.matchId,p.userId))
abbrev Postcards := Table Postcard.id

structure PhotoOk (users : Table User.id) (photo : Photo) : Prop where
  owned : Onboarded users photo.userId
  stored : photo.storageKey.isSome
  deleted : photo.deletedAt = none ↔ photo.status ≠ .deleted
  period : photo.status.accepted → photo.searchExpiresAt = some (photo.registeredAt + days 7)

def PhotosOk (users : Table User.id) (photos : Photos) : Prop :=
  ∀ p photo, photos.get? p = some photo → PhotoOk users photo

/-- A photo waiting for its verdict has an open validation; an accepted one has passed. -/
def agrees (photo : PhotoStatus) (validation : JobStatus) : Prop :=
  (photo = .validating → validation = .pending ∨ validation = .processing) ∧
    (photo.accepted → validation = .passed)

structure ValidationsOk (photos : Photos) (validations : Validations) : Prop where
  validated : ∀ p photo, photos.get? p = some photo → ∃ v row, validations.get? v = some row ∧
    row.photoId = p ∧ agrees photo.status row.status
  photo : ∀ v row, validations.get? v = some row → (photos.get? row.photoId).isSome
  unique : ∀ v row v' row', validations.get? v = some row → validations.get? v' = some row' →
    row.photoId = row'.photoId → v = v'

structure EmbeddingsOk (validations : Validations) (jobs : EmbeddingJobs)
    (embeddings : Embeddings) : Prop where
  unique : ∀ e job e' job', jobs.get? e = some job → jobs.get? e' = some job' →
    job.photoId = job'.photoId → e = e'
  passed : ∀ v row, validations.get? v = some row →
    (row.status = .passed ↔ ∃ e job, jobs.get? e = some job ∧ job.photoId = row.photoId)
  validated : ∀ e job, jobs.get? e = some job → ∃ v row, validations.get? v = some row ∧
    row.photoId = job.photoId
  completed : ∀ e job, jobs.get? e = some job →
    (job.status = .completed ↔ (embeddings.get? job.photoId).isSome)
  embedded : ∀ p, (embeddings.get? p).isSome → ∃ e job, jobs.get? e = some job ∧ job.photoId = p

structure MatchesOk (photos : Photos) (matches_ : Matches) (participants : Participants) : Prop where
  participant : ∀ m u row, participants.get? (m,u) = some row → (matches_.get? m).isSome ∧
    ∃ photo, photos.get? row.photoId = some photo ∧ photo.userId = u ∧ photo.status = .matched
  matched : ∀ p photo, photos.get? p = some photo → photo.status = .matched →
    ∃ m u row, participants.get? (m,u) = some row ∧ row.photoId = p
  once : ∀ k k' row row', participants.get? k = some row → participants.get? k' = some row' →
    row.photoId = row'.photoId → k = k'
  pair : ∀ m, (matches_.get? m).isSome → ∃ u v first second, u ≠ v ∧
    participants.get? (m,u) = some first ∧ participants.get? (m,v) = some second ∧
    first.photoId ≠ second.photoId ∧
    ∀ other row, participants.get? (m,other) = some row → other = u ∨ other = v

structure PostcardsOk (participants : Participants) (postcards : Postcards) : Prop where
  sender : ∀ card ∈ postcards.rows, (participants.get? (card.matchId,card.senderId)).isSome
  receiver : ∀ card ∈ postcards.rows, (participants.get? (card.matchId,card.receiverId)).isSome
  apart : ∀ card ∈ postcards.rows, card.senderId ≠ card.receiverId

def Job.item (job : Job) : Lease.Item String :=
  ⟨match job.status with
    | .pending => .waiting job.nextAttemptAt
    | .processing => .running job.workerId job.startedAt
    | _ => .closed,job.attemptCount⟩

def policy (settings : Settings) : Lease.Policy :=
  ⟨seconds settings.validationLeaseSeconds,settings.validationMaxAttempts,
    retryDelay settings.validationRetryBaseSeconds⟩

def Event.ofJob? (queue : Queue) (id : UUID) : Event → Option (Lease.Event String)
  | .job other otherId event => if other = queue ∧ otherId = id then some event else none
  | _ => none

def jobEvents (queue : Queue) (id : UUID) (log : List (Nat × Event)) : List (Lease.Event String) :=
  log.filterMap fun entry => entry.2.ofJob? queue id

/-- A job created PENDING, or the validation a mock upload creates PASSED. -/
def isNew (item : Lease.Item String) : Prop := item = ⟨.waiting none,0⟩ ∨ item = ⟨.closed,1⟩

/-- A job is where the policy takes it through its part of the history. -/
structure LeasesOk (settings : Settings) (w : BackendWorld) : Prop where
  replayed : ∀ queue id job, w.db.job? queue id = some job → ∃ start, isNew start ∧
    (policy settings).replay start (jobEvents queue id w.log) = some job.item
  absent : ∀ queue id, w.db.job? queue id = none → jobEvents queue id w.log = []

/-- The history tells who is blocked, what is stored, what is deleted and who is matched. -/
structure HistoryOk (w : BackendWorld) : Prop where
  blocks : ∀ u v, (w.db.blocks.get? (u,v)).isSome = blockedAt u v w.log
  stored : ∀ p, (w.db.embeddings.get? p).isSome ↔ ∃ t, (t,.embeddingStored p) ∈ w.log
  deleted : ∀ t p, (t,.photoDeleted p) ∈ w.log → ∃ photo, w.db.photos.get? p = some photo ∧
    photo.status = .deleted
  matched : ∀ t m a b now, (t,.matched m a b now) ∈ w.log →
    (∃ photo, w.db.photos.get? a = some photo ∧ photo.status = .matched) ∧
    (∃ photo, w.db.photos.get? b = some photo ∧ photo.status = .matched)

structure Inv (settings : Settings) (w : BackendWorld) : Prop where
  photos : PhotosOk w.db.users w.db.photos
  validations : ValidationsOk w.db.photos w.db.validations
  embeddings : EmbeddingsOk w.db.validations w.db.embeddingJobs w.db.embeddings
  matches_ : MatchesOk w.db.photos w.db.matches_ w.db.participants
  postcards : PostcardsOk w.db.participants w.db.postcards
  leases : LeasesOk settings w
  history : HistoryOk w

private theorem job?_empty (users : Table User.id) (queue : Queue) (id : UUID) :
    (Db.empty users).job? queue id = none := by
  cases queue <;> rfl

theorem inv_launch (settings : Settings) (users : Table User.id) :
    Inv settings (launch users).world where
  photos p photo found := by cases found
  validations := by
    refine ⟨?_,?_,?_⟩
    · intro p photo found
      cases found
    · intro v row found
      cases found
    · intro v row v' row' found
      cases found
  embeddings := by
    refine ⟨?_,?_,?_,?_,?_⟩
    · intro e job e' job' found
      cases found
    · intro v row found
      cases found
    · intro e job found
      cases found
    · intro e job found
      cases found
    · intro p found
      cases found
  matches_ := by
    refine ⟨?_,?_,?_,?_⟩
    · intro m u row found
      cases found
    · intro p photo found
      cases found
    · intro k k' row row' found
      cases found
    · intro m found
      cases found
  postcards := by
    refine ⟨?_,?_,?_⟩
    · intro card member
      cases member
    · intro card member
      cases member
    · intro card member
      cases member
  leases := by
    refine ⟨?_,fun _ _ _ => rfl⟩
    intro queue id job found
    have absent : (launch users).world.db.job? queue id = none := job?_empty users queue id
    rw [absent] at found
    cases found
  history := by
    refine ⟨fun _ _ => rfl,?_,?_,?_⟩
    · intro p
      simp [launch,System.initial,System.world,Db.empty]
    · intro t p member
      cases member
    · intro t m a b now member
      cases member

end Dalm
