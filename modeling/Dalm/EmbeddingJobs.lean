import Dalm.Matching
import Dalm.MatchRanking
import Dalm.PhotoEmbeddings
import Dalm.PhotoValidation

/-! PhotoEmbeddingJobRepository, the scores and orchestrate_match. The square root is
a parameter: over the reals it is the real one. -/
namespace Dalm
open Relational Txn

namespace PhotoEmbeddingJobRepository

def jobNotFound : Exc := .api ⟨404,.embeddingJobNotFound,"임베딩 작업을 찾을 수 없습니다."⟩

def alreadyCompleted : Exc :=
  .api ⟨409,.embeddingAlreadyCompleted,"이미 완료된 임베딩 작업입니다."⟩

def leaseLost : Exc :=
  .api ⟨409,.embeddingLeaseLost,"임베딩 작업의 실행 권한이 만료되었습니다."⟩

def claimNext (workerId : String) (leaseSeconds : Int) : App (Option (Job × Photo)) :=
  Dalm.claimNext .embedding workerId leaseSeconds

def lockedJob (jobId : UUID) (workerId : String) (completedOk : Bool) : App Job := do
  let found ← lockJob .embedding jobId
  match found with
  | none => throw jobNotFound
  | some job =>
    if job.status = .completed then
      if completedOk then return job
      else throw alreadyCompleted
    else if job.status ≠ .processing ∨ job.workerId ≠ some workerId then
      throw leaseLost
    else
      return job

def complete (now : Time) (job : Job) : Job :=
  {job with status := .completed,workerId := none,completedAt := some now}

def resultWrites (job : Job) (embedding : PhotoEmbeddingData) (start now : Time) (db : Db) :
    Option (Db × List Event) := do
  let db ← db.upsertEmbedding ⟨job.photoId,embedding,start⟩
  return (db.updateJob .embedding job.id (complete now),
    [.job .embedding job.id .closed,.embeddingStored job.photoId])

/-- The job applied, and when the transaction still open was opened. -/
structure Applied where
  job : Job
  opened : Option Time

def applyResult (jobId : UUID) (workerId : String) (embedding : PhotoEmbeddingData) :
    App Applied := do
  let start ← supply
  let job ← lockedJob jobId workerId true
  if job.status = .completed then
    return ⟨job,some start.now⟩
  else
    let clock ← supply
    let _ ← commitOr .integrityError fun _ db => resultWrites job embedding start.now clock.now db
    return ⟨complete clock.now job,none⟩

def fail (report : FailureReport) (now : Time) (job : Job) : Job :=
  {job with
    errorCode := some report.errorCode
    errorMessage := report.errorMessage
    workerId := none
    startedAt := none
    status := .failed
    completedAt := some now}

def recordFailure (jobId : UUID) (report : FailureReport) (maxAttempts retryBaseSeconds : Int) :
    App Job := do
  let job ← lockedJob jobId report.workerId false
  let clock ← supply
  if report.retryable ∧ (job.attemptCount : Int) < maxAttempts then
    let delay := retryDelay retryBaseSeconds job.attemptCount
    let _ ← commitOr .integrityError fun _ db =>
      some (db.retryJob .embedding jobId report clock.now delay,
        [.job .embedding jobId (.retried clock.now)])
    return retryLater report.errorCode report.errorMessage clock.now delay job
  else
    let _ ← commitOr .integrityError fun _ db =>
      some (db.updateJob .embedding jobId (fail report clock.now),[.job .embedding jobId .closed])
    return fail report clock.now job

end PhotoEmbeddingJobRepository

section scores
variable {K : Type} [Field K] [LinearOrder K] [IsStrictOrderedRing K] (sqrt : ℚ → K)

def dot (left right : List ℚ) : ℚ := ((left.zip right).map fun pair => pair.1 * pair.2).sum

def cosine (left right : List ℚ) : K :=
  if left.length ≠ right.length ∨ left = [] then 0
  else
    let denominator := sqrt (dot left left) * sqrt (dot right right)
    if denominator = 0 then 0 else max 0 (min 1 ((dot left right : ℚ) / denominator))

theorem cosine_mem (left right : List ℚ) : 0 ≤ cosine sqrt left right ∧ cosine sqrt left right ≤ 1 := by
  unfold cosine
  split
  · simp
  · dsimp only
    split
    · simp
    · exact ⟨le_max_left _ _,max_le zero_le_one (min_le_left _ _)⟩

def scoreEmbeddings (source candidate : PhotoEmbeddingData) : FeatureScores K where
  scene := cosine sqrt source.scene candidate.scene
  semantic := (cosine sqrt source.scene candidate.scene +
    cosine sqrt source.objectAction candidate.objectAction +
    cosine sqrt source.mood candidate.mood) / 3
  objects := cosine sqrt source.objectAction candidate.objectAction
  composition := cosine sqrt source.composition candidate.composition
  color := cosine sqrt source.color candidate.color
  mood := cosine sqrt source.mood candidate.mood
  valid := by
    have scene := cosine_mem sqrt source.scene candidate.scene
    have objects := cosine_mem sqrt source.objectAction candidate.objectAction
    have mood := cosine_mem sqrt source.mood candidate.mood
    simp only [List.forall_mem_cons]
    refine ⟨scene,⟨?_,?_⟩,objects,cosine_mem _ _ _,cosine_mem _ _ _,mood,by simp⟩
    · linarith [scene.1,objects.1,mood.1]
    · linarith [scene.2,objects.2,mood.2]

end scores

section orchestration
variable {K : Type} [Field K] [LinearOrder K]

/-- The two highest features, the earlier one of equals first as `sorted` keeps them. -/
def explanation (scores : FeatureScores K) : List Char :=
  let values := [("장면",scores.scene),("대상과 행동",scores.objects),("구도",scores.composition),
    ("색감",scores.color),("분위기",scores.mood)]
  let top := values.insertionSort fun first second => second.2 ≤ first.2
  ((top[0]?.map Prod.fst).getD "").toList ++ "과 ".toList ++
    ((top[1]?.map Prod.fst).getD "").toList ++ "이 닮은 순간이에요.".toList

/-- The match made, and whether a rollback expired the objects loaded before. -/
structure Orchestrated where
  matchId : Option UUID
  expired : Bool
deriving DecidableEq

/-- The errors after which orchestrate_match goes on to the next candidate. -/
def isPassedOver (error : Exc) : Bool :=
  error.code = some .matchCandidateChanged ∨ error.code = some .userBlocked ∨
    error.code = some .searchPeriodExpired

/-- The loop over the ranked candidates. A refused finalization rolled its transaction
back, so the next one opens its own. -/
def tryCandidates (photoId : UUID) : Option Time → Bool → List (RankedCandidate K) →
    App Orchestrated
  | _,expired,[] => return ⟨none,expired⟩
  | opened,expired,item :: rest => do
    let result ← attempt (finalizeMatch photoId item.photoId (explanation item.scores) none opened)
    match result with
    | .ok matchId => return ⟨some matchId,expired⟩
    | .error error =>
      if isPassedOver error then
        -- recorded for the history; the code itself goes straight on
        let _ ← observe (fun _ => .passedOver photoId item.photoId) fun _ => ()
        tryCandidates photoId none true rest
      else throw error

variable [IsStrictOrderedRing K] [FloorRing K] (sqrt : ℚ → K)

def rankedFor (source : PhotoEmbeddingData)
    (candidates : List SqlPhotoEmbeddingStore.EmbeddingCandidate) : List (RankedCandidate K) :=
  rankCandidates (candidates.map fun item =>
    ⟨item.photoId,scoreEmbeddings sqrt source item.embedding⟩) .default .default

def orchestrateMatch (photoId : UUID) (opened : Option Time) : App Orchestrated := do
  let start ← supply
  let source ← query fun db => db.embeddings.get? photoId
  match source with
  | none => return ⟨none,false⟩
  | some source =>
    let candidates ← SqlPhotoEmbeddingStore.listCandidates photoId none 100
    tryCandidates photoId (some (opened.getD start.now)) false
      (rankedFor sqrt source.data candidates)

structure EmbeddingResultData where
  jobId : UUID
  photoId : UUID
  status : JobStatus
  matchId : Option UUID
deriving DecidableEq

/-- POST /internal/v1/photo-embeddings/{job_id}/result. The answer reads the job again,
which a rollback in between has expired. -/
def applyPhotoEmbeddingResult (jobId : UUID) (workerId : String) (embedding : PhotoEmbeddingData) :
    App EmbeddingResultData := do
  let applied ← PhotoEmbeddingJobRepository.applyResult jobId workerId embedding
  let result ← orchestrateMatch sqrt applied.job.photoId applied.opened
  if result.expired then
    throw .missingGreenlet
  else
    return ⟨applied.job.id,applied.job.photoId,applied.job.status,result.matchId⟩

end orchestration
end Dalm
