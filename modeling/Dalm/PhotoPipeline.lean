import Dalm.Fresh
import Dalm.Reachable

/-! Photos, their validations and their embedding jobs agree in every reachable state. -/
namespace Dalm
open Relational

structure PhotoPipeline (run : Request → App Response) (users : Table User.id) (s : Backend) : Prop where
  moves : ∀ action u, s.step run action = some u → ∀ p photo, s.db.photos.get? p = some photo →
    ∃ photo', u.db.photos.get? p = some photo' ∧
      (photo'.status = photo.status ∨ photo.status.allowed photo'.status) ∧
      (photo.status = .matched ∨ photo.status = .deleted → photo'.status = photo.status) ∧
      (photo.status ≠ .validating → photo'.rejectionCode = photo.rejectionCode ∧
        photo'.rejectionMessage = photo.rejectionMessage)
  waiting : ∀ photo ∈ s.db.photos.rows, photo.status = .validating →
    ∃ row ∈ s.db.validations.rows, row.photoId = photo.id ∧
      (row.status = .pending ∨ row.status = .processing) ∧
      ∀ other ∈ s.db.validations.rows, other.photoId = photo.id → other = row
  passed : ∀ row ∈ s.db.validations.rows,
    row.status = .passed ↔ ∃ job ∈ s.db.embeddingJobs.rows, job.photoId = row.photoId
  once : ∀ job ∈ s.db.embeddingJobs.rows, ∀ other ∈ s.db.embeddingJobs.rows,
    job.photoId = other.photoId → job = other
  vacant : ∀ job ∈ s.db.embeddingJobs.rows, ∃ photo, s.db.photos.get? job.photoId = some photo ∧
    photo.status ≠ .validating
  accepted : ∀ photo ∈ s.db.photos.rows, photo.status.accepted →
    (∃ row ∈ s.db.validations.rows, row.photoId = photo.id ∧ row.status = .passed) ∧
      photo.searchExpiresAt = some (photo.registeredAt + days 7)
  inserted : Reach run fresh (launch users) s → ∀ t id result state,
    s.session t = some ⟨.validationResult id result,state⟩ → state ≠ .inr (.error .integrityError)

section states
variable {settings : Settings} {w : BackendWorld}

private theorem waiting_of_validating (inv : Inv settings w) {photo : Photo}
    (member : photo ∈ w.db.photos.rows) (validating : photo.status = .validating) :
    ∃ row ∈ w.db.validations.rows, row.photoId = photo.id ∧
      (row.status = .pending ∨ row.status = .processing) ∧
      ∀ other ∈ w.db.validations.rows, other.photoId = photo.id → other = row := by
  obtain ⟨v,row,found,same,ok⟩ := inv.validations.validated _ photo (Table.get?_of_mem member)
  refine ⟨row,(Table.mem_rows_of_get? found).1,same,ok.1 validating,?_⟩
  intro other inside equal
  have present := Table.get?_of_mem inside
  rw [inv.validations.unique _ other v row present found (equal.trans same.symm)] at present
  exact Option.some.inj (present.symm.trans found)

private theorem passed_iff_queued (inv : Inv settings w) {row : PhotoValidation}
    (member : row ∈ w.db.validations.rows) :
    row.status = .passed ↔ ∃ job ∈ w.db.embeddingJobs.rows, job.photoId = row.photoId := by
  rw [inv.embeddings.passed _ row (Table.get?_of_mem member)]
  constructor
  · rintro ⟨e,job,found,same⟩
    exact ⟨job,(Table.mem_rows_of_get? found).1,same⟩
  · rintro ⟨job,inside,same⟩
    exact ⟨_,job,Table.get?_of_mem inside,same⟩

private theorem queued_once (inv : Inv settings w) {job other : PhotoEmbeddingJob}
    (member : job ∈ w.db.embeddingJobs.rows) (member' : other ∈ w.db.embeddingJobs.rows)
    (same : job.photoId = other.photoId) : job = other := by
  have found := Table.get?_of_mem member
  have found' := Table.get?_of_mem member'
  rw [← inv.embeddings.unique _ job _ other found found' same] at found'
  exact Option.some.inj (found.symm.trans found')

private theorem vacant_of_queued (inv : Inv settings w) {job : PhotoEmbeddingJob}
    (member : job ∈ w.db.embeddingJobs.rows) :
    ∃ photo, w.db.photos.get? job.photoId = some photo ∧ photo.status ≠ .validating := by
  obtain ⟨v,row,present,same⟩ := inv.embeddings.validated _ job (Table.get?_of_mem member)
  obtain ⟨photo,found⟩ := Option.isSome_iff_exists.mp (inv.validations.photo v row present)
  rw [same] at found
  refine ⟨photo,found,fun validating => ?_⟩
  have key := Table.key_of_get? found
  rw [← key] at found
  exact unembedded_of_validating inv found validating job member key

private theorem accepted_passed (inv : Inv settings w) {photo : Photo}
    (member : photo ∈ w.db.photos.rows) (accepted : photo.status.accepted) :
    (∃ row ∈ w.db.validations.rows, row.photoId = photo.id ∧ row.status = .passed) ∧
      photo.searchExpiresAt = some (photo.registeredAt + days 7) := by
  have found := Table.get?_of_mem member
  obtain ⟨v,row,present,same,ok⟩ := inv.validations.validated _ photo found
  exact ⟨⟨row,(Table.mem_rows_of_get? present).1,same,ok.2 accepted⟩,
    (inv.photos _ photo found).period accepted⟩

end states

section runs
variable {K : Type} [Field K] [LinearOrder K] [IsStrictOrderedRing K] [FloorRing K]
  {settings : Settings} {sqrt : ℚ → K} {users : Table User.id} {s : Backend}

/-- With fresh identifiers the database takes every verdict. -/
private theorem verdict_taken (reach : Reach (program settings sqrt) fresh (launch users) s) {t : Nat}
    {id : UUID} {result : PhotoValidationRepository.Result} {state : App Response ⊕ Except Exc Response}
    (present : s.session t = some ⟨.validationResult id result,state⟩) :
    state ≠ .inr (.error .integrityError) := by
  rintro rfl
  have outcome := outcome_of_reach reach (fun dead => dead) present
  obtain ⟨w,ids,_,_,photo,_,_,inv,unused,found,validating,refused⟩ := outcome rfl
  exact PhotoValidationRepository.resultWrites_of_fresh inv found validating unused refused

theorem photoPipeline (reachable : Reachable settings sqrt users s) :
    PhotoPipeline (program settings sqrt) users s where
  moves _ _ taken _ _ found := by
    obtain ⟨photo',after,follows⟩ := reachable.stays taken found
    refine ⟨photo',after,follows.status,?_,follows.verdict⟩
    rintro (status | status)
    · exact follows.status.resolve_right fun leaves => by rw [status] at leaves; cases leaves
    · exact follows.status.resolve_right fun leaves => by rw [status] at leaves; cases leaves
  waiting _ member validating := waiting_of_validating reachable.inv member validating
  passed _ member := passed_iff_queued reachable.inv member
  once _ member _ member' same := queued_once reachable.inv member member' same
  vacant _ member := vacant_of_queued reachable.inv member
  accepted _ member accepted := accepted_passed reachable.inv member accepted
  inserted reach _ _ _ _ present := verdict_taken reach present

end runs

/-- An upload that waits for its verdict, the claim of its validation and the verdict. -/
def Sample.accepted : List (Action Input Exc Request) :=
  Sample.uploaded ++ Sample.claimed 2 "worker" 1 ++
    Sample.session 3 (.validationResult 100 ⟨.passed,none,none,"model","1",5,some "worker"⟩) 6
      (Sample.input 2 300)

theorem photoPipeline_accepted : ∃ s, Sample.after Sample.accepted = some s ∧
    s.db.embeddingJobs.rows.length = 1 ∧
    PhotoPipeline (program Sample.settings Rat.sqrt) Sample.users s := by
  obtain ⟨s,ran,reachable,one⟩ := Sample.reached Sample.accepted
    (fun s => s.db.embeddingJobs.rows.length = 1) (by decide +kernel)
  exact ⟨s,ran,of_decide_eq_true one,photoPipeline reachable⟩

end Dalm
