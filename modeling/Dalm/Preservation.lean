import Dalm.Invariant

/-! How updates and inserts of single tables keep the parts of the invariant. -/
namespace Dalm
open Relational
variable {users : Table User.id} {photos : Photos} {validations : Validations}
  {jobs : EmbeddingJobs} {embeddings : Embeddings} {matches_ : Matches}
  {participants : Participants}

section photos
variable {chosen : UUID → Bool} {assign : Photo → Photo} {keeps : ∀ row, (assign row).id = row.id}

theorem photosOk_modify (ok : PhotosOk users photos)
    (each : ∀ p photo, chosen p → photos.get? p = some photo → PhotoOk users photo →
      PhotoOk users (assign photo)) : PhotosOk users (photos.modify chosen assign keeps) := by
  intro p photo' found
  obtain ⟨photo,before,rfl⟩ := Table.get?_modify_eq_some.mp found
  split
  next picked => exact each p photo picked before (ok p photo before)
  next => exact ok p photo before

theorem photosOk_insert {photo : Photo} (fresh : photos.get? photo.id = none)
    (ok : PhotosOk users photos) (new : PhotoOk users photo) :
    PhotosOk users (photos.insert photo fresh) := by
  intro p other found
  rcases Table.get?_insert_cases _ found with ⟨_,rfl⟩ | before
  · exact new
  · exact ok p other before

theorem validationsOk_modify_photos (ok : ValidationsOk photos validations)
    (each : ∀ p photo status, chosen p → photos.get? p = some photo → agrees photo.status status →
      agrees (assign photo).status status) :
    ValidationsOk (photos.modify chosen assign keeps) validations := by
  refine ⟨?_,?_,ok.unique⟩
  · intro p photo' found
    obtain ⟨photo,before,rfl⟩ := Table.get?_modify_eq_some.mp found
    obtain ⟨v,row,present,same,agree⟩ := ok.validated p photo before
    refine ⟨v,row,present,same,?_⟩
    split
    next picked => exact each p photo _ picked before agree
    next => exact agree
  · intro v row found
    rw [Table.isSome_get?_modify]
    exact ok.photo v row found

theorem matchesOk_modify_photos (ok : MatchesOk photos matches_ participants)
    (each : ∀ p photo, chosen p → photos.get? p = some photo →
      (assign photo).userId = photo.userId ∧
        ((assign photo).status = .matched ↔ photo.status = .matched)) :
    MatchesOk (photos.modify chosen assign keeps) matches_ participants := by
  refine ⟨?_,?_,ok.once,ok.pair⟩
  · intro m u row found
    obtain ⟨exists_,photo,present,owner,status⟩ := ok.participant m u row found
    refine ⟨exists_,_,Table.get?_modify_eq_some.mpr ⟨photo,present,rfl⟩,?_⟩
    split
    next picked =>
      obtain ⟨same,iff⟩ := each _ photo picked present
      exact ⟨same.trans owner,iff.mpr status⟩
    next => exact ⟨owner,status⟩
  · intro p photo' found status
    obtain ⟨photo,before,rfl⟩ := Table.get?_modify_eq_some.mp found
    split at status
    next picked => exact ok.matched p photo before ((each p photo picked before).2.mp status)
    next => exact ok.matched p photo before status

theorem matchesOk_insert_photo {photo : Photo} (fresh : photos.get? photo.id = none)
    (ok : MatchesOk photos matches_ participants) (unmatched : photo.status ≠ .matched) :
    MatchesOk (photos.insert photo fresh) matches_ participants := by
  refine ⟨?_,?_,ok.once,ok.pair⟩
  · intro m u row found
    obtain ⟨exists_,other,present,rest⟩ := ok.participant m u row found
    exact ⟨exists_,other,Table.get?_insert_of_some _ present,rest⟩
  · intro p other found status
    rcases Table.get?_insert_cases _ found with ⟨_,rfl⟩ | before
    · exact absurd status unmatched
    · exact ok.matched p other before status

end photos

section validations
variable {chosen : UUID → Bool} {assign : PhotoValidation → PhotoValidation}
  {keeps : ∀ row, (assign row).id = row.id}

private theorem photoId_ite (photoKeeps : ∀ row, (assign row).photoId = row.photoId) (c : Bool)
    (row : PhotoValidation) : (if c then assign row else row).photoId = row.photoId := by
  split
  · exact photoKeeps row
  · rfl

theorem validationsOk_modify (ok : ValidationsOk photos validations)
    (photoKeeps : ∀ row, (assign row).photoId = row.photoId)
    (each : ∀ v row photo, chosen v → validations.get? v = some row →
      photos.get? row.photoId = some photo → agrees photo.status (assign row).status) :
    ValidationsOk photos (validations.modify chosen assign keeps) := by
  refine ⟨?_,?_,?_⟩
  · intro p photo found
    obtain ⟨v,row,present,same,agree⟩ := ok.validated p photo found
    refine ⟨v,_,Table.get?_modify_eq_some.mpr ⟨row,present,rfl⟩,?_,?_⟩
    · rw [photoId_ite photoKeeps,same]
    · split
      next picked => exact each v row photo picked present (same ▸ found)
      next => exact agree
  · intro v row' found
    obtain ⟨row,before,rfl⟩ := Table.get?_modify_eq_some.mp found
    rw [photoId_ite photoKeeps]
    exact ok.photo v row before
  · intro v first v' second foundFirst foundSecond same
    obtain ⟨row,before,rfl⟩ := Table.get?_modify_eq_some.mp foundFirst
    obtain ⟨row',before',rfl⟩ := Table.get?_modify_eq_some.mp foundSecond
    rw [photoId_ite photoKeeps,photoId_ite photoKeeps] at same
    exact ok.unique v row v' row' before before' same

/-- A verdict changes a photo and its validation together. -/
theorem validationsOk_judged {v : UUID} {row : PhotoValidation} {judge : Photo → Photo}
    {keepsPhoto : ∀ row, (judge row).id = row.id}
    (ok : ValidationsOk photos validations)
    (photoKeeps : ∀ row, (assign row).photoId = row.photoId)
    (found : validations.get? v = some row)
    (agree : ∀ photo, agrees (judge photo).status (assign row).status) :
    ValidationsOk (photos.modify (fun p => p = row.photoId) judge keepsPhoto)
      (validations.modify (fun id => id = v) assign keeps) := by
  refine ⟨?_,?_,?_⟩
  · intro p photo' present
    obtain ⟨photo,before,rfl⟩ := Table.get?_modify_eq_some.mp present
    obtain ⟨other,its,there,same,agreed⟩ := ok.validated p photo before
    refine ⟨other,_,Table.get?_modify_eq_some.mpr ⟨its,there,rfl⟩,?_,?_⟩
    · rw [photoId_ite photoKeeps,same]
    · rcases eq_or_ne other v with rfl | different
      · have one : its = row := Option.some.inj (there.symm.trans found)
        subst one
        simpa [same] using agree photo
      · have elsewhere : p ≠ row.photoId := by
          intro equal
          exact different (ok.unique other its v row there found (same.trans equal))
        simpa [different,elsewhere] using agreed
  · intro other its' present
    obtain ⟨its,before,rfl⟩ := Table.get?_modify_eq_some.mp present
    rw [photoId_ite photoKeeps,Table.isSome_get?_modify]
    exact ok.photo other its before
  · intro one first two second foundFirst foundSecond same
    obtain ⟨its,before,rfl⟩ := Table.get?_modify_eq_some.mp foundFirst
    obtain ⟨its',before',rfl⟩ := Table.get?_modify_eq_some.mp foundSecond
    rw [photoId_ite photoKeeps,photoId_ite photoKeeps] at same
    exact ok.unique one its two its' before before' same

theorem validationsOk_insert {photo : Photo} {row : PhotoValidation}
    (freshPhoto : photos.get? photo.id = none) (freshRow : validations.get? row.id = none)
    (ok : ValidationsOk photos validations) (same : row.photoId = photo.id)
    (agree : agrees photo.status row.status) :
    ValidationsOk (photos.insert photo freshPhoto) (validations.insert row freshRow) := by
  have unseen : ∀ v other, validations.get? v = some other → other.photoId ≠ photo.id := by
    intro v other found equal
    have present := ok.photo v other found
    rw [equal,freshPhoto] at present
    cases present
  refine ⟨?_,?_,?_⟩
  · intro p other found
    rcases Table.get?_insert_cases _ found with ⟨equal,rfl⟩ | before
    · exact ⟨row.id,row,Table.get?_insert_self _,same.trans equal,agree⟩
    · obtain ⟨v,its,present,rest⟩ := ok.validated p other before
      exact ⟨v,its,Table.get?_insert_of_some _ present,rest⟩
  · intro v other found
    rcases Table.get?_insert_cases _ found with ⟨_,rfl⟩ | before
    · simp [same]
    · rw [Table.get?_insert,if_neg (Ne.symm (unseen v other before))]
      exact ok.photo v other before
  · intro v first v' second foundFirst foundSecond equal
    rcases Table.get?_insert_cases _ foundFirst with ⟨one,rfl⟩ | before <;>
      rcases Table.get?_insert_cases _ foundSecond with ⟨two,rfl⟩ | before'
    · exact one.symm.trans two
    · exact absurd (equal.symm.trans same) (unseen v' second before')
    · exact absurd (equal.trans same) (unseen v first before)
    · exact ok.unique v first v' second before before' equal

end validations

section embeddings
variable {chosen : UUID → Bool}

theorem embeddingsOk_modify_validations {assign : PhotoValidation → PhotoValidation}
    {keeps : ∀ row, (assign row).id = row.id} (ok : EmbeddingsOk validations jobs embeddings)
    (photoKeeps : ∀ row, (assign row).photoId = row.photoId)
    (each : ∀ v row, chosen v → validations.get? v = some row →
      ((assign row).status = .passed ↔ row.status = .passed)) :
    EmbeddingsOk (validations.modify chosen assign keeps) jobs embeddings := by
  refine ⟨ok.unique,?_,?_,ok.completed,ok.embedded⟩
  · intro v row' found
    obtain ⟨row,before,rfl⟩ := Table.get?_modify_eq_some.mp found
    have passed := ok.passed v row before
    rw [photoId_ite photoKeeps,← passed]
    split
    next picked => exact each v row picked before
    next => rfl
  · intro e job found
    obtain ⟨v,row,present,same⟩ := ok.validated e job found
    exact ⟨v,_,Table.get?_modify_eq_some.mpr ⟨row,present,rfl⟩,
      (photoId_ite photoKeeps _ row).trans same⟩

/-- A job for a photo that had none appears; every validation has the verdict it had,
but for the one of that photo, which passed. -/
private theorem embeddingsOk_insert_job {validations' : Validations} {job : PhotoEmbeddingJob}
    (fresh : jobs.get? job.id = none) (ok : EmbeddingsOk validations jobs embeddings)
    (new : job.status = .pending)
    (unseen : ∀ e other, jobs.get? e = some other → other.photoId ≠ job.photoId)
    (passed : ∃ v row, validations'.get? v = some row ∧ row.photoId = job.photoId)
    (verdicts : ∀ v row', validations'.get? v = some row' →
      (row'.photoId = job.photoId ∧ row'.status = .passed) ∨
      (row'.photoId ≠ job.photoId ∧ ∃ row, validations.get? v = some row ∧
        row.photoId = row'.photoId ∧ row.status = row'.status))
    (kept : ∀ v row, validations.get? v = some row → ∃ row', validations'.get? v = some row' ∧
      row'.photoId = row.photoId) :
    EmbeddingsOk validations' (jobs.insert job fresh) embeddings := by
  refine ⟨?_,?_,?_,?_,?_⟩
  · intro e first e' second foundFirst foundSecond equal
    rcases Table.get?_insert_cases _ foundFirst with ⟨one,rfl⟩ | before <;>
      rcases Table.get?_insert_cases _ foundSecond with ⟨two,rfl⟩ | before'
    · exact one.symm.trans two
    · exact absurd equal.symm (unseen e' second before')
    · exact absurd equal (unseen e first before)
    · exact ok.unique e first e' second before before' equal
  · intro v row' found
    rcases verdicts v row' found with ⟨same,passes⟩ | ⟨different,row,before,same,verdict⟩
    · simp only [passes,true_iff]
      exact ⟨job.id,job,Table.get?_insert_self _,same.symm⟩
    · rw [← verdict,ok.passed v row before]
      constructor
      · rintro ⟨e,other,present,equal⟩
        exact ⟨e,other,Table.get?_insert_of_some _ present,equal.trans same⟩
      · rintro ⟨e,other,present,equal⟩
        rcases Table.get?_insert_cases _ present with ⟨_,rfl⟩ | before
        · exact absurd equal.symm different
        · exact ⟨e,other,before,equal.trans same.symm⟩
  · intro e other found
    rcases Table.get?_insert_cases _ found with ⟨_,rfl⟩ | before
    · exact passed
    · obtain ⟨v,row,present,same⟩ := ok.validated e other before
      obtain ⟨row',present',same'⟩ := kept v row present
      exact ⟨v,row',present',same'.trans same⟩
  · intro e other found
    rcases Table.get?_insert_cases _ found with ⟨_,rfl⟩ | before
    · simp only [new,reduceCtorEq,false_iff]
      intro stored
      obtain ⟨e',its,present,equal⟩ := ok.embedded other.photoId stored
      exact unseen e' its present equal
    · exact ok.completed e other before
  · intro p stored
    obtain ⟨e,other,present,equal⟩ := ok.embedded p stored
    exact ⟨e,other,Table.get?_insert_of_some _ present,equal⟩

theorem embeddingsOk_passed {v : UUID} {row : PhotoValidation} {job : PhotoEmbeddingJob}
    {assign : PhotoValidation → PhotoValidation} {keeps : ∀ row, (assign row).id = row.id}
    (fresh : jobs.get? job.id = none) (validated : ValidationsOk photos validations)
    (ok : EmbeddingsOk validations jobs embeddings)
    (photoKeeps : ∀ row, (assign row).photoId = row.photoId)
    (found : validations.get? v = some row) (open_ : row.status ≠ .passed)
    (passes : (assign row).status = .passed) (same : job.photoId = row.photoId)
    (new : job.status = .pending) :
    EmbeddingsOk (validations.modify (fun id => id = v) assign keeps) (jobs.insert job fresh)
      embeddings := by
  apply embeddingsOk_insert_job _ ok new
  · intro e other present equal
    exact open_ ((ok.passed v row found).mpr ⟨e,other,present,equal.trans same⟩)
  · exact ⟨v,_,Table.get?_modify_eq_some.mpr ⟨row,found,rfl⟩,
      (photoId_ite photoKeeps _ row).trans same.symm⟩
  · intro other its' present
    obtain ⟨its,before,rfl⟩ := Table.get?_modify_eq_some.mp present
    rw [photoId_ite photoKeeps,same]
    rcases eq_or_ne other v with rfl | different
    · cases Option.some.inj (before.symm.trans found)
      exact .inl ⟨rfl,by simpa using passes⟩
    · have elsewhere : its.photoId ≠ row.photoId :=
        fun equal => different (validated.unique other its v row before found equal)
      exact .inr ⟨elsewhere,its,before,rfl,by simp [different]⟩
  · intro other its present
    exact ⟨_,Table.get?_modify_eq_some.mpr ⟨its,present,rfl⟩,photoId_ite photoKeeps _ its⟩

theorem embeddingsOk_mock {photo : UUID} {row : PhotoValidation} {job : PhotoEmbeddingJob}
    (freshRow : validations.get? row.id = none) (fresh : jobs.get? job.id = none)
    (validated : ValidationsOk photos validations) (ok : EmbeddingsOk validations jobs embeddings)
    (freshPhoto : photos.get? photo = none) (rowPhoto : row.photoId = photo)
    (jobPhoto : job.photoId = photo) (passes : row.status = .passed) (new : job.status = .pending) :
    EmbeddingsOk (validations.insert row freshRow) (jobs.insert job fresh) embeddings := by
  have unvalidated : ∀ v other, validations.get? v = some other → other.photoId ≠ photo := by
    intro v other found equal
    have present := validated.photo v other found
    rw [equal,freshPhoto] at present
    cases present
  apply embeddingsOk_insert_job _ ok new
  · intro e other present equal
    obtain ⟨v,its,there,same⟩ := ok.validated e other present
    exact unvalidated v its there (same.trans (equal.trans jobPhoto))
  · exact ⟨row.id,row,Table.get?_insert_self _,rowPhoto.trans jobPhoto.symm⟩
  · intro v other found
    rcases Table.get?_insert_cases _ found with ⟨_,rfl⟩ | before
    · exact .inl ⟨rowPhoto.trans jobPhoto.symm,passes⟩
    · exact .inr ⟨jobPhoto ▸ unvalidated v other before,other,before,rfl,rfl⟩
  · intro v other found
    exact ⟨other,Table.get?_insert_of_some _ found,rfl⟩

theorem embeddingsOk_insert_validation {row : PhotoValidation}
    (freshRow : validations.get? row.id = none) (validated : ValidationsOk photos validations)
    (ok : EmbeddingsOk validations jobs embeddings) (freshPhoto : photos.get? row.photoId = none)
    (open_ : row.status ≠ .passed) :
    EmbeddingsOk (validations.insert row freshRow) jobs embeddings := by
  refine ⟨ok.unique,?_,?_,ok.completed,ok.embedded⟩
  · intro v other found
    rcases Table.get?_insert_cases _ found with ⟨_,rfl⟩ | before
    · simp only [open_,false_iff]
      rintro ⟨e,job,present,equal⟩
      obtain ⟨v',its,there,same⟩ := ok.validated e job present
      have photo := validated.photo v' its there
      rw [same,equal,freshPhoto] at photo
      cases photo
    · exact ok.passed v other before
  · intro e job found
    obtain ⟨v,its,present,same⟩ := ok.validated e job found
    exact ⟨v,its,Table.get?_insert_of_some _ present,same⟩

section jobs
variable {assign : Job → Job} {keeps : ∀ row, (assign row).id = row.id}

private theorem jobPhoto_ite (photoKeeps : ∀ job, (assign job).photoId = job.photoId) (c : Bool)
    (job : Job) : (if c then assign job else job).photoId = job.photoId := by
  split
  · exact photoKeeps job
  · rfl

/-- The jobs change and perhaps embeddings appear, exactly for the jobs that complete. -/
theorem embeddingsOk_modify_jobs {embeddings' : Embeddings}
    (ok : EmbeddingsOk validations jobs embeddings)
    (photoKeeps : ∀ job, (assign job).photoId = job.photoId)
    (each : ∀ e job, jobs.get? e = some job →
      ((if chosen e then assign job else job).status = .completed ↔
        (embeddings'.get? job.photoId).isSome))
    (embedded : ∀ p, (embeddings'.get? p).isSome → ∃ e job, jobs.get? e = some job ∧ job.photoId = p) :
    EmbeddingsOk validations (jobs.modify chosen assign keeps) embeddings' := by
  refine ⟨?_,?_,?_,?_,?_⟩
  · intro e first e' second foundFirst foundSecond equal
    obtain ⟨job,before,rfl⟩ := Table.get?_modify_eq_some.mp foundFirst
    obtain ⟨job',before',rfl⟩ := Table.get?_modify_eq_some.mp foundSecond
    rw [jobPhoto_ite photoKeeps,jobPhoto_ite photoKeeps] at equal
    exact ok.unique e job e' job' before before' equal
  · intro v row found
    rw [ok.passed v row found]
    constructor
    · rintro ⟨e,job,present,equal⟩
      exact ⟨e,_,Table.get?_modify_eq_some.mpr ⟨job,present,rfl⟩,
        (jobPhoto_ite photoKeeps _ job).trans equal⟩
    · rintro ⟨e,job',present,equal⟩
      obtain ⟨job,before,rfl⟩ := Table.get?_modify_eq_some.mp present
      exact ⟨e,job,before,(jobPhoto_ite photoKeeps _ job).symm.trans equal⟩
  · intro e job' found
    obtain ⟨job,before,rfl⟩ := Table.get?_modify_eq_some.mp found
    rw [jobPhoto_ite photoKeeps]
    exact ok.validated e job before
  · intro e job' found
    obtain ⟨job,before,rfl⟩ := Table.get?_modify_eq_some.mp found
    rw [jobPhoto_ite photoKeeps]
    exact each e job before
  · intro p stored
    obtain ⟨e,job,present,equal⟩ := embedded p stored
    exact ⟨e,_,Table.get?_modify_eq_some.mpr ⟨job,present,rfl⟩,
      (jobPhoto_ite photoKeeps _ job).trans equal⟩

theorem embeddingsOk_update_job {e : UUID} {job : Job} (ok : EmbeddingsOk validations jobs embeddings)
    (photoKeeps : ∀ job, (assign job).photoId = job.photoId) (found : jobs.get? e = some job)
    (open_ : job.status ≠ .completed) (remains : (assign job).status ≠ .completed) :
    EmbeddingsOk validations (jobs.modify (fun id => id = e) assign keeps) embeddings := by
  refine embeddingsOk_modify_jobs ok photoKeeps ?_ ok.embedded
  intro e' job' found'
  rw [← ok.completed e' job' found']
  rcases eq_or_ne e' e with rfl | different
  · cases Option.some.inj (found'.symm.trans found)
    simp [open_,remains]
  · simp [different]

theorem embeddingsOk_completed {e : UUID} {job : Job} {embedding : PhotoEmbedding}
    (fresh : embeddings.get? embedding.photoId = none)
    (ok : EmbeddingsOk validations jobs embeddings)
    (photoKeeps : ∀ job, (assign job).photoId = job.photoId) (found : jobs.get? e = some job)
    (same : embedding.photoId = job.photoId) (completes : (assign job).status = .completed) :
    EmbeddingsOk validations (jobs.modify (fun id => id = e) assign keeps)
      (embeddings.insert embedding fresh) := by
  refine embeddingsOk_modify_jobs ok photoKeeps ?_ ?_
  · intro e' job' found'
    rcases eq_or_ne e' e with rfl | different
    · cases Option.some.inj (found'.symm.trans found)
      simp [completes,Table.get?_insert,same]
    · have elsewhere : embedding.photoId ≠ job'.photoId := by
        intro equal
        exact different (ok.unique e' job' e job found' found (equal.symm.trans same))
      have before := ok.completed e' job' found'
      simpa [different,Table.get?_insert,elsewhere] using before
  · intro p stored
    rw [Table.get?_insert] at stored
    split at stored
    next equal => exact ⟨e,job,found,same.symm.trans equal⟩
    next => exact ok.embedded p stored

end jobs
end embeddings

section matches_
variable {m : UUID} {first second : Photo} {start : Time} {explanation : List Char}
open SqlMatchFinalizationStore

/-- Two photos of two users, unmatched before, become the two participants of a match. -/
theorem matchesOk_finalized (freshMatch : matches_.get? m = none)
    (freshFirst : participants.get? (m,first.userId) = none)
    (freshSecond : (participants.insert (participant m first) freshFirst).get? (m,second.userId) = none)
    {keeps : ∀ row : Photo, ({row with status := .matched} : Photo).id = row.id}
    (ok : MatchesOk photos matches_ participants)
    (found : photos.get? first.id = some first ∧ photos.get? second.id = some second)
    (apart : first.id ≠ second.id ∧ first.userId ≠ second.userId)
    (searching : first.status = .searching ∧ second.status = .searching) :
    MatchesOk
      (photos.modify (fun id => id = first.id ∨ id = second.id)
        (fun row => {row with status := .matched}) keeps)
      (matches_.insert ⟨m,explanation,start⟩ freshMatch)
      ((participants.insert (participant m first) freshFirst).insert (participant m second)
        freshSecond) := by
  have unseen : ∀ k row, participants.get? k = some row →
      row.photoId ≠ first.id ∧ row.photoId ≠ second.id := by
    intro k row present
    obtain ⟨_,photo,there,_,status⟩ := ok.participant k.1 k.2 row present
    constructor
    · intro equal
      rw [equal,found.1] at there
      cases Option.some.inj there
      rw [searching.1] at status
      cases status
    · intro equal
      rw [equal,found.2] at there
      cases Option.some.inj there
      rw [searching.2] at status
      cases status
  have cases_ : ∀ k row, ((participants.insert (participant m first) freshFirst).insert
      (participant m second) freshSecond).get? k = some row →
      (k = (m,second.userId) ∧ row = participant m second) ∨
      (k = (m,first.userId) ∧ row = participant m first) ∨ participants.get? k = some row := by
    intro k row present
    rcases Table.get?_insert_cases _ present with ⟨rfl,rfl⟩ | before
    · exact .inl ⟨rfl,rfl⟩
    · rcases Table.get?_insert_cases _ before with ⟨rfl,rfl⟩ | before
      · exact .inr (.inl ⟨rfl,rfl⟩)
      · exact .inr (.inr before)
  have hasFirst : ((participants.insert (participant m first) freshFirst).insert
      (participant m second) freshSecond).get? (m,first.userId) = some (participant m first) :=
    Table.get?_insert_of_some _ (Table.get?_insert_self _)
  have hasSecond : ((participants.insert (participant m first) freshFirst).insert
      (participant m second) freshSecond).get? (m,second.userId) = some (participant m second) :=
    Table.get?_insert_self _
  refine ⟨?_,?_,?_,?_⟩
  · intro m' u row present
    rcases cases_ _ row present with ⟨same,rfl⟩ | ⟨same,rfl⟩ | before
    · cases same
      exact ⟨by simp,_,Table.get?_modify_eq_some.mpr ⟨second,found.2,rfl⟩,
        by simp [participant],by simp [participant]⟩
    · cases same
      exact ⟨by simp,_,Table.get?_modify_eq_some.mpr ⟨first,found.1,rfl⟩,
        by simp [participant],by simp [participant]⟩
    · obtain ⟨exists_,photo,there,owner,status⟩ := ok.participant m' u row before
      obtain ⟨notFirst,notSecond⟩ := unseen _ row before
      refine ⟨?_,photo,?_,owner,status⟩
      · obtain ⟨its,here⟩ := Option.isSome_iff_exists.mp exists_
        exact Option.isSome_iff_exists.mpr ⟨its,Table.get?_insert_of_some _ here⟩
      · exact Table.get?_modify_eq_some.mpr ⟨photo,there,by simp [notFirst,notSecond]⟩
  · intro p photo' present status
    obtain ⟨photo,before,rfl⟩ := Table.get?_modify_eq_some.mp present
    rcases eq_or_ne p first.id with rfl | notFirst
    · exact ⟨m,_,_,hasFirst,rfl⟩
    · rcases eq_or_ne p second.id with rfl | notSecond
      · exact ⟨m,_,_,hasSecond,rfl⟩
      · simp only [notFirst,notSecond,or_self,decide_false,Bool.false_eq_true,if_false] at status
        obtain ⟨m',u,row,there,same⟩ := ok.matched p photo before status
        exact ⟨m',u,row,Table.get?_insert_of_some _ (Table.get?_insert_of_some _ there),same⟩
  · intro k k' row row' present present' equal
    rcases cases_ k row present with ⟨rfl,rfl⟩ | ⟨rfl,rfl⟩ | before <;>
      rcases cases_ k' row' present' with ⟨rfl,rfl⟩ | ⟨rfl,rfl⟩ | before'
    · rfl
    · exact absurd equal.symm apart.1
    · exact absurd equal.symm (unseen k' row' before').2
    · exact absurd equal apart.1
    · rfl
    · exact absurd equal.symm (unseen k' row' before').1
    · exact absurd equal (unseen k row before).2
    · exact absurd equal (unseen k row before).1
    · exact ok.once k k' row row' before before' equal
  · intro m' present
    rcases eq_or_ne m m' with rfl | different
    · refine ⟨first.userId,second.userId,_,_,apart.2,hasFirst,hasSecond,apart.1,?_⟩
      intro other row there
      rcases cases_ _ row there with ⟨same,_⟩ | ⟨same,_⟩ | before
      · cases same
        exact .inr rfl
      · cases same
        exact .inl rfl
      · obtain ⟨exists_,_⟩ := ok.participant m other row before
        rw [freshMatch] at exists_
        cases exists_
    · rw [Table.get?_insert,if_neg different] at present
      obtain ⟨u,v,one,two,users,hasOne,hasTwo,photos_,only⟩ := ok.pair m' present
      refine ⟨u,v,one,two,users,Table.get?_insert_of_some _ (Table.get?_insert_of_some _ hasOne),
        Table.get?_insert_of_some _ (Table.get?_insert_of_some _ hasTwo),photos_,?_⟩
      intro other row there
      rcases cases_ _ row there with ⟨same,_⟩ | ⟨same,_⟩ | before
      · cases same
        exact absurd rfl different
      · cases same
        exact absurd rfl different
      · exact only other row before

theorem matchesOk_modify_participants {chosen : UUID × UUID → Bool}
    {assign : MatchParticipant → MatchParticipant}
    {keeps : ∀ row, ((assign row).matchId,(assign row).userId) = (row.matchId,row.userId)}
    (ok : MatchesOk photos matches_ participants)
    (photoKeeps : ∀ row, (assign row).photoId = row.photoId) :
    MatchesOk photos matches_ (participants.modify chosen assign keeps) := by
  have same : ∀ (c : Bool) (row : MatchParticipant),
      (if c then assign row else row).photoId = row.photoId := by
    intro c row
    split
    · exact photoKeeps row
    · rfl
  refine ⟨?_,?_,?_,?_⟩
  · intro m u row' found
    obtain ⟨row,before,rfl⟩ := Table.get?_modify_eq_some.mp found
    rw [same]
    exact ok.participant m u row before
  · intro p photo found status
    obtain ⟨m,u,row,present,equal⟩ := ok.matched p photo found status
    exact ⟨m,u,_,Table.get?_modify_eq_some.mpr ⟨row,present,rfl⟩,(same _ row).trans equal⟩
  · intro k k' one two foundOne foundTwo equal
    obtain ⟨row,before,rfl⟩ := Table.get?_modify_eq_some.mp foundOne
    obtain ⟨row',before',rfl⟩ := Table.get?_modify_eq_some.mp foundTwo
    rw [same,same] at equal
    exact ok.once k k' row row' before before' equal
  · intro m present
    obtain ⟨u,v,one,two,users,hasOne,hasTwo,photos_,only⟩ := ok.pair m present
    refine ⟨u,v,_,_,users,Table.get?_modify_eq_some.mpr ⟨one,hasOne,rfl⟩,
      Table.get?_modify_eq_some.mpr ⟨two,hasTwo,rfl⟩,?_,?_⟩
    · rw [same,same]
      exact photos_
    · intro other row' found
      obtain ⟨row,before,rfl⟩ := Table.get?_modify_eq_some.mp found
      exact only other row before

end matches_
end Dalm
