import Dalm.Steps

/-! Every change keeps the invariant, part by part. -/
namespace Dalm
open Relational
variable {settings : Settings} {r : Request} {t : Nat} {held : List RowKey} {w : BackendWorld}
  {db : Db} {events : List Event}

section photos

private theorem photoOk_status {users : Table User.id} {photo : Photo} {status : PhotoStatus}
    (ok : PhotoOk users photo) (alive : photo.status ≠ .deleted) (stays : status ≠ .deleted)
    (accepted : status.accepted → photo.status.accepted) :
    PhotoOk users {photo with status := status} :=
  ⟨ok.owned,ok.stored,⟨fun _ => stays,fun _ => ok.deleted.mpr alive⟩,fun now => ok.period (accepted now)⟩

private theorem photoOk_reject {users : Table User.id} {photo : Photo} {code : Option String}
    {message : String} (ok : PhotoOk users photo) (validating : photo.status = .validating) :
    PhotoOk users (PhotoValidationRepository.reject code message photo) := by
  refine ⟨ok.owned,ok.stored,⟨fun _ => ?_,fun _ => ok.deleted.mpr ?_⟩,fun accepted => ?_⟩
  · simp [PhotoValidationRepository.reject]
  · simp [validating]
  · cases accepted

private theorem photoOk_new {users : Table User.id} {arguments : HomeRepository.PhotoArguments}
    {mock : Bool} {now : Time} (owned : Onboarded users arguments.userId) :
    PhotoOk users (HomeRepository.newPhoto arguments mock now) := by
  refine ⟨owned,rfl,?_,fun accepted => ?_⟩
  · cases mock <;> simp [HomeRepository.newPhoto]
  · cases mock with
    | false => cases accepted
    | true => rfl

theorem Onboarded.known {users : Table User.id} {userId : UUID} (onboarded : Onboarded users userId) :
    (users.get? userId).isSome := by
  obtain ⟨row,found,_⟩ := onboarded
  rw [found]
  rfl

theorem Inv.onboarded {m userId : UUID} (inv : Inv settings w)
    (participates : (w.db.participants.get? (m,userId)).isSome) : Onboarded w.db.users userId := by
  obtain ⟨row,found⟩ := Option.isSome_iff_exists.mp participates
  obtain ⟨_,photo,stored,own,_⟩ := inv.matches_.participant m userId row found
  have owned := (inv.photos _ photo stored).owned
  rw [own] at owned
  exact owned

theorem Change.onboarded {userId : UUID} (change : Change settings r t held w db events)
    (onboarded : Onboarded w.db.users userId) : Onboarded db.users userId := by
  obtain ⟨row,there,named⟩ := onboarded
  rcases change.steady.users with same | ⟨registry,event,same,_,_,written⟩
  · exact ⟨row,same ▸ there,named⟩
  · obtain ⟨row',found,rfl | ⟨_,_,rewrites⟩⟩ := written.kept there
    · exact ⟨row',same ▸ found,named⟩
    · exact ⟨row',same ▸ found,rewrites.named named⟩

theorem Change.photosOk (change : Change settings r t held w db events)
    (ok : PhotosOk w.db.users w.db.photos) : PhotosOk db.users db.photos := by
  cases change with
  | observed | unblocked | postcardRead => exact ok
  | account asked written =>
    intro p photo found
    have sound := ok p photo found
    have change : Change settings r t held w _ _ := .account asked written
    exact ⟨change.onboarded sound.owned,sound.stored,sound.deleted,sound.period⟩
  | @postcardDeleted _ _ _ side => cases side <;> exact ok
  | abandoned | handed | retried | embeddingFailed => simpa using ok
  | @created arguments mock cleared _ _ _ _ _ asked onboarded locked written =>
    have released : PhotosOk w.db.users (HomeRepository.released w.db cleared).photos := by
      apply photosOk_modify ok
      · exact fun _ _ _ _ sound => ⟨sound.owned,sound.stored,sound.deleted,sound.period⟩
      · exact fun _ => rfl
    cases mock with
    | false =>
      obtain ⟨_,_,fresh,_,rfl⟩ := HomeRepository.createWrites_plain written
      exact photosOk_insert fresh released (photoOk_new onboarded)
    | true =>
      obtain ⟨_,_,_,fresh,_,_,_,rfl⟩ := HomeRepository.createWrites_mock written
      exact photosOk_insert fresh released (photoOk_new onboarded)
  | timedOut asked locked =>
    apply photosOk_modify ok
    intro p photo picked found sound
    have stale := (of_locked locked found picked).2
    exact photoOk_reject sound (of_decide_eq_true stale).2.1
  | @deleted _ _ now photo asked locked present accepted =>
    apply photosOk_modify ok
    intro p photo picked found sound
    exact ⟨sound.owned,sound.stored,by simp,fun searching => by cases searching⟩
  | @judged _ result _ judgedPhoto _ _ _ _ _ asked locked present owned owner validating written =>
    cases verdict : result.status with
    | passed =>
      obtain ⟨_,_,_,_,rfl⟩ := PhotoValidationRepository.resultWrites_passed verdict written
      apply photosOk_modify ok
      intro p photo picked found sound
      have picked := of_decide_eq_true picked
      rw [picked,Table.key_of_get? owner,owner] at found
      cases found
      have alive : judgedPhoto.status ≠ .deleted := by simp [validating]
      exact ⟨sound.owned,sound.stored,⟨fun _ => by simp [PhotoValidationRepository.accept],
        fun _ => sound.deleted.mpr alive⟩,fun _ => rfl⟩
    | rejected =>
      obtain ⟨_,_,rfl⟩ := PhotoValidationRepository.resultWrites_rejected verdict written
      apply photosOk_modify ok
      intro p photo picked found sound
      have picked := of_decide_eq_true picked
      rw [picked,Table.key_of_get? owner,owner] at found
      cases found
      exact photoOk_reject sound validating
  | @validationFailed _ _ _ failedPhoto _ _ _ _ _ asked locked present owned owner written =>
    by_cases validating : failedPhoto.status = .validating
    · obtain ⟨_,_,rfl⟩ := PhotoValidationRepository.failureWrites_validating validating written
      apply photosOk_modify (by simpa using ok)
      intro p photo picked found sound
      have picked := of_decide_eq_true picked
      rw [picked,Table.key_of_get? owner] at found
      cases Option.some.inj (found.symm.trans (by simpa using owner))
      exact photoOk_reject sound validating
    · obtain ⟨_,rfl⟩ := PhotoValidationRepository.failureWrites_other validating written
      simpa using ok
  | embedded asked locked present owned written =>
    obtain ⟨_,_,rfl⟩ := PhotoEmbeddingJobRepository.resultWrites_eq written
    simpa using ok
  | expired asked locked written =>
    obtain ⟨_,_,rfl⟩ := SqlExpirationStore.expireWrites_eq written
    apply photosOk_modify ok
    intro p photo picked found sound
    have due := (of_locked locked found picked).2
    have searching : photo.status = .searching := (of_decide_eq_true due).1
    exact photoOk_status sound (by simp [searching]) (by simp) (by simp [searching,PhotoStatus.accepted])
  | matched asked locked present apart searching timely checked written =>
    obtain ⟨_,_,_,_,_,rfl⟩ := SqlMatchFinalizationStore.finalizeWrites_eq written
    apply photosOk_modify ok
    intro p photo picked found sound
    have status : photo.status = .searching := by
      rcases of_decide_eq_true picked with rfl | rfl
      · rw [← Option.some.inj (present.1.symm.trans found)]
        exact searching.1
      · rw [← Option.some.inj (present.2.symm.trans found)]
        exact searching.2
    exact photoOk_status sound (by simp [status]) (by simp) (by simp [status,PhotoStatus.accepted])
  | blocked asked written =>
    obtain ⟨_,_,rfl⟩ := SafetyRepository.blockWrites_eq written
    exact ok
  | reportedUser asked written =>
    rcases ReportRepository.reportUserWrites_eq written with ⟨_,_,rfl⟩ | ⟨_,_,_,rfl⟩ <;> exact ok
  | @reportedPhoto _ _ own _ _ _ asked locked written =>
    obtain ⟨_,_,rfl⟩ := ReportRepository.reportPhotoWrites_eq written
    cases own <;> exact ok
  | sent asked pair locked parties turn reply written =>
    obtain ⟨_,_,_,rfl⟩ := PostcardRepository.sendWrites_eq written
    exact ok

end photos

section validations

private theorem agrees_closed {photo : PhotoStatus} {status : JobStatus}
    (judged : photo ≠ .validating) (refused : photo.accepted = false) : agrees photo status :=
  ⟨fun validating => absurd validating judged,fun accepted => by simp [refused] at accepted⟩

private theorem agrees_accepted {photo photo' : PhotoStatus} {status : JobStatus}
    (agree : agrees photo status) (before : photo.accepted) (judged : photo' ≠ .validating) :
    agrees photo' status :=
  ⟨fun validating => absurd validating judged,fun _ => agree.2 before⟩

private theorem agrees_open {photo : PhotoStatus} {status status' : JobStatus}
    (agree : agrees photo status) (before : status ≠ .passed)
    (after : photo = .validating → status' = .pending ∨ status' = .processing) :
    agrees photo status' :=
  ⟨after,fun accepted => absurd (agree.2 accepted) before⟩

theorem ValidationsOk.agrees {photos : Photos} {validations : Validations} {v : UUID}
    {row : PhotoValidation} {photo : Photo} (ok : ValidationsOk photos validations)
    (found : validations.get? v = some row) (owner : photos.get? row.photoId = some photo) :
    agrees photo.status row.status := by
  obtain ⟨v',row',present,same,agree⟩ := ok.validated row.photoId photo owner
  have equal := ok.unique v' row' v row present found same
  subst equal
  rw [← Option.some.inj (present.symm.trans found)]
  exact agree

private theorem claimable_open {leaseSeconds : Int} {now : Time} {job : Job}
    (accepted : claimable leaseSeconds now job) : job.status = .pending ∨ job.status = .processing := by
  rcases of_decide_eq_true accepted with waiting | running
  · exact .inl waiting.1
  · exact .inr running.1

private theorem validationsOk_updateJob {id : UUID} {job : Job} (assign : Job → Job)
    (keeps : ∀ row, (assign row).id = row.id) (ok : ValidationsOk w.db.photos w.db.validations)
    (found : w.db.job? .validation id = some job)
    (opened : job.status = .pending ∨ job.status = .processing)
    (photoKeeps : ∀ row, (assign row).photoId = row.photoId)
    (suits : ∀ photo, w.db.photos.get? job.photoId = some photo → photo.status = .validating →
      (assign job).status = .pending ∨ (assign job).status = .processing) :
    ValidationsOk (w.db.updateJob .validation id assign keeps).photos
      (w.db.updateJob .validation id assign keeps).validations := by
  obtain ⟨row,present,rfl⟩ := Option.map_eq_some_iff.mp found
  simp only [Db.updateJob,Db.updateValidation]
  apply validationsOk_modify ok
  · exact fun row => photoKeeps row.toJob
  intro v other photo picked there owner
  have picked := of_decide_eq_true picked
  subst picked
  cases Option.some.inj (there.symm.trans present)
  refine agrees_open (ok.agrees present owner) ?_ (suits photo owner)
  rcases opened with status | status <;> simp [status]

theorem Change.validationsOk (change : Change settings r t held w db events)
    (ok : ValidationsOk w.db.photos w.db.validations) :
    ValidationsOk db.photos db.validations := by
  cases change with
  | observed | unblocked | postcardRead | embeddingFailed | account => exact ok
  | @postcardDeleted _ _ _ side => cases side <;> exact ok
  | @abandoned queue _ _ _ _ asked locked found accepted useless =>
    cases queue with
    | validation =>
      apply validationsOk_updateJob (abandon _) (fun _ => rfl) ok found (claimable_open accepted) (fun _ => rfl)
      intro photo owner validating
      obtain ⟨other,present,differs⟩ := useless rfl
      cases Option.some.inj (present.symm.trans owner)
      exact absurd validating differs
    | embedding => exact ok
  | @handed queue _ _ _ _ asked locked found accepted =>
    cases queue with
    | validation =>
      exact validationsOk_updateJob (handOut _ _) (fun _ => rfl) ok found (claimable_open accepted)
        (fun _ => rfl) fun _ _ _ => .inr rfl
    | embedding => exact ok
  | @retried queue _ _ _ _ asked locked found owned below =>
    cases queue with
    | validation =>
      exact validationsOk_updateJob (retryLater _ _ _ _) (fun _ => rfl) ok found (.inr owned.1)
        (fun _ => rfl) fun _ _ _ => .inl rfl
    | embedding => exact ok
  | @created arguments mock cleared _ _ _ _ _ asked onboarded locked written =>
    have released : ValidationsOk (HomeRepository.released w.db cleared).photos w.db.validations := by
      apply validationsOk_modify_photos ok
      · exact fun _ _ _ _ _ agree => agree
      · exact fun _ => rfl
    cases mock with
    | false =>
      obtain ⟨_,_,fresh,freshRow,rfl⟩ := HomeRepository.createWrites_plain written
      exact validationsOk_insert fresh freshRow released rfl
        ⟨fun _ => .inl rfl,(by intro accepted; cases accepted)⟩
    | true =>
      obtain ⟨_,_,_,fresh,freshRow,_,_,rfl⟩ := HomeRepository.createWrites_mock written
      exact validationsOk_insert fresh freshRow released rfl
        ⟨(by intro validating; cases validating),fun _ => rfl⟩
  | timedOut | deleted =>
    simp only [Db.updatePhoto,Db.updatePhotos]
    apply validationsOk_modify_photos ok
    intros
    exact agrees_closed (by simp [HomeRepository.timeOut]) rfl
  | @judged _ result _ _ _ _ _ _ _ asked locked present owned owner validating written =>
    obtain ⟨row,found,rfl⟩ := Option.map_eq_some_iff.mp present
    have same := Table.key_of_get? owner
    cases verdict : result.status with
    | passed =>
      obtain ⟨_,_,_,_,rfl⟩ := PhotoValidationRepository.resultWrites_passed verdict written
      simp only [Db.updatePhoto,Db.updatePhotos,Db.updateValidation,same]
      refine validationsOk_judged ok (fun row => ?_) found fun photo => ?_
      · rfl
      refine ⟨(by intro validating; cases validating),fun _ => ?_⟩
      simp [PhotoValidationRepository.complete,PhotoValidationRepository.Verdict.status,verdict]
    | rejected =>
      obtain ⟨_,_,rfl⟩ := PhotoValidationRepository.resultWrites_rejected verdict written
      simp only [Db.updatePhoto,Db.updatePhotos,Db.updateValidation,same]
      refine validationsOk_judged ok (fun row => ?_) found fun photo => ?_
      · rfl
      · exact agrees_closed (by simp [PhotoValidationRepository.reject]) rfl
  | @validationFailed _ _ _ failedPhoto _ _ _ _ _ asked locked present owned owner written =>
    have same := Table.key_of_get? owner
    by_cases validating : failedPhoto.status = .validating
    · obtain ⟨_,_,rfl⟩ := PhotoValidationRepository.failureWrites_validating validating written
      obtain ⟨row,found,rfl⟩ := Option.map_eq_some_iff.mp present
      simp only [Db.updatePhoto,Db.updatePhotos,Db.updateJob,Db.updateValidation,same]
      refine validationsOk_judged ok (fun row => ?_) found fun photo => ?_
      · rfl
      · exact agrees_closed (by simp [PhotoValidationRepository.reject]) rfl
    · obtain ⟨_,rfl⟩ := PhotoValidationRepository.failureWrites_other validating written
      apply validationsOk_updateJob (PhotoValidationRepository.fail _ _) (fun _ => rfl) ok present (.inr owned.1) (fun _ => rfl)
      intro photo found status
      cases Option.some.inj (found.symm.trans owner)
      exact absurd status validating
  | embedded asked locked present owned written =>
    obtain ⟨_,_,rfl⟩ := PhotoEmbeddingJobRepository.resultWrites_eq written
    exact ok
  | expired asked locked written =>
    obtain ⟨_,_,rfl⟩ := SqlExpirationStore.expireWrites_eq written
    simp only [Db.updatePhotos]
    apply validationsOk_modify_photos ok
    intro p photo status picked found agree
    have due := (of_locked locked found picked).2
    have searching : photo.status = .searching := (of_decide_eq_true due).1
    exact agrees_accepted agree (by simp [searching,PhotoStatus.accepted]) (by simp)
  | matched asked locked present apart searching timely checked written =>
    obtain ⟨_,_,_,_,_,rfl⟩ := SqlMatchFinalizationStore.finalizeWrites_eq written
    simp only [Db.updatePhotos]
    apply validationsOk_modify_photos ok
    intro p photo status picked found agree
    refine agrees_accepted agree ?_ (by simp)
    rcases of_decide_eq_true picked with rfl | rfl
    · rw [← Option.some.inj (present.1.symm.trans found),searching.1]
      rfl
    · rw [← Option.some.inj (present.2.symm.trans found),searching.2]
      rfl
  | blocked asked written =>
    obtain ⟨_,_,rfl⟩ := SafetyRepository.blockWrites_eq written
    exact ok
  | reportedUser asked written =>
    rcases ReportRepository.reportUserWrites_eq written with ⟨_,_,rfl⟩ | ⟨_,_,_,rfl⟩ <;> exact ok
  | @reportedPhoto _ _ own _ _ _ asked locked written =>
    obtain ⟨_,_,rfl⟩ := ReportRepository.reportPhotoWrites_eq written
    cases own <;> exact ok
  | sent asked pair locked parties turn reply written =>
    obtain ⟨_,_,_,rfl⟩ := PostcardRepository.sendWrites_eq written
    exact ok

end validations

section embeddings

private theorem embeddingsOk_open_validation {id : UUID} {job : Job} (assign : Job → Job)
    (keeps : ∀ row, (assign row).id = row.id)
    (ok : EmbeddingsOk w.db.validations w.db.embeddingJobs w.db.embeddings)
    (found : w.db.job? .validation id = some job) (opened : job.status ≠ .passed)
    (remains : (assign job).status ≠ .passed)
    (photoKeeps : ∀ row, (assign row).photoId = row.photoId) :
    EmbeddingsOk (w.db.updateJob .validation id assign keeps).validations
      (w.db.updateJob .validation id assign keeps).embeddingJobs
      (w.db.updateJob .validation id assign keeps).embeddings := by
  obtain ⟨row,present,rfl⟩ := Option.map_eq_some_iff.mp found
  simp only [Db.updateJob,Db.updateValidation]
  refine embeddingsOk_modify_validations ok (fun row => photoKeeps row.toJob) ?_
  intro v other picked there
  rw [of_decide_eq_true picked,present] at there
  cases there
  simp [opened,remains]

private theorem embeddingsOk_open_job {id : UUID} {job : Job} (assign : Job → Job)
    (keeps : ∀ row, (assign row).id = row.id)
    (ok : EmbeddingsOk w.db.validations w.db.embeddingJobs w.db.embeddings)
    (found : w.db.job? .embedding id = some job) (opened : job.status ≠ .completed)
    (remains : (assign job).status ≠ .completed)
    (photoKeeps : ∀ row, (assign row).photoId = row.photoId) :
    EmbeddingsOk (w.db.updateJob .embedding id assign keeps).validations
      (w.db.updateJob .embedding id assign keeps).embeddingJobs
      (w.db.updateJob .embedding id assign keeps).embeddings := by
  simp only [Db.updateJob]
  exact embeddingsOk_update_job ok photoKeeps found opened remains

private theorem embeddingsOk_updateJob {queue : Queue} {id : UUID} {job : Job} (assign : Job → Job)
    (keeps : ∀ row, (assign row).id = row.id)
    (ok : EmbeddingsOk w.db.validations w.db.embeddingJobs w.db.embeddings)
    (found : w.db.job? queue id = some job)
    (opened : job.status = .pending ∨ job.status = .processing)
    (remains : (assign job).status ≠ .passed ∧ (assign job).status ≠ .completed)
    (photoKeeps : ∀ row, (assign row).photoId = row.photoId) :
    EmbeddingsOk (w.db.updateJob queue id assign keeps).validations
      (w.db.updateJob queue id assign keeps).embeddingJobs
      (w.db.updateJob queue id assign keeps).embeddings := by
  have unsettled : job.status ≠ .passed ∧ job.status ≠ .completed := by
    rcases opened with status | status <;> simp [status]
  cases queue with
  | validation =>
    exact embeddingsOk_open_validation assign keeps ok found unsettled.1 remains.1 photoKeeps
  | embedding =>
    exact embeddingsOk_open_job assign keeps ok found unsettled.2 remains.2 photoKeeps

theorem EmbeddingsOk.fresh {validations : Validations} {jobs : EmbeddingJobs}
    {embeddings : Embeddings} {e : UUID} {job : Job} (ok : EmbeddingsOk validations jobs embeddings)
    (found : jobs.get? e = some job) (opened : job.status ≠ .completed) :
    embeddings.get? job.photoId = none := by
  have stored := mt (ok.completed e job found).mpr opened
  simpa using stored

theorem Change.embeddingsOk (change : Change settings r t held w db events)
    (validated : ValidationsOk w.db.photos w.db.validations)
    (ok : EmbeddingsOk w.db.validations w.db.embeddingJobs w.db.embeddings) :
    EmbeddingsOk db.validations db.embeddingJobs db.embeddings := by
  cases change with
  | observed | timedOut | deleted | unblocked | postcardRead | account => exact ok
  | @postcardDeleted _ _ _ side => cases side <;> exact ok
  | abandoned asked locked found accepted useless =>
    exact embeddingsOk_updateJob (abandon _) (fun _ => rfl) ok found (claimable_open accepted)
      (by simp [abandon]) fun _ => rfl
  | handed asked locked found accepted =>
    exact embeddingsOk_updateJob (handOut _ _) (fun _ => rfl) ok found (claimable_open accepted)
      (by simp [handOut]) fun _ => rfl
  | retried asked locked found owned below =>
    exact embeddingsOk_updateJob (retryLater _ _ _ _) (fun _ => rfl) ok found (.inr owned.1)
      (by simp [retryLater]) fun _ => rfl
  | @created arguments mock cleared _ _ _ _ _ asked onboarded locked written =>
    have released : ValidationsOk (HomeRepository.released w.db cleared).photos w.db.validations := by
      apply validationsOk_modify_photos validated
      · exact fun _ _ _ _ _ agree => agree
      · exact fun _ => rfl
    cases mock with
    | false =>
      obtain ⟨_,_,fresh,freshRow,rfl⟩ := HomeRepository.createWrites_plain written
      exact embeddingsOk_insert_validation freshRow released ok fresh (by simp [HomeRepository.newValidation])
    | true =>
      obtain ⟨_,_,_,fresh,freshRow,freshJob,_,rfl⟩ := HomeRepository.createWrites_mock written
      exact embeddingsOk_mock freshRow freshJob released ok fresh rfl rfl rfl rfl
  | @judged _ result _ judgedPhoto _ _ _ _ _ asked locked present owned owner validating written =>
    obtain ⟨row,found,rfl⟩ := Option.map_eq_some_iff.mp present
    have same : judgedPhoto.id = row.photoId := Table.key_of_get? owner
    have opened : row.status ≠ .passed := by
      rcases owned with status | status <;> simp [status]
    cases verdict : result.status with
    | passed =>
      obtain ⟨_,_,freshJob,_,rfl⟩ := PhotoValidationRepository.resultWrites_passed verdict written
      simp only [Db.updatePhoto,Db.updatePhotos,Db.updateValidation]
      refine embeddingsOk_passed freshJob validated ok (fun row => ?_) found opened ?_ same rfl
      · rfl
      · simp [PhotoValidationRepository.complete,PhotoValidationRepository.Verdict.status,verdict]
    | rejected =>
      obtain ⟨_,_,rfl⟩ := PhotoValidationRepository.resultWrites_rejected verdict written
      simp only [Db.updatePhoto,Db.updatePhotos,Db.updateValidation]
      refine embeddingsOk_modify_validations ok (fun row => ?_) fun v other picked there => ?_
      · rfl
      · rw [of_decide_eq_true picked,found] at there
        cases there
        simp [PhotoValidationRepository.complete,PhotoValidationRepository.Verdict.status,verdict,
          opened]
  | @validationFailed _ report _ failedPhoto _ now _ _ _ asked locked present owned owner written =>
    have failed := embeddingsOk_open_validation (PhotoValidationRepository.fail report now) (fun _ => rfl)
      ok present (by simp [owned.1]) (by simp [PhotoValidationRepository.fail]) fun _ => rfl
    by_cases validating : failedPhoto.status = .validating
    · obtain ⟨_,_,rfl⟩ := PhotoValidationRepository.failureWrites_validating validating written
      exact failed
    · obtain ⟨_,rfl⟩ := PhotoValidationRepository.failureWrites_other validating written
      exact failed
  | embeddingFailed asked locked present owned =>
    exact embeddingsOk_open_job (PhotoEmbeddingJobRepository.fail _ _) (fun _ => rfl) ok present
      (by simp [owned.1]) (by simp [PhotoEmbeddingJobRepository.fail]) fun _ => rfl
  | embedded asked locked present owned written =>
    have fresh := ok.fresh present (by simp [owned.1])
    have same := PhotoEmbeddingJobRepository.resultWrites_fresh fresh written
    subst same
    simp only [Db.updateJob,Table.key_of_get? present]
    exact embeddingsOk_completed fresh ok (fun _ => rfl) present rfl rfl
  | expired asked locked written =>
    obtain ⟨_,_,rfl⟩ := SqlExpirationStore.expireWrites_eq written
    exact ok
  | matched asked locked present apart searching timely checked written =>
    obtain ⟨_,_,_,_,_,rfl⟩ := SqlMatchFinalizationStore.finalizeWrites_eq written
    exact ok
  | blocked asked written =>
    obtain ⟨_,_,rfl⟩ := SafetyRepository.blockWrites_eq written
    exact ok
  | reportedUser asked written =>
    rcases ReportRepository.reportUserWrites_eq written with ⟨_,_,rfl⟩ | ⟨_,_,_,rfl⟩ <;> exact ok
  | @reportedPhoto _ _ own _ _ _ asked locked written =>
    obtain ⟨_,_,rfl⟩ := ReportRepository.reportPhotoWrites_eq written
    cases own <;> exact ok
  | sent asked pair locked parties turn reply written =>
    obtain ⟨_,_,_,rfl⟩ := PostcardRepository.sendWrites_eq written
    exact ok

end embeddings

section matches_

theorem Change.matchesOk (change : Change settings r t held w db events)
    (ok : MatchesOk w.db.photos w.db.matches_ w.db.participants) :
    MatchesOk db.photos db.matches_ db.participants := by
  cases change with
  | observed | unblocked | postcardRead | account => exact ok
  | @postcardDeleted _ _ _ side => cases side <;> exact ok
  | abandoned | handed | retried | embeddingFailed => simpa using ok
  | @created arguments mock cleared _ _ _ _ _ asked onboarded locked written =>
    have released : MatchesOk (HomeRepository.released w.db cleared).photos w.db.matches_
        w.db.participants := by
      apply matchesOk_modify_photos ok
      · exact fun _ _ _ _ => ⟨rfl,Iff.rfl⟩
      · exact fun _ => rfl
    cases mock with
    | false =>
      obtain ⟨_,_,fresh,_,rfl⟩ := HomeRepository.createWrites_plain written
      exact matchesOk_insert_photo fresh released (by simp [HomeRepository.newPhoto])
    | true =>
      obtain ⟨_,_,_,fresh,_,_,_,rfl⟩ := HomeRepository.createWrites_mock written
      exact matchesOk_insert_photo fresh released (by simp [HomeRepository.newPhoto])
  | timedOut asked locked =>
    simp only [Db.updatePhotos]
    refine matchesOk_modify_photos ok fun p photo picked found => ⟨rfl,?_⟩
    have stale := (of_locked locked found picked).2
    have validating : photo.status = .validating := (of_decide_eq_true stale).2.1
    simp [HomeRepository.timeOut,validating]
  | @deleted _ _ _ photo asked locked present accepted =>
    simp only [Db.updatePhoto,Db.updatePhotos]
    refine matchesOk_modify_photos ok fun p other picked found => ⟨rfl,?_⟩
    rw [of_decide_eq_true picked,present] at found
    cases found
    have unmatched : photo.status ≠ .matched := by
      intro status
      simp [status,HomeRepository.isDeletable] at accepted
    simp [unmatched]
  | @judged _ result _ judgedPhoto _ _ _ _ _ asked locked present owned owner validating written =>
    have same := Table.key_of_get? owner
    have judgement : ∀ judge : Photo → Photo, (∀ row, (judge row).userId = row.userId) →
        (∀ row, (judge row).status ≠ .matched) → ∀ p photo, decide (p = judgedPhoto.id) = true →
        w.db.photos.get? p = some photo →
        (judge photo).userId = photo.userId ∧ ((judge photo).status = .matched ↔ photo.status = .matched) := by
      intro judge owns judges p photo picked found
      rw [of_decide_eq_true picked,same,owner] at found
      cases found
      exact ⟨owns judgedPhoto,by simp [judges,validating]⟩
    cases verdict : result.status with
    | passed =>
      obtain ⟨_,_,_,_,rfl⟩ := PhotoValidationRepository.resultWrites_passed verdict written
      simp only [Db.updatePhoto,Db.updatePhotos]
      exact matchesOk_modify_photos ok (judgement _ (fun _ => rfl) fun _ => by
        simp [PhotoValidationRepository.accept])
    | rejected =>
      obtain ⟨_,_,rfl⟩ := PhotoValidationRepository.resultWrites_rejected verdict written
      simp only [Db.updatePhoto,Db.updatePhotos]
      exact matchesOk_modify_photos ok (judgement _ (fun _ => rfl) fun _ => by
        simp [PhotoValidationRepository.reject])
  | @validationFailed _ _ _ failedPhoto _ _ _ _ _ asked locked present owned owner written =>
    by_cases validating : failedPhoto.status = .validating
    · obtain ⟨_,_,rfl⟩ := PhotoValidationRepository.failureWrites_validating validating written
      simp only [Db.updatePhoto,Db.updatePhotos,Db.updateJob,Db.updateValidation]
      refine matchesOk_modify_photos ok fun p photo picked found => ⟨rfl,?_⟩
      rw [of_decide_eq_true picked,Table.key_of_get? owner,owner] at found
      cases found
      simp [PhotoValidationRepository.reject,validating]
    · obtain ⟨_,rfl⟩ := PhotoValidationRepository.failureWrites_other validating written
      simpa using ok
  | embedded asked locked present owned written =>
    obtain ⟨_,_,rfl⟩ := PhotoEmbeddingJobRepository.resultWrites_eq written
    exact ok
  | expired asked locked written =>
    obtain ⟨_,_,rfl⟩ := SqlExpirationStore.expireWrites_eq written
    simp only [Db.updatePhotos]
    refine matchesOk_modify_photos ok fun p photo picked found => ⟨rfl,?_⟩
    have due := (of_locked locked found picked).2
    have searching : photo.status = .searching := (of_decide_eq_true due).1
    simp [searching]
  | matched asked locked present apart searching timely checked written =>
    obtain ⟨_,freshMatch,freshFirst,freshSecond,_,rfl⟩ :=
      SqlMatchFinalizationStore.finalizeWrites_eq written
    simp only [Db.updatePhotos]
    exact matchesOk_finalized freshMatch freshFirst freshSecond ok present apart searching
  | blocked asked written =>
    obtain ⟨_,_,rfl⟩ := SafetyRepository.blockWrites_eq written
    exact ok
  | reportedUser asked written =>
    rcases ReportRepository.reportUserWrites_eq written with ⟨_,_,rfl⟩ | ⟨_,_,_,rfl⟩ <;> exact ok
  | @reportedPhoto _ _ own _ _ _ asked locked written =>
    obtain ⟨_,_,rfl⟩ := ReportRepository.reportPhotoWrites_eq written
    cases own with
    | none => exact ok
    | some own =>
      simp only [Db.hideParticipant]
      exact matchesOk_modify_participants ok fun _ => rfl
  | sent asked pair locked parties turn reply written =>
    obtain ⟨_,_,_,rfl⟩ := PostcardRepository.sendWrites_eq written
    exact ok

end matches_

section history

theorem jobEvents_record (queue : Queue) (id : UUID) (log : List (Nat × Event)) :
    jobEvents queue id (log ++ events.map fun event => (t,event)) =
      jobEvents queue id log ++ events.filterMap (Event.ofJob? queue id) := by
  simp [jobEvents,List.filterMap_map]

theorem blockedAt_record (u v : UUID) (log : List (Nat × Event)) :
    blockedAt u v (log ++ events.map fun event => (t,event)) =
      events.foldl (standsAfter u v) (blockedAt u v log) := by
  simp [blockedAt,Function.comp_def]

theorem Change.leasesOk (change : Change settings r t held w db events) (ok : LeasesOk settings w) :
    LeasesOk settings ((World.mk db w.log).record t events) := by
  refine ⟨?_,?_⟩
  · intro queue id job' found
    simp only [World.log_record,jobEvents_record]
    cases before : w.db.job? queue id with
    | none =>
      obtain ⟨silent,begins⟩ := change.jobs.absent queue id before
      refine ⟨job'.item,begins job' found,?_⟩
      rw [silent,ok.absent queue id before]
      rfl
    | some job =>
      obtain ⟨job'',after,follows⟩ := change.jobs.present queue id job before
      cases Option.some.inj (found.symm.trans after)
      obtain ⟨start,new,ran⟩ := ok.replayed queue id job before
      refine ⟨start,new,?_⟩
      rcases follows.moved with ⟨rfl,silent⟩ | ⟨_,event,one,applied⟩
      · rw [silent,List.append_nil,ran]
      · rw [one]
        exact Lease.replay_concat ran applied
  · intro queue id missing
    simp only [World.log_record,jobEvents_record]
    cases before : w.db.job? queue id with
    | none => rw [ok.absent queue id before,(change.jobs.absent queue id before).1,List.append_nil]
    | some job =>
      obtain ⟨job',after,_⟩ := change.jobs.present queue id job before
      exact absurd (missing.symm.trans after) (by simp)

/-- The events the history's part of the invariant does not read. -/
def Event.isQuiet : Event → Bool
  | .blocked _ _ => false
  | .unblocked _ _ => false
  | .embeddingStored _ => false
  | .photoDeleted _ => false
  | .matched _ _ _ _ => false
  | _ => true

def hasStatus (db : Db) (p : UUID) (status : PhotoStatus) : Prop :=
  ∃ photo, db.photos.get? p = some photo ∧ photo.status = status

/-- What the events of a change tell is so. -/
structure Recorded (before after : Db) (events : List Event) : Prop where
  blocks : ∀ u v, (after.blocks.get? (u,v)).isSome =
    events.foldl (standsAfter u v) (before.blocks.get? (u,v)).isSome
  stored : ∀ p, (after.embeddings.get? p).isSome ↔
    (before.embeddings.get? p).isSome ∨ .embeddingStored p ∈ events
  deleted : ∀ p, .photoDeleted p ∈ events → hasStatus after p .deleted
  matched : ∀ m a b now, .matched m a b now ∈ events →
    hasStatus after a .matched ∧ hasStatus after b .matched

private theorem recorded_quiet {before after : Db} (blocks : after.blocks = before.blocks)
    (embeddings : after.embeddings = before.embeddings) (quiet : ∀ event ∈ events, event.isQuiet) :
    Recorded before after events := by
  refine ⟨?_,?_,?_,?_⟩
  · intro u v
    rw [blocks]
    clear blocks embeddings
    induction events with
    | nil => rfl
    | cons event events ih =>
      have first := quiet event List.mem_cons_self
      have rest := ih fun other member => quiet other (List.mem_cons_of_mem _ member)
      cases event <;> first | exact rest | cases first
  · intro p
    rw [embeddings,or_iff_left]
    exact fun member => by cases quiet _ member
  · exact fun p member => by cases quiet _ member
  · exact fun m a b now member => by cases quiet _ member

private theorem recorded_block {before after : Db} {blocker blocked : UUID} {start : Time}
    (fresh : before.blocks.get? (blocker,blocked) = none)
    (blocks : after.blocks = before.blocks.insert ⟨blocker,blocked,start⟩ fresh)
    (embeddings : after.embeddings = before.embeddings) :
    Recorded before after [.blocked blocker blocked] := by
  refine ⟨?_,?_,by simp,by simp⟩
  · intro u v
    rw [blocks,Table.get?_insert]
    simp only [List.foldl_cons,List.foldl_nil,standsAfter]
    split <;> rfl
  · simp [embeddings]

theorem Change.recorded (change : Change settings r t held w db events)
    (ok : EmbeddingsOk w.db.validations w.db.embeddingJobs w.db.embeddings) :
    Recorded w.db db events := by
  cases change with
  | @observed event observation =>
    refine recorded_quiet rfl rfl ?_
    cases event <;> simp [Event.isObservation] at observation <;> simp [Event.isQuiet]
  | timedOut | postcardRead | account => exact recorded_quiet rfl rfl (by simp [Event.isQuiet])
  | @postcardDeleted _ _ _ side => cases side <;> exact recorded_quiet rfl rfl (by simp [Event.isQuiet])
  | abandoned | handed | retried | embeddingFailed =>
    exact recorded_quiet (by simp) (by simp) (by simp [Event.isQuiet])
  | @created arguments mock cleared _ _ _ _ _ asked onboarded locked written =>
    cases mock with
    | false =>
      obtain ⟨_,rfl,_,_,rfl⟩ := HomeRepository.createWrites_plain written
      exact recorded_quiet rfl rfl (by simp [Event.isQuiet])
    | true =>
      obtain ⟨_,rfl,_,_,_,_,_,rfl⟩ := HomeRepository.createWrites_mock written
      exact recorded_quiet rfl rfl (by simp [Event.isQuiet])
  | @deleted _ photoId now photo asked locked present accepted =>
    refine ⟨fun _ _ => rfl,by simp [Db.updatePhoto,Db.updatePhotos],?_,by simp⟩
    intro p member
    cases List.mem_singleton.mp member
    exact ⟨_,Table.get?_modify_eq_some.mpr ⟨photo,present,rfl⟩,by simp⟩
  | @unblocked blocker blocked asked =>
    refine ⟨?_,by simp [Db.deleteBlock],by simp,by simp⟩
    intro u v
    simp only [Db.deleteBlock,Table.get?_erase,List.foldl_cons,List.foldl_nil,standsAfter]
    rcases eq_or_ne (u,v) (blocker,blocked) with same | different
    · simp [same]
    · rw [if_neg (by simpa using different),if_neg different.symm]
  | @judged _ result _ _ _ _ _ _ _ asked locked present owned owner validating written =>
    cases verdict : result.status with
    | passed =>
      obtain ⟨rfl,_,_,_,rfl⟩ := PhotoValidationRepository.resultWrites_passed verdict written
      exact recorded_quiet rfl rfl (by simp [Event.isQuiet])
    | rejected =>
      obtain ⟨rfl,_,rfl⟩ := PhotoValidationRepository.resultWrites_rejected verdict written
      exact recorded_quiet rfl rfl (by simp [Event.isQuiet])
  | @validationFailed _ _ _ failedPhoto _ _ _ _ _ asked locked present owned owner written =>
    by_cases validating : failedPhoto.status = .validating
    · obtain ⟨rfl,_,rfl⟩ := PhotoValidationRepository.failureWrites_validating validating written
      exact recorded_quiet rfl rfl (by simp [Event.isQuiet])
    · obtain ⟨rfl,rfl⟩ := PhotoValidationRepository.failureWrites_other validating written
      exact recorded_quiet rfl rfl (by simp [Event.isQuiet])
  | embedded asked locked present owned written =>
    have fresh := ok.fresh present (by simp [owned.1])
    obtain ⟨rfl,_⟩ := PhotoEmbeddingJobRepository.resultWrites_eq written
    have same := PhotoEmbeddingJobRepository.resultWrites_fresh fresh written
    subst same
    refine ⟨fun _ _ => rfl,?_,by simp,by simp⟩
    intro p
    simp only [Table.get?_insert]
    split
    next equal => simp [equal]
    next different => simp [Ne.symm different]
  | expired asked locked written =>
    obtain ⟨rfl,_,rfl⟩ := SqlExpirationStore.expireWrites_eq written
    exact recorded_quiet rfl rfl (by simp [Event.isQuiet])
  | @matched first second _ _ _ _ _ _ asked locked present apart searching timely checked written =>
    obtain ⟨rfl,_,_,_,_,rfl⟩ := SqlMatchFinalizationStore.finalizeWrites_eq written
    refine ⟨fun _ _ => rfl,by simp [Db.updatePhotos],by simp,?_⟩
    intro m a b now member
    cases List.mem_singleton.mp member
    exact ⟨⟨_,Table.get?_modify_eq_some.mpr ⟨first,present.1,rfl⟩,by simp⟩,
      ⟨_,Table.get?_modify_eq_some.mpr ⟨second,present.2,rfl⟩,by simp⟩⟩
  | blocked asked written =>
    obtain ⟨rfl,fresh,rfl⟩ := SafetyRepository.blockWrites_eq written
    exact recorded_block fresh rfl rfl
  | reportedUser asked written =>
    rcases ReportRepository.reportUserWrites_eq written with ⟨_,rfl,rfl⟩ | ⟨freshReport,fresh,rfl,rfl⟩
    · exact recorded_quiet rfl rfl (by simp [Event.isQuiet])
    · have block : Recorded w.db
          {w.db with
            reports := w.db.reports.insert _ freshReport
            blocks := w.db.blocks.insert _ fresh} [.blocked _ _] :=
        recorded_block fresh rfl rfl
      exact ⟨block.blocks,by simp,by simp,by simp⟩
  | @reportedPhoto _ _ own _ _ _ asked locked written =>
    obtain ⟨rfl,_,rfl⟩ := ReportRepository.reportPhotoWrites_eq written
    cases own <;> exact recorded_quiet rfl rfl (by simp [Event.isQuiet])
  | sent asked pair locked parties turn reply written =>
    obtain ⟨rfl,_,_,rfl⟩ := PostcardRepository.sendWrites_eq written
    exact recorded_quiet rfl rfl (by simp [Event.isQuiet])

theorem Change.final {p : UUID} {status : PhotoStatus} (change : Change settings r t held w db events)
    (before : hasStatus w.db p status) (final : status = .matched ∨ status = .deleted) :
    hasStatus db p status := by
  obtain ⟨photo,found,rfl⟩ := before
  obtain ⟨photo',after,_,follows⟩ := change.photo found
  refine ⟨photo',after,follows.status.resolve_right fun moves => ?_⟩
  rcases final with status | status <;> rw [status] at moves <;> cases moves

theorem Change.historyOk (change : Change settings r t held w db events)
    (embeddings : EmbeddingsOk w.db.validations w.db.embeddingJobs w.db.embeddings)
    (ok : HistoryOk w) : HistoryOk ((World.mk db w.log).record t events) := by
  have recorded := change.recorded embeddings
  refine ⟨?_,?_,?_,?_⟩
  · intro u v
    rw [World.log_record,blockedAt_record,← ok.blocks]
    exact recorded.blocks u v
  · intro p
    refine (recorded.stored p).trans ?_
    rw [ok.stored p]
    simp only [World.log_record,List.mem_append,List.mem_map,Prod.mk.injEq]
    constructor
    · rintro (⟨u,member⟩ | member)
      · exact ⟨u,.inl member⟩
      · exact ⟨t,.inr ⟨_,member,rfl,rfl⟩⟩
    · rintro ⟨u,member | ⟨_,member,rfl,rfl⟩⟩
      · exact .inl ⟨u,member⟩
      · exact .inr member
  · intro u p member
    simp only [World.log_record,List.mem_append,List.mem_map,Prod.mk.injEq] at member
    rcases member with member | ⟨_,member,_,rfl⟩
    · exact change.final (ok.deleted u p member) (.inr rfl)
    · exact recorded.deleted p member
  · intro u m a b now member
    simp only [World.log_record,List.mem_append,List.mem_map,Prod.mk.injEq] at member
    rcases member with member | ⟨_,member,_,rfl⟩
    · obtain ⟨first,second⟩ := ok.matched u m a b now member
      exact ⟨change.final first (.inl rfl),change.final second (.inl rfl)⟩
    · exact recorded.matched m a b now member

end history

/-- A postcard is between the two participants of its match. -/
theorem Change.postcardsOk (change : Change settings r t held w db events)
    (ok : PostcardsOk w.db.participants w.db.postcards) : PostcardsOk db.participants db.postcards := by
  have stays : ∀ {k}, (w.db.participants.get? k).isSome → (db.participants.get? k).isSome := by
    intro k there
    obtain ⟨row,found⟩ := Option.isSome_iff_exists.mp there
    obtain ⟨row',after,_⟩ := change.steady.participant k row found
    rw [after]
    rfl
  have each : ∀ card ∈ db.postcards.rows, (db.participants.get? (card.matchId,card.senderId)).isSome ∧
      (db.participants.get? (card.matchId,card.receiverId)).isSome ∧ card.senderId ≠ card.receiverId := by
    intro card member
    have envelope := List.mem_map_of_mem (f := Postcard.envelope) member
    have before : card.envelope ∈ w.db.postcards.rows.map Postcard.envelope →
        (db.participants.get? (card.matchId,card.senderId)).isSome ∧
          (db.participants.get? (card.matchId,card.receiverId)).isSome ∧
            card.senderId ≠ card.receiverId := by
      intro inside
      obtain ⟨old,there,same⟩ := List.mem_map.mp inside
      have parts : old.envelope.matchId = card.matchId ∧ old.envelope.senderId = card.senderId ∧
          old.envelope.receiverId = card.receiverId := by
        rw [same]
        exact ⟨rfl,rfl,rfl⟩
      rw [← parts.1,← parts.2.1,← parts.2.2]
      exact ⟨stays (ok.sender old there),stays (ok.receiver old there),ok.apart old there⟩
    rcases change.steady.cards with same | ⟨draft,first,second,receiverId,start,ids,sending,_,same⟩
    · exact before (same ▸ envelope)
    · rw [same,List.mem_append] at envelope
      rcases envelope with inside | last
      · exact before inside
      · have new := List.mem_singleton.mp last
        have parts : card.envelope.matchId = draft.matchId ∧ card.envelope.senderId = draft.userId ∧
            card.envelope.receiverId = receiverId := by
          rw [new]
          exact ⟨rfl,rfl,rfl⟩
        change (db.participants.get? (card.envelope.matchId,card.envelope.senderId)).isSome ∧
          (db.participants.get? (card.envelope.matchId,card.envelope.receiverId)).isSome ∧
            card.envelope.senderId ≠ card.envelope.receiverId
        have one := stays (by rw [sending.pair.firstRow]; rfl)
        have other := stays (by rw [sending.pair.secondRow]; rfl)
        rw [parts.1,parts.2.1,parts.2.2]
        rcases sending.parties with ⟨user,receiver⟩ | ⟨user,receiver⟩
        · rw [user,receiver]
          exact ⟨one,other,sending.pair.apart⟩
        · rw [user,receiver]
          exact ⟨other,one,sending.pair.apart.symm⟩
  exact ⟨fun card member => (each card member).1,fun card member => (each card member).2.1,
    fun card member => (each card member).2.2⟩

theorem Change.keep (change : Change settings r t held w db events) (inv : Inv settings w) :
    Inv settings ((World.mk db w.log).record t events) where
  photos := change.photosOk inv.photos
  validations := change.validationsOk inv.validations
  embeddings := change.embeddingsOk inv.validations inv.embeddings
  matches_ := change.matchesOk inv.matches_
  postcards := change.postcardsOk inv.postcards
  leases := change.leasesOk inv.leases
  history := change.historyOk inv.embeddings inv.history

/-- The changes of the service as a protocol: held rows stay, and the invariant holds. -/
def protocol (settings : Settings) : Protocol Db RowKey Event Request where
  step r t held w w' := ∃ db events, Change settings r t held w db events ∧
    w' = (World.mk db w.log).record t events
  inv := Inv settings
  records := by
    rintro r t held w w' ⟨db,events,_,rfl⟩
    exact ⟨db,events,rfl⟩
  keep := by
    rintro r t held w w' ⟨db,events,change,rfl⟩ inv
    exact change.keep inv
  frame := by
    rintro r t held w w' ⟨db,events,change,rfl⟩ _ key outside present
    exact change.frame key outside present

end Dalm
