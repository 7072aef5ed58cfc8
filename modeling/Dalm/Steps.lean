import Dalm.Preservation

/-! What one change makes of a row that was there: it stays, what identifies it stays,
and if anything of it changed then the change had it locked. -/
namespace Dalm
open Relational
variable {settings : Settings} {r : Request} {t : Nat} {held : List RowKey} {w : BackendWorld}
  {db : Db} {events : List Event}

structure Photo.Follows (photo photo' : Photo) : Prop where
  owner : photo'.userId = photo.userId
  dated : photo'.registeredDate = photo.registeredDate
  registered : photo'.registeredAt = photo.registeredAt
  stored : photo'.storageKey = photo.storageKey
  checksum : photo'.checksum = photo.checksum ∨ photo'.checksum = none
  status : photo'.status = photo.status ∨ photo.status.allowed photo'.status
  verdict : photo.status ≠ .validating → photo'.rejectionCode = photo.rejectionCode ∧
    photo'.rejectionMessage = photo.rejectionMessage

theorem Photo.Follows.refl (photo : Photo) : photo.Follows photo :=
  ⟨rfl,rfl,rfl,rfl,.inl rfl,.inl rfl,fun _ => ⟨rfl,rfl⟩⟩

private theorem follows_modify {photos : Photos} {chosen : UUID → Bool} {assign : Photo → Photo}
    {keeps} {p : UUID} {photo : Photo} (found : photos.get? p = some photo)
    (each : chosen p → .photo p ∈ held ∧ photo.Follows (assign photo)) :
    ∃ photo', (photos.modify chosen assign keeps).get? p = some photo' ∧
      (photo' = photo ∨ .photo p ∈ held) ∧ photo.Follows photo' := by
  refine ⟨_,Table.get?_modify_eq_some.mpr ⟨photo,found,rfl⟩,?_⟩
  split
  next picked => exact ⟨.inr (each picked).1,(each picked).2⟩
  next => exact ⟨.inl rfl,.refl photo⟩

theorem of_locked {accepted : Photo → Bool} {rows : List ((_ : UUID) × Photo)} {p : UUID}
    {photo : Photo} (locked : lockedRows held w.db accepted rows)
    (found : w.db.photos.get? p = some photo) (picked : (rows.any fun row => row.1 = p) = true) :
    .photo p ∈ held ∧ accepted photo := by
  obtain ⟨row,member,same⟩ := List.any_eq_true.mp picked
  have same := of_decide_eq_true same
  subst same
  obtain ⟨holds,present,ok⟩ := locked row member
  cases Option.some.inj (present.symm.trans found)
  exact ⟨holds,ok⟩

theorem Change.photo {p : UUID} {photo : Photo} (change : Change settings r t held w db events)
    (found : w.db.photos.get? p = some photo) :
    ∃ photo', db.photos.get? p = some photo' ∧ (photo' = photo ∨ .photo p ∈ held) ∧
      photo.Follows photo' := by
  have unchanged : ∃ photo', w.db.photos.get? p = some photo' ∧
      (photo' = photo ∨ .photo p ∈ held) ∧ photo.Follows photo' :=
    ⟨photo,found,.inl rfl,.refl photo⟩
  cases change with
  | observed | unblocked | postcardRead | account => exact unchanged
  | postcardDeleted =>
    rename_i side _ _
    cases side <;> exact unchanged
  | abandoned | handed | retried | embeddingFailed => simpa using unchanged
  | @created arguments mock cleared _ _ _ _ _ asked onboarded locked written =>
    have updated : ∃ photo', (HomeRepository.released w.db cleared).photos.get? p = some photo' ∧
        (photo' = photo ∨ .photo p ∈ held) ∧ photo.Follows photo' := by
      apply follows_modify found
      · exact fun picked => ⟨locked p (by simpa using picked),rfl,rfl,rfl,rfl,.inr rfl,.inl rfl,fun _ => ⟨rfl,rfl⟩⟩
      · exact fun _ => rfl
    obtain ⟨photo',present,rest⟩ := updated
    refine ⟨photo',?_,rest⟩
    cases mock with
    | false =>
      obtain ⟨_,_,fresh,_,rfl⟩ := HomeRepository.createWrites_plain written
      exact Table.get?_insert_of_some fresh present
    | true =>
      obtain ⟨_,_,_,fresh,_,_,_,rfl⟩ := HomeRepository.createWrites_mock written
      exact Table.get?_insert_of_some fresh present
  | timedOut asked locked =>
    apply follows_modify found
    intro picked
    obtain ⟨holds,stale⟩ := of_locked locked found picked
    have validating : photo.status = .validating := (of_decide_eq_true stale).2.1
    exact ⟨holds,rfl,rfl,rfl,rfl,.inl rfl,.inr (by simp [HomeRepository.timeOut,validating,PhotoStatus.allowed]),
      fun other => absurd validating other⟩
  | deleted asked locked present accepted =>
    apply follows_modify found
    intro picked
    have same := of_decide_eq_true picked
    subst same
    cases Option.some.inj (present.symm.trans found)
    refine ⟨locked,rfl,rfl,rfl,rfl,.inl rfl,.inr ?_,fun _ => ⟨rfl,rfl⟩⟩
    revert accepted
    cases photo.status <;> simp [HomeRepository.isDeletable,PhotoStatus.allowed]
  | @judged _ result job judgedPhoto _ _ _ _ _ asked locked present owned owner accepted written =>
    have same : judgedPhoto.id = job.photoId := Table.key_of_get? owner
    have picked : ∀ {f : Photo → Photo}, (∀ row : Photo, row.Follows (f row) ∨ row.status ≠ .validating) →
        (decide (p = judgedPhoto.id)) = true → .photo p ∈ held ∧ photo.Follows (f photo) := by
      intro f follows picked
      have equal := of_decide_eq_true picked
      rw [same] at equal
      subst equal
      cases Option.some.inj (owner.symm.trans found)
      exact ⟨locked.2,(follows photo).resolve_right (fun differs => differs accepted)⟩
    cases verdict : result.status with
    | passed =>
      obtain ⟨_,_,_,_,rfl⟩ := PhotoValidationRepository.resultWrites_passed verdict written
      refine follows_modify found (picked fun row => ?_)
      by_cases status : row.status = .validating
      · exact .inl ⟨rfl,rfl,rfl,rfl,.inl rfl,.inr (by simp [PhotoValidationRepository.accept,status,PhotoStatus.allowed]),
          fun other => absurd status other⟩
      · exact .inr status
    | rejected =>
      obtain ⟨_,_,rfl⟩ := PhotoValidationRepository.resultWrites_rejected verdict written
      refine follows_modify found (picked fun row => ?_)
      by_cases status : row.status = .validating
      · exact .inl ⟨rfl,rfl,rfl,rfl,.inl rfl,.inr (by simp [PhotoValidationRepository.reject,status,PhotoStatus.allowed]),
          fun other => absurd status other⟩
      · exact .inr status
  | @validationFailed _ _ job failedPhoto _ _ _ _ _ asked locked present owned owner written =>
    by_cases validating : failedPhoto.status = .validating
    · obtain ⟨_,_,rfl⟩ := PhotoValidationRepository.failureWrites_validating validating written
      have same : failedPhoto.id = job.photoId := Table.key_of_get? owner
      refine follows_modify (by simpa using found) fun picked => ?_
      have equal := of_decide_eq_true picked
      rw [same] at equal
      subst equal
      cases Option.some.inj (owner.symm.trans found)
      exact ⟨locked.2,rfl,rfl,rfl,rfl,.inl rfl,.inr
        (by simp [PhotoValidationRepository.reject,validating,PhotoStatus.allowed]),
        fun other => absurd validating other⟩
    · obtain ⟨_,rfl⟩ := PhotoValidationRepository.failureWrites_other validating written
      simpa using unchanged
  | embedded asked locked present owned written =>
    obtain ⟨_,_,rfl⟩ := PhotoEmbeddingJobRepository.resultWrites_eq written
    simpa using unchanged
  | expired asked locked written =>
    obtain ⟨_,_,rfl⟩ := SqlExpirationStore.expireWrites_eq written
    apply follows_modify found
    intro picked
    obtain ⟨holds,due⟩ := of_locked locked found picked
    have searching : photo.status = .searching := (of_decide_eq_true due).1
    exact ⟨holds,rfl,rfl,rfl,rfl,.inl rfl,.inr (by simp [searching,PhotoStatus.allowed]),fun _ => ⟨rfl,rfl⟩⟩
  | matched asked locked present apart searching timely checked written =>
    obtain ⟨_,_,_,_,_,rfl⟩ := SqlMatchFinalizationStore.finalizeWrites_eq written
    apply follows_modify found
    intro picked
    rcases of_decide_eq_true picked with rfl | rfl
    · cases Option.some.inj (present.1.symm.trans found)
      exact ⟨locked.1,rfl,rfl,rfl,rfl,.inl rfl,.inr (by simp [searching.1,PhotoStatus.allowed]),fun _ => ⟨rfl,rfl⟩⟩
    · cases Option.some.inj (present.2.symm.trans found)
      exact ⟨locked.2,rfl,rfl,rfl,rfl,.inl rfl,.inr (by simp [searching.2,PhotoStatus.allowed]),fun _ => ⟨rfl,rfl⟩⟩
  | blocked asked written =>
    obtain ⟨_,_,rfl⟩ := SafetyRepository.blockWrites_eq written
    exact unchanged
  | reportedUser asked written =>
    rcases ReportRepository.reportUserWrites_eq written with ⟨_,_,rfl⟩ | ⟨_,_,_,rfl⟩ <;>
      exact unchanged
  | @reportedPhoto _ _ row _ _ _ asked locked written =>
    obtain ⟨_,_,rfl⟩ := ReportRepository.reportPhotoWrites_eq written
    cases row <;> exact unchanged
  | sent asked pair locked parties turn reply written =>
    obtain ⟨_,_,_,rfl⟩ := PostcardRepository.sendWrites_eq written
    exact unchanged

/-- What a change made of a job: nothing, or what one event of its queue prescribes. -/
structure JobFollows (settings : Settings) (held : List RowKey) (events : List Event)
    (queue : Queue) (id : UUID) (job job' : Job) : Prop where
  photo : job'.photoId = job.photoId
  created : job'.createdAt = job.createdAt
  moved : (job' = job ∧ events.filterMap (Event.ofJob? queue id) = []) ∨
    (.job queue id ∈ held ∧ ∃ event, events.filterMap (Event.ofJob? queue id) = [event] ∧
      (policy settings).apply job.item event = some job'.item)

theorem claimable_item (settings : Settings) (now : Time) (job : Job) :
    claimable settings.validationLeaseSeconds now job =
      (policy settings).claimable now job.item.phase := by
  cases status : job.status with
  | processing =>
    simp only [claimable,Lease.Policy.claimable,Job.item,policy,status,reduceCtorEq,false_and,
      true_and,false_or,Bool.decide_eq_true]
    rfl
  | _ => simp [claimable,Lease.Policy.claimable,Job.item,status]

private theorem open_of_claimable {job : Job} {now : Time}
    (accepted : claimable settings.validationLeaseSeconds now job) : job.item.phase ≠ .closed := by
  intro closed
  rw [claimable_item,closed] at accepted
  cases accepted

private theorem ofJob?_one (queue other : Queue) (id otherId : UUID) (event : Lease.Event String) :
    [Event.job queue id event].filterMap (Event.ofJob? other otherId) =
      if other = queue ∧ otherId = id then [event] else [] := by
  by_cases same : other = queue ∧ otherId = id
  · obtain ⟨rfl,rfl⟩ := same
    simp [Event.ofJob?]
  · have different : ¬ (queue = other ∧ id = otherId) := fun equal => same ⟨equal.1.symm,equal.2.symm⟩
    simp [Event.ofJob?,same,different]

/-- Every job follows, and a job that was not there is new. -/
structure JobsFollow (settings : Settings) (held : List RowKey) (before after : Db)
    (events : List Event) : Prop where
  present : ∀ queue id job, before.job? queue id = some job →
    ∃ job', after.job? queue id = some job' ∧ JobFollows settings held events queue id job job'
  absent : ∀ queue id, before.job? queue id = none →
    events.filterMap (Event.ofJob? queue id) = [] ∧
      ∀ job', after.job? queue id = some job' → isNew job'.item

private theorem jobsFollow_same {before after : Db}
    (same : ∀ queue id, after.job? queue id = before.job? queue id)
    (silent : ∀ queue id, events.filterMap (Event.ofJob? queue id) = []) :
    JobsFollow settings held before after events := by
  refine ⟨?_,?_⟩
  · intro queue id job found
    exact ⟨job,(same queue id).trans found,rfl,rfl,.inl ⟨rfl,silent queue id⟩⟩
  · intro queue id missing
    refine ⟨silent queue id,fun job' found => ?_⟩
    rw [same,missing] at found
    cases found

/-- One job moves as its event prescribes; others stay, or are new. -/
private theorem jobsFollow_update {queue : Queue} {id : UUID} {job : Job} (new : Job)
    {event : Lease.Event String} {rest : List Event} {before after : Db}
    (present : before.job? queue id = some job) (locked : .job queue id ∈ held)
    (photo : new.photoId = job.photoId) (created : new.createdAt = job.createdAt)
    (applied : (policy settings).apply job.item event = some new.item)
    (written : after.job? queue id = some new)
    (others : ∀ other otherId, ¬ (other = queue ∧ otherId = id) →
      after.job? other otherId = before.job? other otherId ∨
        (before.job? other otherId = none ∧
          ∀ job', after.job? other otherId = some job' → isNew job'.item))
    (silent : ∀ other otherId, rest.filterMap (Event.ofJob? other otherId) = []) :
    JobsFollow settings held before after (.job queue id event :: rest) := by
  have split_ : ∀ other otherId,
      (Event.job queue id event :: rest).filterMap (Event.ofJob? other otherId) =
        if other = queue ∧ otherId = id then [event] else [] := by
    intro other otherId
    rw [← List.singleton_append,List.filterMap_append,silent,List.append_nil,ofJob?_one]
  refine ⟨?_,?_⟩
  · intro other otherId job' found
    by_cases same : other = queue ∧ otherId = id
    · obtain ⟨rfl,rfl⟩ := same
      cases Option.some.inj (found.symm.trans present)
      refine ⟨new,written,photo,created,.inr ⟨locked,event,?_,applied⟩⟩
      rw [split_,if_pos ⟨rfl,rfl⟩]
    · rcases others other otherId same with equal | ⟨missing,_⟩
      · refine ⟨job',equal.trans found,rfl,rfl,.inl ⟨rfl,?_⟩⟩
        rw [split_,if_neg same]
      · rw [missing] at found
        cases found
  · intro other otherId missing
    by_cases same : other = queue ∧ otherId = id
    · obtain ⟨rfl,rfl⟩ := same
      rw [missing] at present
      cases present
    · refine ⟨by rw [split_,if_neg same],fun job' found => ?_⟩
      rcases others other otherId same with equal | ⟨_,begins⟩
      · rw [equal,missing] at found
        cases found
      · exact begins job' found

private theorem jobsFollow_updateJob {queue : Queue} {id : UUID} {job : Job}
    {event : Lease.Event String} {rest : List Event} {before after : Db} (assign : Job → Job)
    (keeps : ∀ row, (assign row).id = row.id)
    (present : before.job? queue id = some job) (locked : .job queue id ∈ held)
    (photo : (assign job).photoId = job.photoId) (created : (assign job).createdAt = job.createdAt)
    (applied : (policy settings).apply job.item event = some (assign job).item)
    (written : ∀ other otherId,
      after.job? other otherId = (before.updateJob queue id assign keeps).job? other otherId)
    (silent : ∀ other otherId, rest.filterMap (Event.ofJob? other otherId) = []) :
    JobsFollow settings held before after (.job queue id event :: rest) := by
  refine jobsFollow_update (assign job) present locked photo created applied ?_ ?_ silent
  · rw [written,Db.job?_updateJob,if_pos ⟨rfl,rfl⟩,present]
    rfl
  · intro other otherId different
    rw [written,Db.job?_updateJob,if_neg different]
    exact .inl rfl

private theorem open_of_lease {worker : String} {job : Job} (owned : holdsLease worker job) :
    job.item.phase = .running job.workerId job.startedAt := by
  simp [Job.item,owned.1]

private theorem isNew_newEmbeddingJob (id photo : UUID) (start : Time) :
    isNew (PhotoValidationRepository.newEmbeddingJob id photo start).item := .inl rfl

theorem Change.jobs (change : Change settings r t held w db events) :
    JobsFollow settings held w.db db events := by
  cases change with
  | @observed event observation =>
    refine jobsFollow_same (fun _ _ => rfl) fun queue id => ?_
    cases event <;> simp [Event.isObservation] at observation <;> rfl
  | @created arguments mock cleared start now ids _ _ asked onboarded locked written =>
    cases mock with
    | false =>
      obtain ⟨_,rfl,_,fresh,rfl⟩ := HomeRepository.createWrites_plain written
      refine ⟨?_,?_⟩
      · intro queue id job found
        refine ⟨job,?_,rfl,rfl,.inl ⟨rfl,rfl⟩⟩
        cases queue with
        | validation =>
          obtain ⟨row,present,rfl⟩ := Option.map_eq_some_iff.mp found
          exact Option.map_eq_some_iff.mpr ⟨row,Table.get?_insert_of_some fresh present,rfl⟩
        | embedding => exact found
      · intro queue id missing
        refine ⟨rfl,fun job' found => ?_⟩
        cases queue with
        | validation =>
          obtain ⟨row,present,rfl⟩ := Option.map_eq_some_iff.mp found
          rcases Table.get?_insert_cases fresh present with ⟨_,rfl⟩ | before
          · exact .inl rfl
          · rw [Db.job?,before] at missing
            cases missing
        | embedding => exact absurd (missing.symm.trans found) (by simp)
    | true =>
      obtain ⟨_,rfl,_,_,fresh,freshJob,_,rfl⟩ := HomeRepository.createWrites_mock written
      refine ⟨?_,?_⟩
      · intro queue id job found
        refine ⟨job,?_,rfl,rfl,.inl ⟨rfl,rfl⟩⟩
        cases queue with
        | validation =>
          obtain ⟨row,present,rfl⟩ := Option.map_eq_some_iff.mp found
          exact Option.map_eq_some_iff.mpr ⟨row,Table.get?_insert_of_some fresh present,rfl⟩
        | embedding => exact Table.get?_insert_of_some freshJob found
      · intro queue id missing
        refine ⟨rfl,fun job' found => ?_⟩
        cases queue with
        | validation =>
          obtain ⟨row,present,rfl⟩ := Option.map_eq_some_iff.mp found
          rcases Table.get?_insert_cases fresh present with ⟨_,rfl⟩ | before
          · exact .inr rfl
          · rw [Db.job?,before] at missing
            cases missing
        | embedding =>
          rcases Table.get?_insert_cases freshJob found with ⟨_,rfl⟩ | before
          · exact isNew_newEmbeddingJob _ _ _
          · exact absurd (missing.symm.trans before) (by simp)
  | timedOut | deleted | unblocked | postcardRead | account =>
    exact jobsFollow_same (fun queue _ => by cases queue <;> rfl) fun _ _ => rfl
  | @postcardDeleted _ _ _ side asked locked =>
    exact jobsFollow_same (fun queue _ => by cases queue <;> cases side <;> rfl) fun _ _ => rfl
  | abandoned asked locked found accepted useless =>
    refine jobsFollow_updateJob (abandon _) (fun _ => rfl) found locked rfl rfl ?_ (fun _ _ => rfl) fun _ _ => rfl
    exact Lease.apply_closing (open_of_claimable accepted)
  | handed asked locked found accepted =>
    refine jobsFollow_updateJob (handOut _ _) (fun _ => rfl) found locked rfl rfl ?_ (fun _ _ => rfl) fun _ _ => rfl
    rw [claimable_item] at accepted
    exact Lease.apply_handed accepted
  | retried asked locked found owned below =>
    refine jobsFollow_updateJob (retryLater _ _ _ _) (fun _ => rfl) found locked rfl rfl ?_ (fun _ _ => rfl) fun _ _ => rfl
    exact Lease.apply_retried (open_of_lease owned) below
  | @judged id result job photo start now ids _ _ asked locked present owned owner accepted written =>
    obtain ⟨row,found,same⟩ := Option.map_eq_some_iff.mp present
    have closing : (policy settings).apply job.item .closed = some ⟨.closed,job.attemptCount⟩ := by
      apply Lease.apply_closing
      rcases owned with status | status <;> simp [Job.item,status]
    have completed : (PhotoValidationRepository.complete result now row).item =
        ⟨.closed,job.attemptCount⟩ := by
      subst same
      cases verdict : result.status <;>
        simp [PhotoValidationRepository.complete,PhotoValidationRepository.Verdict.status,Job.item,
          verdict]
    have moves : (w.db.updateValidation id (PhotoValidationRepository.complete result now)).job?
        .validation id = some (PhotoValidationRepository.complete result now row).toJob := by
      simp [found]
    have stays : ∀ other otherId, ¬ (other = .validation ∧ otherId = id) →
        (w.db.updateValidation id (PhotoValidationRepository.complete result now)).job? other otherId =
          w.db.job? other otherId := by
      intro other otherId different
      rw [Db.job?_updateValidation,if_neg different]
    subst same
    cases verdict : result.status with
    | passed =>
      obtain ⟨rfl,_,fresh,_,rfl⟩ := PhotoValidationRepository.resultWrites_passed verdict written
      refine jobsFollow_update (PhotoValidationRepository.complete result now row).toJob present locked.1 rfl rfl (closing.trans (by rw [completed])) moves ?_ fun _ _ => rfl
      intro other otherId different
      cases other with
      | validation => exact .inl (stays .validation otherId different)
      | embedding =>
        rcases eq_or_ne otherId (ids.uuid 0) with rfl | elsewhere
        · refine .inr ⟨fresh,fun new inserted => ?_⟩
          rcases Table.get?_insert_cases fresh inserted with ⟨_,rfl⟩ | before
          · exact isNew_newEmbeddingJob _ _ _
          · exact absurd (fresh.symm.trans before) (by simp)
        · refine .inl ?_
          change (w.db.embeddingJobs.insert _ fresh).get? otherId = _
          rw [Table.get?_insert]
          exact if_neg (fun equal => elsewhere equal.symm)
    | rejected =>
      obtain ⟨rfl,_,rfl⟩ := PhotoValidationRepository.resultWrites_rejected verdict written
      refine jobsFollow_update (PhotoValidationRepository.complete result now row).toJob present locked.1 rfl rfl (closing.trans (by rw [completed])) moves ?_ fun _ _ => rfl
      intro other otherId different
      cases other with
      | validation => exact .inl (stays .validation otherId different)
      | embedding => exact .inl rfl
  | @validationFailed id report job photo start now ids _ _ asked locked present owned owner written =>
    have closing : (policy settings).apply job.item .closed =
        some (PhotoValidationRepository.fail report now job).item :=
      Lease.apply_closing (by rw [open_of_lease owned]; simp)
    by_cases validating : photo.status = .validating
    · obtain ⟨rfl,_,rfl⟩ := PhotoValidationRepository.failureWrites_validating validating written
      exact jobsFollow_updateJob (PhotoValidationRepository.fail report now) (fun _ => rfl) present locked.1 rfl rfl closing
        (fun queue _ => by cases queue <;> rfl) fun _ _ => rfl
    · obtain ⟨rfl,rfl⟩ := PhotoValidationRepository.failureWrites_other validating written
      exact jobsFollow_updateJob (PhotoValidationRepository.fail report now) (fun _ => rfl) present locked.1 rfl rfl closing (fun _ _ => rfl) fun _ _ => rfl
  | embeddingFailed asked locked present owned =>
    refine jobsFollow_updateJob (PhotoEmbeddingJobRepository.fail _ _) (fun _ => rfl) present locked rfl rfl ?_ (fun _ _ => rfl) fun _ _ => rfl
    exact Lease.apply_closing (by rw [open_of_lease owned]; simp)
  | @embedded id workerId embedding job start now _ _ asked locked present owned written =>
    obtain ⟨rfl,_,rfl⟩ := PhotoEmbeddingJobRepository.resultWrites_eq written
    have same : job.id = id := Table.key_of_get? present
    subst same
    refine jobsFollow_updateJob (PhotoEmbeddingJobRepository.complete _) (fun _ => rfl) present locked rfl rfl ?_ (fun queue _ => by cases queue <;> rfl)
      fun _ _ => rfl
    exact Lease.apply_closing (by rw [open_of_lease owned]; simp)
  | expired asked locked written =>
    obtain ⟨rfl,_,rfl⟩ := SqlExpirationStore.expireWrites_eq written
    exact jobsFollow_same (fun queue _ => by cases queue <;> rfl) fun _ _ => rfl
  | matched asked locked present apart searching timely checked written =>
    obtain ⟨rfl,_,_,_,_,rfl⟩ := SqlMatchFinalizationStore.finalizeWrites_eq written
    exact jobsFollow_same (fun queue _ => by cases queue <;> rfl) fun _ _ => rfl
  | blocked asked written =>
    obtain ⟨rfl,_,rfl⟩ := SafetyRepository.blockWrites_eq written
    exact jobsFollow_same (fun queue _ => by cases queue <;> rfl) fun _ _ => rfl
  | reportedUser asked written =>
    rcases ReportRepository.reportUserWrites_eq written with ⟨_,rfl,rfl⟩ | ⟨_,_,rfl,rfl⟩ <;>
      exact jobsFollow_same (fun queue _ => by cases queue <;> rfl) fun _ _ => rfl
  | @reportedPhoto _ _ row _ _ _ asked locked written =>
    obtain ⟨rfl,_,rfl⟩ := ReportRepository.reportPhotoWrites_eq written
    exact jobsFollow_same (fun queue _ => by cases queue <;> cases row <;> rfl) fun _ _ => rfl
  | sent asked pair locked parties turn reply written =>
    obtain ⟨rfl,_,_,rfl⟩ := PostcardRepository.sendWrites_eq written
    exact jobsFollow_same (fun queue _ => by cases queue <;> rfl) fun _ _ => rfl

/-- What of a postcard never changes. -/
def Postcard.envelope (card : Postcard) : Postcard :=
  {card with readAt := none,senderDeletedAt := none,receiverDeletedAt := none}

/-- The postcards of a match in the order they were committed. -/
def envelopes (db : Db) (matchId : UUID) : List Postcard :=
  (db.postcards.rows.map Postcard.envelope).filter fun card => card.matchId = matchId

/-- A commit that sends a postcard, and what it checked. -/
structure Sending (r : Request) (held : List RowKey) (before : Db) (draft : PostcardRepository.Draft)
    (first second : MatchParticipant × Photo) (receiverId : UUID) : Prop where
  asked : r = .send draft
  pair : Pair before draft.matchId first second
  locked : .participant draft.matchId first.1.userId ∈ held
  parties : (draft.userId = first.1.userId ∧ receiverId = second.1.userId) ∨
    (draft.userId = second.1.userId ∧ receiverId = first.1.userId)
  turn : PostcardRepository.lastSender draft.matchId before = none → draft.userId = first.1.userId
  reply : PostcardRepository.lastSender draft.matchId before ≠ some draft.userId
  unused : draft.idempotencyKey = none ∨ ∀ card ∈ before.postcards.rows,
    (draft.userId,draft.idempotencyKey) ≠ (card.senderId,card.idempotencyKey)

/-- What a change made of the users: nothing, or what one commit of theirs does. -/
def UsersFollow (before after : Db) (events : List Event) : Prop :=
  after.users = before.users ∨ ∃ registry event, after.users = registry.users ∧
    after.photos = before.photos ∧ events = [.account event] ∧
      UserRepository.Writes ⟨before.users,before.terms⟩ registry [event]

/-- Users follow their commits, participants and postcards that were there stay, and a
postcard is new only when it was sent. -/
structure Steady (r : Request) (held : List RowKey) (before after : Db) (events : List Event) :
    Prop where
  users : UsersFollow before after events
  participant : ∀ k row, before.participants.get? k = some row →
    ∃ row', after.participants.get? k = some row' ∧ (row' = row ∨ .participant k.1 k.2 ∈ held) ∧
      row'.photoId = row.photoId
  postcard : ∀ c card, before.postcards.get? c = some card →
    ∃ card', after.postcards.get? c = some card' ∧ (card' = card ∨ .postcard c ∈ held)
  cards : after.postcards.rows.map Postcard.envelope = before.postcards.rows.map Postcard.envelope ∨
    ∃ draft first second receiverId start ids,
      Sending r held before draft first second receiverId ∧
      events = [.sent draft.matchId ((ids : Input).uuid 0) draft.userId] ∧
      after.postcards.rows.map Postcard.envelope = before.postcards.rows.map Postcard.envelope ++
        [PostcardRepository.newPostcard draft receiverId start ids]

private theorem steady_same {before after : Db} (users : after.users = before.users)
    (participants : after.participants = before.participants)
    (postcards : after.postcards = before.postcards) : Steady r held before after events := by
  refine ⟨.inl users,?_,?_,.inl (by rw [postcards])⟩
  · intro k row found
    exact ⟨row,participants ▸ found,.inl rfl,rfl⟩
  · intro c card found
    exact ⟨card,postcards ▸ found,.inl rfl⟩

private theorem steady_postcard {before : Db} {id : UUID} {assign : Postcard → Postcard}
    (keeps : ∀ card, (assign card).id = card.id) (locked : .postcard id ∈ held)
    (same : ∀ card, (assign card).envelope = card.envelope) :
    Steady r held before (before.updatePostcard id assign keeps) events := by
  refine ⟨.inl rfl,fun k row found => ⟨row,found,.inl rfl,rfl⟩,?_,.inl ?_⟩
  · intro c card found
    refine ⟨_,Table.get?_modify_eq_some.mpr ⟨card,found,rfl⟩,?_⟩
    split
    next picked =>
      rw [of_decide_eq_true picked]
      exact .inr locked
    next => exact .inl rfl
  · rw [Db.updatePostcard,Table.rows_modify,List.map_map]
    apply List.map_congr_left
    intro card _
    simp only [Function.comp_apply]
    split
    · exact same card
    · rfl

theorem Change.steady (change : Change settings r t held w db events) :
    Steady r held w.db db events := by
  cases change with
  | observed | timedOut | deleted | unblocked => exact steady_same rfl rfl rfl
  | abandoned | handed | retried | embeddingFailed => exact steady_same (by simp) (by simp) (by simp)
  | @created arguments mock cleared _ _ _ _ _ asked onboarded locked written =>
    cases mock with
    | false =>
      obtain ⟨_,_,_,_,rfl⟩ := HomeRepository.createWrites_plain written
      exact steady_same rfl rfl rfl
    | true =>
      obtain ⟨_,_,_,_,_,_,_,rfl⟩ := HomeRepository.createWrites_mock written
      exact steady_same rfl rfl rfl
  | @judged _ result _ _ _ _ _ _ _ asked locked present owned owner accepted written =>
    cases verdict : result.status with
    | passed =>
      obtain ⟨_,_,_,_,rfl⟩ := PhotoValidationRepository.resultWrites_passed verdict written
      exact steady_same rfl rfl rfl
    | rejected =>
      obtain ⟨_,_,rfl⟩ := PhotoValidationRepository.resultWrites_rejected verdict written
      exact steady_same rfl rfl rfl
  | @validationFailed _ _ _ failedPhoto _ _ _ _ _ asked locked present owned owner written =>
    by_cases validating : failedPhoto.status = .validating
    · obtain ⟨_,_,rfl⟩ := PhotoValidationRepository.failureWrites_validating validating written
      exact steady_same rfl rfl rfl
    · obtain ⟨_,rfl⟩ := PhotoValidationRepository.failureWrites_other validating written
      exact steady_same rfl rfl rfl
  | embedded asked locked present owned written =>
    obtain ⟨_,_,rfl⟩ := PhotoEmbeddingJobRepository.resultWrites_eq written
    exact steady_same rfl rfl rfl
  | expired asked locked written =>
    obtain ⟨_,_,rfl⟩ := SqlExpirationStore.expireWrites_eq written
    exact steady_same rfl rfl rfl
  | matched asked locked present apart searching timely checked written =>
    obtain ⟨_,_,freshFirst,freshSecond,_,rfl⟩ := SqlMatchFinalizationStore.finalizeWrites_eq written
    refine ⟨.inl rfl,?_,fun c card found => ⟨card,found,.inl rfl⟩,.inl rfl⟩
    intro k row found
    refine ⟨row,?_,.inl rfl,rfl⟩
    exact Table.get?_insert_of_some freshSecond (Table.get?_insert_of_some freshFirst found)
  | blocked asked written =>
    obtain ⟨_,_,rfl⟩ := SafetyRepository.blockWrites_eq written
    exact steady_same rfl rfl rfl
  | reportedUser asked written =>
    rcases ReportRepository.reportUserWrites_eq written with ⟨_,_,rfl⟩ | ⟨_,_,_,rfl⟩ <;>
      exact steady_same rfl rfl rfl
  | @reportedPhoto _ _ own _ _ _ asked locked written =>
    obtain ⟨_,_,rfl⟩ := ReportRepository.reportPhotoWrites_eq written
    cases own with
    | none => exact steady_same rfl rfl rfl
    | some own =>
      refine ⟨.inl rfl,?_,fun c card found => ⟨card,found,.inl rfl⟩,.inl rfl⟩
      intro k row found
      refine ⟨_,Table.get?_modify_eq_some.mpr ⟨row,found,rfl⟩,?_⟩
      split
      next picked =>
        rw [of_decide_eq_true picked]
        exact ⟨.inr (locked own rfl),rfl⟩
      next => exact ⟨.inl rfl,rfl⟩
  | @sent draft first second receiverId start ids _ _ asked pair locked parties turn reply written =>
    have unused := PostcardRepository.sendWrites_unused written
    obtain ⟨rfl,fresh,_,rfl⟩ := PostcardRepository.sendWrites_eq written
    refine ⟨.inl rfl,fun k row found => ⟨row,found,.inl rfl,rfl⟩,?_,.inr ?_⟩
    · intro c card found
      exact ⟨card,Table.get?_insert_of_some fresh found,.inl rfl⟩
    · refine ⟨draft,first,second,receiverId,start,ids,⟨asked,pair,locked,parties,turn,reply,unused⟩,rfl,?_⟩
      rw [Table.rows_insert,List.map_append]
      rfl
  | postcardRead asked locked => exact steady_postcard _ locked fun _ => rfl
  | account asked written =>
    refine ⟨.inr ⟨_,_,rfl,rfl,rfl,written⟩,?_,?_,.inl rfl⟩
    · exact fun k row found => ⟨row,found,.inl rfl,rfl⟩
    · exact fun c card found => ⟨card,found,.inl rfl⟩
  | @postcardDeleted _ _ _ side asked locked =>
    cases side <;> exact steady_postcard _ locked fun _ => rfl

/-- Rows a change does not hold stay as they are. -/
theorem Change.frame (change : Change settings r t held w db events) (key : RowKey)
    (outside : key ∉ held) (present : Lockable.view key w.db ≠ none) :
    Lockable.view key db = Lockable.view key w.db := by
  cases key with
  | photo p =>
    obtain ⟨photo,found⟩ := Option.ne_none_iff_exists'.mp present
    obtain ⟨photo',after,same,_⟩ := change.photo found
    cases same.resolve_right outside
    exact after.trans found.symm
  | job queue id =>
    obtain ⟨job,found⟩ := Option.ne_none_iff_exists'.mp present
    obtain ⟨job',after,follows⟩ := change.jobs.present queue id job found
    cases (follows.moved.resolve_right fun moves => outside moves.1).1
    exact after.trans found.symm
  | participant m u =>
    obtain ⟨row,found⟩ := Option.ne_none_iff_exists'.mp present
    obtain ⟨row',after,same,_⟩ := change.steady.participant (m,u) row found
    cases same.resolve_right outside
    exact after.trans found.symm
  | postcard c =>
    obtain ⟨card,found⟩ := Option.ne_none_iff_exists'.mp present
    obtain ⟨card',after,same⟩ := change.steady.postcard c card found
    cases same.resolve_right outside
    exact after.trans found.symm
  | reportEntry reporter type target => rfl

end Dalm
