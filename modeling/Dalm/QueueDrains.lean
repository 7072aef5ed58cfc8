import Dalm.EmptyClaims
import Dalm.LeaseRounds
import Dalm.MockUploads
import Dalm.WorkerReports

/-! A validation worker that is alone at work, round after round. He empties the queue, whatever his provider
comes to, if only the server takes his reports and he pauses for as long as a retry waits. -/
namespace Dalm
open Relational Txn

section claims
variable {queue : Queue} {workerId : String} {leaseSeconds : Int} {t : Nat} {i : Input} {w : BackendWorld}

/-- What a claim that runs alone leaves: nothing to hand out, or the first job that is due closed or handed out. -/
theorem once_claimNext : ((∀ job ∈ w.db.jobs queue, ¬ claimable leaseSeconds i.now job) ∧
      once t i (claimNext queue workerId leaseSeconds) w = (.ok none,w)) ∨
    ∃ job ∈ w.db.jobs queue, claimable leaseSeconds i.now job ∧
      (once t i (claimNext queue workerId leaseSeconds) w = (.ok none,
          (World.mk (w.db.updateJob queue job.id (abandon i.now)) w.log).record t [.job queue job.id .closed]) ∨
        ∃ photo, usablePhoto queue w.db job = some photo ∧
          once t i (claimNext queue workerId leaseSeconds) w = (.ok (some (handOut workerId i.now job,photo)),
            (World.mk (w.db.updateJob queue job.id (handOut workerId i.now)) w.log).record t
              [.job queue job.id (.handed workerId i.now)])) := by
  rw [once,claimNext,alone_supply,alone_query]
  cases listed : ((w.db.jobs queue).filter (claimable leaseSeconds i.now)).insertionSort claimedBefore with
  | nil =>
    have none_ : firstDue queue leaseSeconds i.now w.db = none := by
      rw [firstDue,listed]
      rfl
    exact .inl ⟨firstDue_none none_,rfl⟩
  | cons job rest =>
    have first : firstDue queue leaseSeconds i.now w.db = some job := by
      rw [firstDue,listed]
      rfl
    obtain ⟨member,due,_⟩ := firstDue_some first
    refine .inr ⟨job,member,due,?_⟩
    have found : (Lockable.view (RowKey.job queue job.id) w.db).filter (claimable leaseSeconds i.now) = some job :=
      Option.filter_eq_some_iff.mpr ⟨Db.job?_of_mem member,due⟩
    rw [List.map_cons,skipLockedJob,alone_firstUnlocked_cons found]
    dsimp only
    rw [alone_query]
    cases usable : usablePhoto queue w.db job with
    | none =>
      have gone : (w.db.photos.get? job.photoId).filter (fun photo =>
          photo.status = queue.usable ∧ photo.storageKey.isSome) = none := usable
      rw [gone]
      dsimp only
      rw [alone_commitOr]
      exact .inl rfl
    | some photo =>
      have kept : (w.db.photos.get? job.photoId).filter (fun photo =>
          photo.status = queue.usable ∧ photo.storageKey.isSome) = some photo := usable
      rw [kept]
      dsimp only
      rw [alone_commitOr]
      exact .inr ⟨photo,rfl,rfl⟩

end claims

section failures
open PhotoValidationRepository
variable {id : UUID} {report : FailureReport} {maxAttempts retryBaseSeconds : Int} {t : Nat} {i : Input}
  {w : BackendWorld} {job : Job} {photo : Photo}

/-- A failure of a job its worker still holds is retried, or fails the photo. -/
theorem once_recordFailure (found : w.db.job? .validation id = some job) (processing : job.status = .processing)
    (held : job.workerId = some report.workerId) (owner : w.db.photos.get? job.photoId = some photo) :
    (once t i (recordFailure id report maxAttempts retryBaseSeconds) w).2 =
      if report.retryable ∧ (job.attemptCount : Int) < maxAttempts then
        (World.mk (w.db.retryJob .validation id report i.now (retryDelay retryBaseSeconds job.attemptCount))
          w.log).record t [.job .validation id (.retried i.now)]
      else match failureWrites id report photo i.now i.now i w.db with
        | some (db,events) => (World.mk db w.log).record t events
        | none => w := by
  have view : Lockable.view (RowKey.job .validation id) w.db = some job := found
  have view' : Lockable.view (RowKey.photo job.photoId) w.db = some photo := owner
  rw [once,recordFailure,alone_supply,alone_selectForUpdate,view]
  dsimp only
  rw [if_neg (by simp [processing]),if_neg (by simp [processing]),if_neg (by simp [processing]),
    if_neg (by simp [held]),alone_supply]
  by_cases again : report.retryable ∧ (job.attemptCount : Int) < maxAttempts
  · rw [if_pos again,if_pos again,alone_commitOr]
    rfl
  · rw [if_neg again,if_neg again,alone_selectForUpdate,view']
    dsimp only
    rw [alone_commitOr]
    cases failureWrites id report photo i.now i.now i w.db <;> rfl

end failures

section rewriting

/-- Only the row of one validation was rewritten. -/
structure Rewrites (id : UUID) (g : PhotoValidation → PhotoValidation) (before after : Db) : Prop where
  rows : after.validations.rows = before.validations.rows.map g
  others : ∀ row, row.id ≠ id → g row = row
  keeps : ∀ row, (g row).id = row.id

variable {id : UUID} {g g' : PhotoValidation → PhotoValidation} {before middle after : Db} {row : PhotoValidation}

theorem Rewrites.trans (first : Rewrites id g before middle) (second : Rewrites id g' middle after) :
    Rewrites id (g' ∘ g) before after := by
  refine ⟨by rw [second.rows,first.rows,List.map_map],fun row other => ?_,fun row => ?_⟩
  · rw [Function.comp_apply,first.others row other,second.others row other]
  · rw [Function.comp_apply,second.keeps,first.keeps]

theorem rewrites_modify {assign : PhotoValidation → PhotoValidation} (keeps : ∀ row, (assign row).id = row.id)
    (same : after.validations = before.validations.modify (fun other => other = id) assign keeps) :
    Rewrites id (fun row => if row.id = id then assign row else row) before after := by
  refine ⟨?_,fun row other => if_neg other,fun row => ?_⟩
  · rw [same,Table.rows_modify]
    simp only [decide_eq_true_eq]
  · split
    · exact keeps row
    · rfl

/-- The items of the queue of validations. -/
def validationItems (db : Db) : List (Lease.Item String) := (db.jobs .validation).map Job.item

theorem validationItems_eq (db : Db) :
    validationItems db = db.validations.rows.map fun row => row.toJob.item := List.map_map

theorem Rewrites.items (rewrites : Rewrites id g before after) (member : row ∈ before.validations.rows)
    (own : row.id = id) : ∃ front back, validationItems before = front ++ row.toJob.item :: back ∧
      validationItems after = front ++ (g row).toJob.item :: back := by
  obtain ⟨front,back,split_⟩ := List.append_of_mem member
  have distinct := before.validations.distinct
  rw [split_,List.map_append,List.map_cons,List.nodup_append] at distinct
  obtain ⟨_,behind,apart⟩ := distinct
  have same : ∀ other, other ∈ front ∨ other ∈ back → g other = other := by
    refine fun other place => rewrites.others other fun equal => ?_
    rcases place with inside | inside
    · exact apart _ (List.mem_map_of_mem inside) _ List.mem_cons_self (equal.trans own.symm)
    · exact (List.nodup_cons.mp behind).1 ((equal.trans own.symm) ▸ List.mem_map_of_mem inside)
  have still : ∀ rows : List PhotoValidation, (∀ other ∈ rows, g other = other) → rows.map g = rows := by
    intro rows each
    conv_rhs => rw [← List.map_id rows]
    exact List.map_congr_left each
  have fronts := still front fun other inside => same other (.inl inside)
  have backs := still back fun other inside => same other (.inr inside)
  refine ⟨front.map fun row => row.toJob.item,back.map fun row => row.toJob.item,?_,?_⟩
  · rw [validationItems_eq,split_,List.map_append,List.map_cons]
  · rw [validationItems_eq,rewrites.rows,split_,List.map_append,List.map_cons,fronts,backs,List.map_append,
      List.map_cons]

end rewriting

section rounds
open PhotoValidationRepository
variable {K : Type} [Field K] [LinearOrder K] [IsStrictOrderedRing K] [FloorRing K]

/-- What a provider comes to about a photo. -/
abbrev Finding := Except ValidationProviderError ValidationDecision

/-- The request a report makes of the server, if its body is one the server takes. -/
def reportRequest (jobId : UUID) (workerId : String) (elapsedMs : Int) : Finding → Option Request
  | .ok decision => (PhotoValidationResultRequest.validate (runValidationOnce workerId elapsedMs (.ok decision))).map
      (.validationResult jobId)
  | .error error => (PhotoValidationFailureRequest.validate (runValidationOnce workerId elapsedMs (.error error))).map
      (.validationFailure jobId)

/-- A round of a worker: when he claims, what his provider comes to, and when he reports it. -/
structure WorkerRound where
  workerId : String
  claimed : Input
  finding : Finding
  elapsedMs : Int
  reported : Input

/-- run_validation_once while nobody else is at work. -/
def WorkerRound.run (settings : Settings) (sqrt : ℚ → K) (t : Nat) (round : WorkerRound) (w : BackendWorld) : BackendWorld :=
  match once t round.claimed (program settings sqrt (.claim .validation round.workerId)) w with
  | (.ok (.claimed (some (job,_))),w') =>
    match reportRequest job.id round.workerId round.elapsedMs round.finding with
    | some request => (once t round.reported (program settings sqrt request) w').2
    | none => w'
  | (_,w') => w'

/-- The server takes what the worker sends. -/
structure WorkerRound.Fits (round : WorkerRound) : Prop where
  named : 1 ≤ round.workerId.length ∧ round.workerId.length ≤ 100
  decision : ∀ decision, round.finding = .ok decision → decision.Fits
  error : ∀ error, round.finding = .error error → error.Fits

theorem reportRequest_eq {round : WorkerRound} (fits : round.Fits) (jobId : UUID) :
    reportRequest jobId round.workerId round.elapsedMs round.finding = some (match round.finding with
      | .ok decision => .validationResult jobId
          (decision.result (max 0 round.elapsedMs).toNat round.workerId)
      | .error error => .validationFailure jobId
          ⟨round.workerId,error.code,some error.message,error.retryable⟩) := by
  cases found : round.finding with
  | ok decision =>
    have taken := (validate_complete fits.named (le_max_left 0 round.elapsedMs)).mpr (fits.decision decision found)
    simp only [reportRequest,runValidationOnce,taken,Option.map_some]
  | error error =>
    have taken := (validate_failure fits.named).mpr (fits.error error found)
    simp only [reportRequest,runValidationOnce,HttpValidationBackend.fail,taken,Option.map_some]

variable {settings : Settings} {sqrt : ℚ → K} {t : Nat} {i : Input} {w : BackendWorld}

theorem inv_once {α : Type} {r : Request} {p : App α} (inv : Inv settings w)
    (pre : wp (protocol settings) (Discipline.none : Discipline Db Input Event) r t p (fun _ _ _ => True) [] w) :
    Inv settings (once t i p w).2 := by
  change Inv settings (alone t (fun _ => i) p 0 w).world
  exact (wp_alone inv (Held.holds_nil _) pre).2.1

section writes
variable {id : UUID} {result : Result} {report : FailureReport} {photo : Photo} {db db' : Db} {events : List Event}
  {start now : Time} {ids : Input}

theorem rewrites_updateJob {assign : Job → Job} (keeps : ∀ job, (assign job).id = job.id)
    (same : db'.validations = (db.updateJob .validation id assign keeps).validations) :
    Rewrites id (fun row => if row.id = id then {row with toJob := assign row.toJob} else row) db db' :=
  rewrites_modify (fun row => keeps row.toJob) same

theorem rewrites_updated {assign : Job → Job} (keeps : ∀ job, (assign job).id = job.id) (db : Db) :
    Rewrites id (fun row => if row.id = id then {row with toJob := assign row.toJob} else row) db
      (db.updateJob .validation id assign keeps) := rewrites_updateJob keeps rfl

theorem rewrites_resultWrites (written : resultWrites id result photo start now ids db = some (db',events)) :
    Rewrites id (fun row => if row.id = id then complete result now row else row) db db' := by
  refine rewrites_modify (fun _ => rfl) ?_
  cases verdict : result.status with
  | passed =>
    obtain ⟨_,_,_,_,rfl⟩ := resultWrites_passed verdict written
    rfl
  | rejected =>
    obtain ⟨_,_,rfl⟩ := resultWrites_rejected verdict written
    rfl

theorem rewrites_failureWrites (written : failureWrites id report photo start now ids db = some (db',events)) :
    Rewrites id (fun row => if row.id = id then {row with toJob := fail report now row.toJob} else row) db db' := by
  refine rewrites_updateJob (fun _ => rfl) ?_
  by_cases validating : photo.status = .validating
  · obtain ⟨_,_,rfl⟩ := failureWrites_validating validating written
    rfl
  · obtain ⟨_,rfl⟩ := failureWrites_other validating written
    rfl

theorem failureWrites_of_fresh (inv : Inv settings w) (found : w.db.photos.get? photo.id = some photo)
    (fresh : ids.Fresh w.db) : failureWrites id report photo start now ids w.db ≠ none := by
  unfold failureWrites
  split
  · have known := (inv.photos _ photo found).owned.known
    have notified : ((w.db.updateJob .validation id (fail report now)).updatePhoto photo.id
        (reject (some "VALIDATION_FAILED") "사진을 확인하지 못했습니다. 잠시 후 다시 등록해주세요.")).insertNotification
          (failureNotice (ids.uuid 0) photo start) = some _ :=
      Db.insertNotification_eq_some.mpr ⟨known,fresh.notifications 0 (by decide),rfl⟩
    intro none_
    obtain ⟨⟩ := (Option.bind_eq_none_iff.mp none_ _ notified)
  · exact Option.some_ne_none _

end writes

/-- What a report of its worker makes of a job: closed, or left to wait for another attempt. -/
def Concluded (settings : Settings) (now : Time) (job job' : Job) : Prop :=
  job'.item = ⟨.closed,job.attemptCount⟩ ∨ (policy settings).apply job.item (.retried now) = some job'.item

theorem once_map {α β : Type} (p : App α) (f : α → β) :
    (once t i (p >>= fun value => pure (f value)) w).2 = (once t i p w).2 := by
  rw [once_bind]
  split
  next ended =>
    rw [ended]
    rfl
  next ended => rw [ended]

section reports
variable {id : UUID} {job : Job} {photo : Photo} {result : Result} {report : FailureReport}

/-- A result of the worker who holds the job closes it. -/
theorem applyResult_concludes (inv : Inv settings w) (fresh : i.Fresh w.db)
    (found : w.db.job? .validation id = some job) (processing : job.status = .processing)
    (held : job.workerId = result.workerId) (owner : w.db.photos.get? job.photoId = some photo)
    (validating : photo.status = .validating) : ∃ g, Rewrites id g w.db (once t i (applyResult id result) w).2.db ∧
      ∀ row, row.id = id → row.toJob = job → Concluded settings i.now job (g row).toJob := by
  have keyed : w.db.photos.get? photo.id = some photo := by
    rw [Table.key_of_get? owner]
    exact owner
  have able : resultWrites id result photo i.now i.now i w.db ≠ none :=
    resultWrites_of_fresh inv keyed validating fresh
  obtain ⟨⟨db,events⟩,written⟩ := Option.ne_none_iff_exists'.mp able
  have ran : (once t i (applyResult id result) w).2 = (World.mk db w.log).record t events := by
    rw [once,alone_applyResult (fun _ => i) found (.inr ⟨processing,held⟩) owner validating,written]
  rw [ran]
  refine ⟨_,rewrites_resultWrites written,?_⟩
  rintro row rfl rfl
  rw [if_pos rfl]
  refine .inl ?_
  cases verdict : result.status <;> simp [complete,Job.item,verdict,Verdict.status]

/-- A failure of the worker who holds the job closes it, or makes it wait for another attempt. -/
theorem recordFailure_concludes (inv : Inv settings w) (fresh : i.Fresh w.db)
    (found : w.db.job? .validation id = some job) (processing : job.status = .processing)
    (held : job.workerId = some report.workerId) (owner : w.db.photos.get? job.photoId = some photo) :
    ∃ g, Rewrites id g w.db (once t i (recordFailure id report settings.validationMaxAttempts
        settings.validationRetryBaseSeconds) w).2.db ∧
      ∀ row, row.id = id → row.toJob = job → Concluded settings i.now job (g row).toJob := by
  rw [once_recordFailure found processing held owner]
  split
  next again =>
    have keeps : ∀ row, (retryLater report.errorCode report.errorMessage i.now
        (retryDelay settings.validationRetryBaseSeconds job.attemptCount) row).id = row.id := fun _ => rfl
    refine ⟨_,rewrites_updateJob keeps rfl,?_⟩
    rintro row rfl rfl
    rw [if_pos rfl]
    refine .inr ?_
    have running : row.toJob.item.phase = .running row.workerId row.startedAt := by simp [Job.item,processing]
    have below : (row.toJob.item.attempts : Int) < (policy settings).limit := again.2
    rw [Lease.apply_retried running below]
    rfl
  next =>
    have keyed : w.db.photos.get? photo.id = some photo := by
      rw [Table.key_of_get? owner]
      exact owner
    have able : failureWrites id report photo i.now i.now i w.db ≠ none := failureWrites_of_fresh inv keyed fresh
    obtain ⟨⟨db,events⟩,written⟩ := Option.ne_none_iff_exists'.mp able
    rw [written]
    refine ⟨_,rewrites_failureWrites written,?_⟩
    rintro row rfl rfl
    rw [if_pos rfl]
    exact .inl rfl

end reports

/-- A report that fits is taken, and concludes the job of its worker. -/
theorem report_concludes (sqrt : ℚ → K) (t : Nat) {id : UUID} {round : WorkerRound} {job : Job} {photo : Photo}
    (fits : round.Fits) (inv : Inv settings w) (fresh : i.Fresh w.db) (found : w.db.job? .validation id = some job)
    (processing : job.status = .processing) (held : job.workerId = some round.workerId)
    (owner : w.db.photos.get? job.photoId = some photo) (validating : photo.status = .validating) :
    ∃ request, reportRequest id round.workerId round.elapsedMs round.finding = some request ∧
      Inv settings (once t i (program settings sqrt request) w).2 ∧
        ∃ g, Rewrites id g w.db (once t i (program settings sqrt request) w).2.db ∧
          ∀ row, row.id = id → row.toJob = job → Concluded settings i.now job (g row).toJob := by
  refine ⟨_,reportRequest_eq fits id,?_⟩
  cases round.finding with
  | ok decision =>
    have same : (once t i (program settings sqrt (.validationResult id (decision.result
        (max 0 round.elapsedMs).toNat round.workerId))) w).2 = (once t i (applyResult id _) w).2 := once_map _ _
    rw [same]
    exact ⟨inv_once inv (wp_applyResult rfl fun _ _ _ _ => trivial),
      applyResult_concludes inv fresh found processing held owner validating⟩
  | error error =>
    have same : (once t i (program settings sqrt (.validationFailure id
        ⟨round.workerId,error.code,some error.message,error.retryable⟩)) w).2 =
          (once t i (recordFailure id _ _ _) w).2 := once_map _ _
    rw [same]
    exact ⟨inv_once inv (wp_recordFailure rfl fun _ _ _ => trivial),
      recordFailure_concludes inv fresh found processing held owner⟩

theorem Concluded.worked {start now : Time} {worker : String} {job job' : Job} (able : claimable
    settings.validationLeaseSeconds start job) (concluded : Concluded settings now (handOut worker start job) job') :
    ∃ events, Lease.Worked start now events ∧ (policy settings).replay job.item events = some job'.item := by
  rw [claimable_item] at able
  have handed : (policy settings).apply job.item (.handed worker start) = some (handOut worker start job).item :=
    Lease.apply_handed able
  rcases concluded with closed | retried
  · refine ⟨_,.closed worker,?_⟩
    rw [Lease.replay_two,handed,Option.bind_some,closed]
    exact Lease.apply_closing nofun
  · refine ⟨_,.retried worker,?_⟩
    rw [Lease.replay_two,handed,Option.bind_some,retried]

theorem Input.Fresh.handed {ids : Input} {id : UUID} {assign : Job → Job} {keeps : ∀ job, (assign job).id = job.id}
    {db : Db} (fresh : ids.Fresh db) : ids.Fresh (db.updateJob .validation id assign keeps) := by
  refine ⟨fresh.distinct,fun n below => ?_,fresh.embeddingJobs,fresh.matches_,fresh.reports,fresh.notifications,
    fresh.postcards⟩
  have same : ((db.updateJob .validation id assign keeps).validations.get? (ids.uuid n)).isSome =
      (db.validations.get? (ids.uuid n)).isSome := Table.isSome_get?_modify _
  rw [fresh.validations n below] at same
  exact Option.not_isSome_iff_eq_none.mp (by rw [same]; simp)

/-- A round takes the first validation that is due and ends it or one of its attempts. -/
theorem WorkerRound.serves {round : WorkerRound} (fits : round.Fits) (inv : Inv settings w) (fresh : round.reported.Fresh w.db)
    (due : ∀ item ∈ validationItems w.db, item.phase ≠ .closed →
      (policy settings).claimable round.claimed.now item.phase) :
    Inv settings (round.run settings sqrt t w) ∧ (policy settings).Round round.claimed.now round.reported.now
      (validationItems w.db) (validationItems (round.run settings sqrt t w).db) := by
  have asked : once t round.claimed (program settings sqrt (.claim .validation round.workerId)) w =
      once t round.claimed (claimNext .validation round.workerId settings.validationLeaseSeconds >>=
        fun job => pure (Response.claimed job)) w := rfl
  have inv₁ : Inv settings (once t round.claimed (claimNext .validation round.workerId
    settings.validationLeaseSeconds) w).2 := inv_once inv (wp_claimNext rfl fun _ _ _ => trivial)
  unfold WorkerRound.run
  rw [asked,once_bind]
  rcases once_claimNext with ⟨none_,ran⟩ | ⟨job,member,able,ran | ⟨photo,usable,ran⟩⟩
  · rw [ran]
    refine ⟨inv,.idle fun item inside => ?_⟩
    obtain ⟨job,there,rfl⟩ := List.mem_map.mp inside
    by_contra open_
    exact none_ job there (by rw [claimable_item]; exact due _ inside open_)
  · rw [ran] at inv₁ ⊢
    refine ⟨inv₁,?_⟩
    obtain ⟨row,there,rfl⟩ := List.mem_map.mp member
    have keeps : ∀ row, (abandon round.claimed.now row).id = row.id := fun _ => rfl
    obtain ⟨front,back,before,after⟩ := (rewrites_updated keeps w.db).items there rfl
    rw [if_pos rfl] at after
    have closing : (policy settings).replay row.toJob.item [.closed] =
        some (abandon round.claimed.now row.toJob).item := by
      rw [claimable_item] at able
      rw [Lease.replay_one]
      exact Lease.apply_closing (Lease.open_of_claimable able)
    rw [before]
    change (policy settings).Round _ _ _ (validationItems (w.db.updateJob .validation row.id _ keeps))
    rw [after]
    exact .served .abandoned closing
  · rw [ran] at inv₁ ⊢
    obtain ⟨row,there,rfl⟩ := List.mem_map.mp member
    have keeps : ∀ other, (handOut round.workerId round.claimed.now other).id = other.id := fun _ => rfl
    obtain ⟨present,fit⟩ := Option.filter_eq_some_iff.mp usable
    obtain ⟨validating,_⟩ := of_decide_eq_true fit
    have found : (w.db.updateJob .validation row.id _ keeps).job? .validation row.id =
        some (handOut round.workerId round.claimed.now row.toJob) := by
      rw [Db.job?_updateJob,if_pos ⟨rfl,rfl⟩,Db.job?_of_mem member]
      rfl
    have drawn : round.reported.Fresh (w.db.updateJob .validation row.id _ keeps) := fresh.handed
    obtain ⟨request,taken,inv₂,g,rewrites,concludes⟩ :=
      report_concludes sqrt t fits inv₁ drawn found rfl rfl present validating
    obtain ⟨front,back,before,after⟩ := ((rewrites_updated keeps w.db).trans rewrites).items there rfl
    rw [Function.comp_apply,if_pos rfl] at after
    obtain ⟨events,worked,replayed⟩ := (concludes
      {row with toJob := handOut round.workerId round.claimed.now row.toJob} rfl rfl).worked able
    have served : (policy settings).Round round.claimed.now round.reported.now (front ++ row.toJob.item :: back)
      (front ++ _ :: back) := .served worked replayed
    rw [← before,← after] at served
    have taken' : reportRequest (handOut round.workerId round.claimed.now row.toJob).id round.workerId round.elapsedMs
      round.finding = some request := taken
    simp only [once_pure,taken']
    exact ⟨inv₂,served⟩

/-- Where the rounds of a worker lead, one after the other. -/
def afterRounds (settings : Settings) (sqrt : ℚ → K) (t : Nat) (rounds : List WorkerRound) (w : BackendWorld) : BackendWorld :=
  rounds.foldl (fun w round => round.run settings sqrt t w) w

/-- The first round is not before `due` and each later one a pause after the report of the one before it, and
every report draws fresh identifiers. -/
def WellTimed (settings : Settings) (sqrt : ℚ → K) (t : Nat) (pause : Time) : Time → List WorkerRound → BackendWorld → Prop
  | _,[],_ => True
  | due,round :: rounds,w => due ≤ round.claimed.now ∧ round.claimed.now ≤ round.reported.now ∧
      round.reported.Fresh w.db ∧
        WellTimed settings sqrt t pause (round.reported.now + pause) rounds (round.run settings sqrt t w)

instance decidableWellTimed (settings : Settings) (sqrt : ℚ → K) (t : Nat) (pause : Time) :
    (due : Time) → (rounds : List WorkerRound) → (w : BackendWorld) → Decidable (WellTimed settings sqrt t pause due rounds w)
  | _,[],_ => .isTrue trivial
  | due,round :: rounds,w =>
    have := decidableWellTimed settings sqrt t pause (round.reported.now + pause) rounds (round.run settings sqrt t w)
    inferInstanceAs (Decidable (due ≤ round.claimed.now ∧ round.claimed.now ≤ round.reported.now ∧
      round.reported.Fresh w.db ∧ _))

/-- A pause that no retry outlasts. -/
structure Pauses (settings : Settings) (pause : Time) : Prop where
  forward : 0 ≤ pause
  outlasts : ∀ attempts : Nat, (attempts : Int) < settings.validationMaxAttempts →
    retryDelay settings.validationRetryBaseSeconds attempts ≤ pause

theorem afterRounds_lower {pause due : Time} {rounds : List WorkerRound} (pauses : Pauses settings pause)
    (inv : Inv settings w) (waits : ∀ item ∈ validationItems w.db, (policy settings).DueFrom due item)
    (fits : ∀ round ∈ rounds, round.Fits) (timely : WellTimed settings sqrt t pause due rounds w) :
    Inv settings (afterRounds settings sqrt t rounds w) ∧
      (policy settings).workLeft (validationItems (afterRounds settings sqrt t rounds w).db) ≤
        (policy settings).workLeft (validationItems w.db) - rounds.length := by
  induction rounds generalizing w due with
  | nil => exact ⟨inv,le_rfl⟩
  | cons round rounds ih =>
    obtain ⟨started,ended,fresh,rest⟩ := timely
    have able : ∀ item ∈ validationItems w.db, item.phase ≠ .closed →
        (policy settings).claimable round.claimed.now item.phase :=
      fun item member => waits item member _ started
    obtain ⟨inv',served⟩ : Inv settings (round.run settings sqrt t w) ∧ _ :=
      WorkerRound.serves (fits round List.mem_cons_self) inv fresh able
    have forward := pauses.forward
    have later := served.dueFrom waits (by linarith) pauses.outlasts
    obtain ⟨inv'',lower⟩ := ih inv' later (fun other member => fits other (List.mem_cons_of_mem _ member)) rest
    refine ⟨inv'',lower.trans ?_⟩
    have once_ := served.lowers
    rw [List.length_cons]
    omega

/-- Nobody waits for a verdict once every validation is closed. -/
theorem settled_of_closed (inv : Inv settings w) (closed : ∀ item ∈ validationItems w.db, item.phase = .closed) :
    (∀ job ∈ w.db.jobs .validation, job.status ≠ .pending ∧ job.status ≠ .processing) ∧
      ∀ photo ∈ w.db.photos.rows, photo.status ≠ .validating := by
  have jobs : ∀ job ∈ w.db.jobs .validation, job.status ≠ .pending ∧ job.status ≠ .processing := by
    intro job member
    have phase := closed _ (List.mem_map_of_mem member)
    constructor <;>
    · intro status
      simp [Job.item,status] at phase
  refine ⟨jobs,fun photo member validating => ?_⟩
  obtain ⟨v,row,found,_,ok⟩ := inv.validations.validated _ photo (Table.get?_of_mem member)
  have inside : row.toJob ∈ w.db.jobs .validation := List.mem_map_of_mem (Table.mem_rows_of_get? found).1
  obtain ⟨one,two⟩ := jobs _ inside
  exact (ok.1 validating).elim one two

/-- While one worker alone is at work, each of his rounds lowers what is left of the queue of validations, and
after as many rounds as that was none is open and no photo waits for its verdict. -/
theorem queueDrains {users : Table User.id} {s : Backend} {pause due : Time} {rounds : List WorkerRound}
    (reachable : Reachable settings sqrt users s) (pauses : Pauses settings pause)
    (waits : ∀ item ∈ validationItems s.db, (policy settings).DueFrom due item)
    (fits : ∀ round ∈ rounds, round.Fits) (timely : WellTimed settings sqrt t pause due rounds s.world) :
    (policy settings).workLeft (validationItems (afterRounds settings sqrt t rounds s.world).db) ≤
        (policy settings).workLeft (validationItems s.db) - rounds.length ∧
      ((policy settings).workLeft (validationItems s.db) ≤ rounds.length →
        (∀ job ∈ (afterRounds settings sqrt t rounds s.world).db.jobs .validation,
            job.status ≠ .pending ∧ job.status ≠ .processing) ∧
          ∀ photo ∈ (afterRounds settings sqrt t rounds s.world).db.photos.rows, photo.status ≠ .validating) := by
  obtain ⟨inv,lower⟩ := afterRounds_lower pauses reachable.inv waits fits timely
  refine ⟨lower,fun enough => settled_of_closed inv (Lease.closed_of_workLeft (p := policy settings) ?_)⟩
  exact Nat.le_zero.mp (lower.trans (Nat.sub_eq_zero_of_le enough).le)

end rounds

namespace Sample

/-- A provider that is down for as long as it is asked. -/
def providerDown : ValidationProviderError :=
  ⟨"MOCK_PROVIDER_UNAVAILABLE","mock provider was configured to simulate a retryable failure",true⟩

/-- A round every two minutes. -/
def failingRound (n : Nat) : WorkerRound :=
  ⟨"worker",input (seconds (120 * n)) (1000 * n),.error providerDown,5,input (seconds (120 * n + 1)) (1000 * n)⟩

def failingRounds : List WorkerRound := [failingRound 1,failingRound 2,failingRound 3,failingRound 4]

theorem failingRounds_fit : ∀ round ∈ failingRounds, round.Fits := by
  have named : 1 ≤ "worker".length ∧ "worker".length ≤ 100 := by decide +kernel
  have down : providerDown.Fits := ⟨by decide +kernel,by decide +kernel⟩
  have each : ∀ n, (failingRound n).Fits := by
    refine fun n => ⟨named,fun _ same => (nomatch same),fun error same => ?_⟩
    cases same
    exact down
  intro round member
  simp only [failingRounds,List.mem_cons,List.not_mem_nil,or_false] at member
  rcases member with rfl | rfl | rfl | rfl <;> exact each _

theorem pauses_minute : Pauses settings (seconds 60) := by
  refine ⟨by decide,fun attempts below => ?_⟩
  have below : (attempts : Int) < 3 := below
  obtain rfl | rfl | rfl : attempts = 0 ∨ attempts = 1 ∨ attempts = 2 := by omega
  all_goals decide

end Sample

/-- A photo whose provider stays down waits no more after four rounds. -/
theorem queueDrains_down : ∃ s : Backend, (∃ photo ∈ s.db.photos.rows, photo.status = .validating) ∧
    ∀ photo ∈ (afterRounds Sample.settings Rat.sqrt 2 Sample.failingRounds s.world).db.photos.rows,
      photo.status ≠ .validating := by
  obtain ⟨s,_,reachable,passes⟩ := Sample.reached Sample.uploaded (fun s =>
    (s.db.photos.rows.any fun photo => photo.status = .validating) &&
    ((s.db.jobs .validation).all fun job => job.status = .pending ∧ job.nextAttemptAt = none) &&
    decide ((policy Sample.settings).workLeft (validationItems s.db) ≤ 4 ∧
      WellTimed Sample.settings Rat.sqrt 2 (seconds 60) 0 Sample.failingRounds s.world)) (by decide +kernel)
  obtain ⟨⟨waiting,pending⟩,rest⟩ := by simpa only [Bool.and_eq_true] using passes
  obtain ⟨enough,timely⟩ := of_decide_eq_true rest
  obtain ⟨photo,member,validating⟩ := List.any_eq_true.mp waiting
  refine ⟨s,⟨photo,member,of_decide_eq_true validating⟩,((queueDrains reachable Sample.pauses_minute ?_
    Sample.failingRounds_fit timely).2 enough).2⟩
  intro item inside now _ _
  obtain ⟨job,there,rfl⟩ := List.mem_map.mp inside
  obtain ⟨status,free⟩ := of_decide_eq_true (List.all_eq_true.mp pending job there)
  simp [Job.item,status,free,Lease.Policy.claimable]

end Dalm
