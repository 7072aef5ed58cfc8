import Dalm.HandOuts

/-! What a report can still do once its worker was superseded. -/
namespace Dalm
open Relational

/-- The workers a job was handed to, in this order. -/
def claimants (queue : Queue) (id : UUID) (log : List (Nat × Event)) : List String :=
  (jobEvents queue id log).filterMap Lease.Event.worker?

/-- The worker claimed the job, and another one claimed it last. -/
def superseded (queue : Queue) (id : UUID) (worker : String) (log : List (Nat × Event)) : Prop :=
  worker ∈ claimants queue id log ∧ (claimants queue id log).getLast? ≠ some worker

/-- Session `t` runs a report of a superseded worker. -/
def Late (s : Backend) (t : Nat) (queue : Queue) (id : UUID) (worker : String) : Prop :=
  ∃ session, s.session t = some session ∧
    session.request.report? = some (queue,id,some worker) ∧ superseded queue id worker s.world.log

/-- A late report changes nothing. The match orchestrate_match makes once the result of
an embedding is stored is not the report's. -/
def Fenced (s : Backend) (action : Action Input Exc Request) (u : Backend) : Prop :=
  ∀ t i queue id worker, action = .exec t i → Late s t queue id worker → u.db = s.db ∨
    (queue = .embedding ∧ u.db.embeddingJobs = s.db.embeddingJobs ∧
      u.db.embeddings = s.db.embeddings ∧
      ∃ m first second now, u.world.log = s.world.log ++ [(t,.matched m first second now)])

/-- No late verdict holds a job that waits, with a photo that waits for it. -/
def Clear (s : Backend) : Prop :=
  ∀ t id worker job photo, Late s t .validation id worker →
    s.db.job? .validation id = some job → s.db.photos.get? job.photoId = some photo →
    photo.status = .validating → s.store.owner (.job .validation id) = some t →
    s.store.owner (.photo job.photoId) = some t → job.status ≠ .pending

/-- Whoever holds the lease claimed the job last. -/
theorem not_superseded {settings : Settings} {w : BackendWorld} {queue : Queue} {id : UUID}
    {job : Job} {worker : String} (inv : Inv settings w) (found : w.db.job? queue id = some job)
    (owned : holdsLease worker job) : ¬ superseded queue id worker w.log := by
  rintro ⟨claimed,last⟩
  have past : jobEvents queue id w.log ≠ [] := by
    intro nothing
    rw [claimants,nothing] at claimed
    cases claimed
  obtain ⟨job',present,ran⟩ := began_waiting inv past
  cases Option.some.inj (present.symm.trans found)
  have running : job.item.phase = .running (some worker) job.startedAt := by
    simp [Job.item,owned.1,owned.2]
  exact last (Lease.running_last ran (fun _ _ => by simp) running)

section runs
variable {K : Type} [Field K] [LinearOrder K] [IsStrictOrderedRing K] [FloorRing K]
  {settings : Settings} {sqrt : ℚ → K} {users : Table User.id} {s u : Backend}

private theorem Change.fenced {r : Request} {t : Nat} {held : List RowKey} {w : BackendWorld} {db : Db}
    {events : List Event} {queue : Queue} {id : UUID} {worker : String} (inv : Inv settings w)
    (change : Change settings r t held w db events)
    (reports : r.report? = some (queue,id,some worker)) (late : superseded queue id worker w.log)
    (clear : ∀ job photo, queue = .validation → w.db.job? .validation id = some job →
      w.db.photos.get? job.photoId = some photo → photo.status = .validating →
      .job .validation id ∈ held → .photo job.photoId ∈ held → job.status ≠ .pending) :
    db = w.db ∨ (queue = .embedding ∧ db.embeddingJobs = w.db.embeddingJobs ∧
      db.embeddings = w.db.embeddings ∧ ∃ m first second now, events = [.matched m first second now]) := by
  have foreign : r.report? ≠ none := by simp [reports]
  cases change with
  | observed => exact .inl rfl
  | timedOut asked => exact absurd asked foreign
  | unblocked asked | postcardRead asked | postcardDeleted asked | created asked | deleted asked
  | abandoned asked | handed asked | expired asked | blocked asked | reportedUser asked
  | reportedPhoto asked | sent asked | account asked => exact absurd (by rw [asked]; rfl) foreign
  | retried asked locked present owned below =>
    simp only [asked,Option.some.injEq,Prod.mk.injEq] at reports
    obtain ⟨rfl,rfl,rfl⟩ := reports
    exact absurd late (not_superseded inv present owned)
  | @judged _ result job photo _ _ _ _ _ asked locked present owned owner validating written =>
    simp only [asked,Request.report?,Option.some.injEq,Prod.mk.injEq] at reports
    obtain ⟨rfl,rfl,named⟩ := reports
    rcases owned with pending | ⟨processing,same⟩
    · exact absurd pending (clear job photo rfl present owner validating locked.1 locked.2)
    · exact absurd late (not_superseded inv present ⟨processing,same.trans named⟩)
  | validationFailed asked locked present owned owner written =>
    simp only [asked,Request.report?,Option.some.injEq,Prod.mk.injEq] at reports
    obtain ⟨rfl,rfl,rfl⟩ := reports
    exact absurd late (not_superseded inv present owned)
  | embeddingFailed asked locked present owned =>
    simp only [asked,Request.report?,Option.some.injEq,Prod.mk.injEq] at reports
    obtain ⟨rfl,rfl,rfl⟩ := reports
    exact absurd late (not_superseded inv present owned)
  | embedded asked locked present owned written =>
    simp only [asked,Request.report?,Option.some.injEq,Prod.mk.injEq] at reports
    obtain ⟨rfl,rfl,rfl⟩ := reports
    exact absurd late (not_superseded inv present owned)
  | matched asked locked present apart searching timely checked written =>
    obtain ⟨rfl,_,_,_,_,rfl⟩ := SqlMatchFinalizationStore.finalizeWrites_eq written
    rcases asked with ⟨_,_,_,rfl⟩ | ⟨_,_,_,rfl⟩
    · cases reports
    · simp only [Request.report?,Option.some.injEq,Prod.mk.injEq] at reports
      obtain ⟨rfl,_,_⟩ := reports
      exact .inr ⟨rfl,rfl,rfl,_,_,_,_,rfl⟩

/-- Where no late verdict meets a job that waits, every step of the run is fenced. -/
theorem leaseFencing (runs : Runs (program settings sqrt) (fun s _ _ => Clear s) (launch users) s) :
    Runs (program settings sqrt) Fenced (launch users) s := by
  refine Reach.runs_mono runs ?_
  rintro a action b reach taken clear t i queue id worker rfl ⟨session,present,reports,late⟩
  have reachable : Reachable settings sqrt users a := reach
  rcases reachable.change taken with same | ⟨_,_,_,held,db,events,same,present',owned,change,written⟩
  · exact .inl (congrArg World.db same)
  · cases same
    cases Option.some.inj (present.symm.trans present')
    have fenced := change.fenced reachable.inv reports late fun job photo same found owner validating one two =>
      clear t id worker job photo ⟨session,present,same ▸ reports,same ▸ late⟩ found owner validating
        (owned _ one) (owned _ two)
    rw [show b.db = db from congrArg World.db written,written]
    rcases fenced with same | ⟨rfl,jobs,embeddings,m,first,second,now,rfl⟩
    · exact .inl same
    · exact .inr ⟨rfl,jobs,embeddings,m,first,second,now,rfl⟩

end runs

/-- No report holds a validation that waits. -/
private def quiet (s : Backend) : Bool :=
  (s.db.jobs .validation).all fun job => job.status ≠ .pending ∨
    (s.store.owner (.job .validation job.id)).all fun t =>
      (s.session t).all fun session => session.request.report? = none

private theorem clear_of_quiet {s : Backend} (passes : quiet s = true) : Clear s := by
  rintro t id worker job photo ⟨session,present,reports,_⟩ found _ _ owned _ pending
  have key : job.id = id := by
    obtain ⟨row,there,rfl⟩ := Option.map_eq_some_iff.mp found
    have key := Table.key_of_get? there
    exact key
  have silent := List.all_eq_true.mp passes job (Db.mem_jobs found)
  simp [key,owned,present,reports,pending] at silent

/-- A worker whose lease was taken over, and its result while the other one works. -/
def Sample.late : List (Action Input Exc Request) :=
  Sample.takenOver ++ Sample.session 4
    (.validationResult 100 ⟨.passed,none,none,"model","1",5,some "first"⟩) 3 (Sample.input (seconds 302) 400)

theorem leaseFencing_late : ∃ s : Backend, claimants .validation 100 s.world.log = ["first","second"] ∧
    Runs (program Sample.settings Rat.sqrt) Fenced (launch Sample.users) s := by
  obtain ⟨s,runs,told⟩ := Sample.reachedWhile (fun s _ _ => Clear s) (fun s _ _ => quiet s)
    (fun _ _ _ _ passes => clear_of_quiet passes) Sample.late
    (fun s => claimants .validation 100 s.world.log = ["first","second"]) (by decide +kernel)
  exact ⟨s,of_decide_eq_true told,leaseFencing runs⟩

/-- The same result once the other worker's failure put the job back. -/
def Sample.trespass : List (Action Input Exc Request) :=
  Sample.takenOver ++ Sample.session 4
    (.validationFailure 100 ⟨"second","TIMEOUT",none,true⟩) 5 (Sample.input (seconds 302) 400) ++
    Sample.session 5
      (.validationResult 100 ⟨.passed,none,none,"model","1",5,some "first"⟩) 4 (Sample.input (seconds 303) 500)

theorem late_verdict_counts : ¬ ∀ (settings : Settings) (users : Table User.id) (s u : Backend) (t : Nat)
    (i : Input) (queue : Queue) (id : UUID) (worker : String),
      Reachable settings Rat.sqrt users s → Late s t queue id worker →
      s.step (program settings Rat.sqrt) (.exec t i) = some u →
        u.db.job? queue id = s.db.job? queue id ∧ u.db.photos = s.db.photos ∧
          u.db.embeddings = s.db.embeddings ∧ u.db.notifications = s.db.notifications := by
  intro claim
  obtain ⟨s,_,reachable,passed⟩ := Sample.reached Sample.trespass (fun s =>
    (s.session 5).any (fun session => session.request.report? = some (.validation,100,some "first")) ∧
    claimants .validation 100 s.world.log = ["first","second"] ∧
    (s.step (program Sample.settings Rat.sqrt) (.exec 5 (Sample.input (seconds 304) 600))).any fun u =>
      u.db.photos.get? 11 ≠ s.db.photos.get? 11) (by decide +kernel)
  obtain ⟨waiting,told,stepped⟩ := of_decide_eq_true passed
  obtain ⟨session,present,reports⟩ := (Option.any_eq_true _ _).mp waiting
  obtain ⟨u,taken,changed⟩ := (Option.any_eq_true _ _).mp stepped
  have late : Late s 5 .validation 100 "first" :=
    ⟨session,present,of_decide_eq_true reports,by rw [superseded,told]; decide⟩
  obtain ⟨_,photos,_⟩ := claim _ _ s u 5 _ .validation 100 "first" reachable late taken
  exact of_decide_eq_true changed (by rw [photos])

end Dalm
