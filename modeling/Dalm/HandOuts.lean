import Dalm.Reachable

/-! How often and how soon the work queues hand a job out. -/
namespace Dalm
open Relational

/-- The hand-outs of every job, as the history tells them. -/
structure HandOutDiscipline (settings : Settings) (run : Request → App Response) (s : Backend) : Prop where
  spaced : ∀ queue id before first n₁ between second n₂ after,
    jobEvents queue id s.world.log =
      before ++ .handed first n₁ :: between ++ .handed second n₂ :: after →
    (∀ event ∈ between, event.isRetried = false) →
    (∀ event ∈ between, event.isHanded = false) ∨ 0 ≤ settings.validationLeaseSeconds →
    n₂ - n₁ > seconds settings.validationLeaseSeconds
  delayed : ∀ queue id before f between worker n after,
    jobEvents queue id s.world.log = before ++ .retried f :: between ++ .handed worker n :: after →
    (∀ event ∈ between, event.isHanded = false) →
    1 ≤ before.countP Lease.Event.isHanded ∧ n ≥ f + seconds
      (settings.validationRetryBaseSeconds * 2 ^ (before.countP Lease.Event.isHanded - 1))
  closed : ∀ queue id job, s.db.job? queue id = some job → job.status ≠ .pending →
    job.status ≠ .processing → ∀ u, Reach run Discipline.none s u →
      u.db.job? queue id = some job ∧
      jobEvents queue id u.world.log = jobEvents queue id s.world.log
  counted : ∀ action u queue id job, s.step run action = some u → s.db.job? queue id = none →
    u.db.job? queue id = some job → job.status = .pending → ∀ v, Reach run Discipline.none u v →
      ∃ job', v.db.job? queue id = some job' ∧
        job'.attemptCount = (jobEvents queue id v.world.log).countP Lease.Event.isHanded

section states
variable {settings : Settings} {w : BackendWorld} {queue : Queue} {id : UUID} {job : Job}

theorem began_waiting (inv : Inv settings w) (past : jobEvents queue id w.log ≠ []) :
    ∃ job, w.db.job? queue id = some job ∧
      (policy settings).replay ⟨.waiting none,0⟩ (jobEvents queue id w.log) = some job.item := by
  cases found : w.db.job? queue id with
  | none => exact absurd (inv.leases.absent queue id found) past
  | some job =>
    obtain ⟨start,new,ran⟩ := inv.leases.replayed queue id job found
    rcases new with rfl | rfl
    · exact ⟨job,rfl,ran⟩
    · exact absurd (Lease.replay_closed rfl ran) past

private theorem idle (w : Option String) (s : Option Int) :
    (⟨.waiting none,0⟩ : Lease.Item String).phase ≠ .running w s := by
  intro running
  cases running

private theorem spaced_of_handed (inv : Inv settings w) {before between after : List (Lease.Event String)}
    {first second : String} {n₁ n₂ : Time}
    (told : jobEvents queue id w.log =
      before ++ .handed first n₁ :: between ++ .handed second n₂ :: after)
    (unretried : ∀ event ∈ between, event.isRetried = false)
    (near : (∀ event ∈ between, event.isHanded = false) ∨ 0 ≤ settings.validationLeaseSeconds) :
    n₂ - n₁ > seconds settings.validationLeaseSeconds := by
  obtain ⟨job,_,ran⟩ := began_waiting inv (by rw [told]; simp)
  rw [told,List.append_cons] at ran
  obtain ⟨_,ran,_⟩ := Lease.replay_split ran
  have apart := Lease.handed_apart ran unretried
  rcases near with direct | positive
  · have none : between.countP Lease.Event.isHanded = 0 :=
      List.countP_eq_zero.mpr fun event member => by simp [direct event member]
    rw [none] at apart
    simpa [policy] using apart
  · have lease : 0 ≤ seconds settings.validationLeaseSeconds := mul_nonneg positive (by decide)
    have more : 0 ≤ (between.countP Lease.Event.isHanded : Int) *
        seconds settings.validationLeaseSeconds := mul_nonneg (Int.natCast_nonneg _) lease
    simp only [policy] at apart
    linarith

private theorem delayed_of_retried (inv : Inv settings w) {before between after : List (Lease.Event String)}
    {worker : String} {f n : Time}
    (told : jobEvents queue id w.log = before ++ .retried f :: between ++ .handed worker n :: after)
    (unhanded : ∀ event ∈ between, event.isHanded = false) :
    1 ≤ before.countP Lease.Event.isHanded ∧ n ≥ f + seconds
      (settings.validationRetryBaseSeconds * 2 ^ (before.countP Lease.Event.isHanded - 1)) := by
  obtain ⟨job,_,ran⟩ := began_waiting inv (by rw [told]; simp)
  rw [told,List.append_cons] at ran
  obtain ⟨_,ran,_⟩ := Lease.replay_split ran
  obtain ⟨handed,waits⟩ := Lease.handed_after_retry ran idle unhanded
  refine ⟨handed,?_⟩
  obtain ⟨k,same⟩ := Nat.exists_eq_add_of_le' handed
  rw [same,Nat.zero_add] at waits
  rw [same,Nat.add_sub_cancel]
  exact waits

end states

section changes
variable {settings : Settings} {r : Request} {t : Nat} {held : List RowKey} {w : BackendWorld}
  {db : Db} {events : List Event} {queue : Queue} {id : UUID} {job : Job}

theorem Job.item_closed (pending : job.status ≠ .pending) (processing : job.status ≠ .processing) :
    job.item.phase = .closed := by
  cases status : job.status <;> simp_all [Job.item]

/-- A job in a terminal status stays as it is, and its history too. -/
theorem Change.leaves_closed (change : Change settings r t held w db events)
    (found : w.db.job? queue id = some job) (closed : job.item.phase = .closed) :
    db.job? queue id = some job ∧ jobEvents queue id ((World.mk db w.log).record t events).log =
      jobEvents queue id w.log := by
  obtain ⟨job',after,follows⟩ := change.jobs.present queue id job found
  rcases follows.moved with ⟨rfl,silent⟩ | ⟨_,event,_,applied⟩
  · refine ⟨after,?_⟩
    rw [World.log_record,jobEvents_record,silent,List.append_nil]
  · rw [Lease.apply_closed closed] at applied
    cases applied

/-- The attempts of a job as its hand-outs count them. -/
def counts (queue : Queue) (id : UUID) (w : BackendWorld) : Prop :=
  ∃ job, w.db.job? queue id = some job ∧
    job.attemptCount = (jobEvents queue id w.log).countP Lease.Event.isHanded

private theorem Change.keeps_count (change : Change settings r t held w db events)
    (counted : counts queue id w) : counts queue id ((World.mk db w.log).record t events) := by
  obtain ⟨job,found,same⟩ := counted
  obtain ⟨job',after,follows⟩ := change.jobs.present queue id job found
  refine ⟨job',after,?_⟩
  rw [World.log_record,jobEvents_record,List.countP_append,← same]
  rcases follows.moved with ⟨rfl,silent⟩ | ⟨_,event,one,applied⟩
  · rw [silent]
    rfl
  · rw [one]
    have ran : (policy settings).replay job.item [event] = some job'.item := by
      rw [Lease.replay_cons,applied]
      rfl
    exact Lease.attempts_eq ran

private theorem Change.begins_counting (change : Change settings r t held w db events)
    (inv : Inv settings w) (missing : w.db.job? queue id = none) (found : db.job? queue id = some job)
    (pending : job.status = .pending) : counts queue id ((World.mk db w.log).record t events) := by
  obtain ⟨silent,begins⟩ := change.jobs.absent queue id missing
  refine ⟨job,found,?_⟩
  rw [World.log_record,jobEvents_record,silent,inv.leases.absent queue id missing]
  rcases begins job found with same | same
  · exact congrArg Lease.Item.attempts same
  · have phase := congrArg Lease.Item.phase same
    simp [Job.item,pending] at phase

end changes

section runs
variable {K : Type} [Field K] [LinearOrder K] [IsStrictOrderedRing K] [FloorRing K]
  {settings : Settings} {sqrt : ℚ → K} {users : Table User.id} {s u : Backend} {queue : Queue}
  {id : UUID} {job : Job}

private theorem Reachable.stays_closed (reachable : Reachable settings sqrt users s)
    (run : Reach (program settings sqrt) Discipline.none s u)
    (found : s.world.db.job? queue id = some job) (closed : job.item.phase = .closed) :
    u.world.db.job? queue id = some job ∧
      jobEvents queue id u.world.log = jobEvents queue id s.world.log := by
  refine reachable.preserves (F := fun w => w.db.job? queue id = some job ∧
    jobEvents queue id w.log = jobEvents queue id s.world.log) run ⟨found,rfl⟩ ?_
  rintro r t held a db events _ change _ ⟨found,same⟩
  obtain ⟨after,still⟩ := change.leaves_closed found closed
  exact ⟨after,still.trans same⟩

private theorem Reachable.counted (reachable : Reachable settings sqrt users s)
    {action : Action Input Exc Request} (taken : s.step (program settings sqrt) action = some u)
    (missing : s.world.db.job? queue id = none) (found : u.world.db.job? queue id = some job)
    (pending : job.status = .pending) {v : Backend}
    (run : Reach (program settings sqrt) Discipline.none u v) : counts queue id v.world := by
  have first : Reach (program settings sqrt) Discipline.none s u :=
    .step action .refl taken (Reach.admits_none action)
  refine (reachable.trans first).preserves (F := counts queue id) run ?_ ?_
  · rcases reachable.change taken with same | ⟨t,i,session,held,db,events,_,_,_,change,same⟩
    · rw [same,missing] at found
      cases found
    · rw [same] at found ⊢
      exact change.begins_counting reachable.inv missing found pending
  · exact fun r t held a db events _ change _ counted => change.keeps_count counted

theorem handOutDiscipline (reachable : Reachable settings sqrt users s) :
    HandOutDiscipline settings (program settings sqrt) s where
  spaced _ _ _ _ _ _ _ _ _ told unretried near := spaced_of_handed reachable.inv told unretried near
  delayed _ _ _ _ _ _ _ _ told unhanded := delayed_of_retried reachable.inv told unhanded
  closed _ _ _ found pending processing _ run :=
    reachable.stays_closed run found (Job.item_closed pending processing)
  counted _ _ _ _ _ taken missing found pending _ run := reachable.counted taken missing found pending run

end runs

/-- A hand-out, a failure that is retried and the next hand-out. -/
def Sample.retried : List (Action Input Exc Request) :=
  Sample.uploaded ++ Sample.claimed 2 "first" 1 ++
    Sample.session 3 (.validationFailure 100 ⟨"first","TIMEOUT",none,true⟩) 5 (Sample.input 2 300) ++
    Sample.claimed 4 "second" (2 + seconds 30)

theorem handOutDiscipline_retried : ∃ s, Sample.after Sample.retried = some s ∧
    jobEvents .validation 100 s.world.log =
      [.handed "first" 1,.retried 2,.handed "second" (2 + seconds 30)] ∧
    HandOutDiscipline Sample.settings (program Sample.settings Rat.sqrt) s := by
  obtain ⟨s,ran,reachable,told⟩ := Sample.reached Sample.retried (fun s =>
    jobEvents .validation 100 s.world.log =
      [.handed "first" 1,.retried 2,.handed "second" (2 + seconds 30)]) (by decide +kernel)
  exact ⟨s,ran,of_decide_eq_true told,handOutDiscipline reachable⟩

section limit
variable {K : Type} [Field K] [LinearOrder K] [IsStrictOrderedRing K] [FloorRing K]
  {settings : Settings} {sqrt : ℚ → K} {users : Table User.id} {s : Backend} {queue : Queue}
  {id : UUID} {job : Job}

/-- A hand-out that takes an expired lease over finds attempts left. -/
def sparing (settings : Settings) : Discipline Db Input Event where
  input _ _ := True
  change w w' := ∀ queue id job worker now, w.db.job? queue id = some job →
    job.status = .processing →
    jobEvents queue id w'.log = jobEvents queue id w.log ++ [.handed worker now] →
    (job.attemptCount : Int) < settings.validationMaxAttempts
  deaths := True

def bounded (settings : Settings) (w : BackendWorld) : Prop :=
  ∀ queue id job, w.db.job? queue id = some job → Lease.Bounded (policy settings) job.item

theorem bounded_of_new (positive : 1 ≤ settings.validationMaxAttempts) {item : Lease.Item String}
    (new : isNew item) : Lease.Bounded (policy settings) item := by
  rcases new with rfl | rfl
  · refine ⟨?_,fun _ _ => ?_⟩ <;> simp only [policy] <;> omega
  · refine ⟨?_,fun _ absurd => by cases absurd⟩
    simpa [policy] using positive

private theorem Change.stays_bounded {r : Request} {t : Nat} {held : List RowKey} {w : BackendWorld}
    {db : Db} {events : List Event} (positive : 1 ≤ settings.validationMaxAttempts)
    (change : Change settings r t held w db events)
    (spared : (sparing settings).change w ((World.mk db w.log).record t events))
    (before : bounded settings w) : bounded settings ((World.mk db w.log).record t events) := by
  intro queue id job' found'
  cases found : w.db.job? queue id with
  | none => exact bounded_of_new positive ((change.jobs.absent queue id found).2 job' found')
  | some job =>
    obtain ⟨job'',after,follows⟩ := change.jobs.present queue id job found
    cases Option.some.inj (found'.symm.trans after)
    rcases follows.moved with ⟨rfl,_⟩ | ⟨_,event,one,applied⟩
    · exact before queue id job' found
    · refine (before queue id job found).apply applied fun worker since handed running => ?_
      have processing : job.status = .processing := by
        cases status : job.status <;> simp_all [Job.item]
      cases event with
      | handed taker now =>
        refine spared queue id job taker now found processing ?_
        rw [World.log_record,jobEvents_record,one]
      | retried => cases handed
      | closed => cases handed

/-- The limit holds in every run whose take-overs find attempts left. -/
theorem boundedAttempts (positive : 1 ≤ settings.validationMaxAttempts)
    (reach : Reach (program settings sqrt) (sparing settings) (launch users) s)
    (found : s.db.job? queue id = some job) :
    (job.attemptCount : Int) ≤ settings.validationMaxAttempts ∧
      ((jobEvents queue id s.world.log).countP Lease.Event.isHanded : Int) ≤
        settings.validationMaxAttempts := by
  have start : Reachable settings sqrt users (launch users) := .refl
  have all : bounded settings s.world := by
    refine start.preserves (F := bounded settings) reach ?_ ?_
    · intro queue id job found
      cases queue <;> cases found
    · intro r t held a db events _ change allowed before
      rcases allowed with same | spared
      · rw [← same]
        exact before
      · exact change.stays_bounded positive spared before
  have limit := (all queue id job found).1
  obtain ⟨start',_,ran⟩ := (start.trans reach).inv.leases.replayed queue id job found
  have counted := Lease.attempts_eq ran
  refine ⟨limit,le_trans ?_ limit⟩
  rw [counted]
  push_cast
  omega

end limit

/-- One lease that expires and is taken over. -/
def Sample.takenOver : List (Action Input Exc Request) :=
  Sample.uploaded ++ Sample.claimed 2 "first" 0 ++ Sample.claimed 3 "second" (seconds 301)

theorem boundedAttempts_takenOver : ∃ s : Backend, s.db.job? .validation 100 ≠ none ∧
    ∀ job, s.db.job? .validation 100 = some job → (job.attemptCount : Int) ≤ 3 ∧
      ((jobEvents .validation 100 s.world.log).countP Lease.Event.isHanded : Int) ≤ 3 := by
  obtain ⟨s,runs,there⟩ := Sample.reachedWhile
    (fun s action u => (sparing Sample.settings).admits s u action)
    (fun s _ _ => [Queue.validation,.embedding].all fun queue =>
      (s.db.jobs queue).all fun job => job.attemptCount < 3)
    (by
      rintro s (_ | _ | _) u _ below
      · trivial
      · refine ⟨trivial,.inr fun queue id job _ _ found _ _ => ?_⟩
        have all := List.all_eq_true.mp below queue (by cases queue <;> simp)
        have less := of_decide_eq_true (List.all_eq_true.mp all job (Db.mem_jobs found))
        exact Int.ofNat_lt.mpr less
      · trivial)
    Sample.takenOver (fun s => s.db.job? .validation 100 ≠ none) (by decide +kernel)
  exact ⟨s,of_decide_eq_true there,fun job found =>
    boundedAttempts (by decide) (Reach.of_runs runs fun _ _ _ admitted => admitted) found⟩

/-- Four workers that die one after the other are four hand-outs. -/
def Sample.exhausted : List (Action Input Exc Request) :=
  Sample.takenOver ++ Sample.claimed 4 "third" (seconds 602) ++ Sample.claimed 5 "fourth" (seconds 903)

theorem attempts_beyond_limit : ¬ ∀ (settings : Settings) (users : Table User.id) (s : Backend)
    (queue : Queue) (id : UUID) (job : Job), 1 ≤ settings.validationMaxAttempts →
      Reachable settings Rat.sqrt users s → s.db.job? queue id = some job →
        (job.attemptCount : Int) ≤ settings.validationMaxAttempts := by
  intro claim
  obtain ⟨s,_,reachable,four⟩ := Sample.reached Sample.exhausted
    (fun s => (s.db.job? .validation 100).any fun job => job.attemptCount = 4) (by decide +kernel)
  obtain ⟨job,found,attempts⟩ := (Option.any_eq_true _ _).mp four
  have limit := claim _ _ s .validation 100 job (by decide) reachable found
  rw [of_decide_eq_true attempts] at limit
  exact absurd limit (by decide)

end Dalm
