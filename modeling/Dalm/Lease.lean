import Mathlib.Data.List.Induction
import Mathlib.Tactic.Linarith

/-! One work item of a queue that leases its work: it waits until it is due, is handed
to a worker until its lease has run out, is retried after a delay, and is closed for
good. Times are integers and workers any type. -/
namespace Lease

structure Policy where
  lease : Int
  limit : Int
  delay : Nat → Int

inductive Phase (ω : Type) where
  | waiting (due : Option Int)
  | running (worker : Option ω) (since : Option Int)
  | closed

structure Item (ω : Type) where
  phase : Phase ω
  attempts : Nat

inductive Event (ω : Type) where
  | handed (worker : ω) (now : Int)
  | retried (now : Int)
  | closed
deriving DecidableEq

namespace Event
variable {ω : Type}

def worker? : Event ω → Option ω
  | .handed worker _ => some worker
  | _ => none

def isHanded : Event ω → Bool
  | .handed _ _ => true
  | _ => false

def isRetried : Event ω → Bool
  | .retried _ => true
  | _ => false

end Event

namespace Policy
variable {ω : Type}

def claimable (p : Policy) (now : Int) : Phase ω → Bool
  | .waiting due => due.all (· ≤ now)
  | .running _ since => since.any (· < now - p.lease)
  | .closed => false

def apply (p : Policy) (item : Item ω) : Event ω → Option (Item ω)
  | .handed worker now =>
    if p.claimable now item.phase then
      some ⟨.running (some worker) (some now),item.attempts + 1⟩
    else none
  | .retried now =>
    match item.phase with
    | .running _ _ =>
      if (item.attempts : Int) < p.limit then
        some ⟨.waiting (some (now + p.delay item.attempts)),item.attempts⟩
      else none
    | _ => none
  | .closed =>
    match item.phase with
    | .closed => none
    | _ => some ⟨.closed,item.attempts⟩

def replay (p : Policy) (item : Item ω) (events : List (Event ω)) : Option (Item ω) :=
  events.foldlM p.apply item

end Policy

section facts
variable {ω : Type} {p : Policy} {start item final : Item ω}

theorem replay_append (events more : List (Event ω)) :
    p.replay start (events ++ more) = (p.replay start events).bind (p.replay · more) := by
  simp [Policy.replay,List.foldlM_append]

theorem replay_cons (event : Event ω) (events : List (Event ω)) :
    p.replay start (event :: events) = (p.apply start event).bind (p.replay · events) := by
  simp [Policy.replay]

theorem replay_concat {events : List (Event ω)} {event : Event ω}
    (before : p.replay start events = some item) (applied : p.apply item event = some final) :
    p.replay start (events ++ [event]) = some final := by
  rw [replay_append,before,Option.bind_some,replay_cons,applied]
  rfl

theorem replay_split {events more : List (Event ω)}
    (ran : p.replay start (events ++ more) = some final) :
    ∃ middle, p.replay start events = some middle ∧ p.replay middle more = some final := by
  rw [replay_append] at ran
  exact Option.bind_eq_some_iff.mp ran

theorem handed_cases {worker : ω} {now : Int} (applied : p.apply item (.handed worker now) = some final) :
    p.claimable now item.phase ∧ final = ⟨.running (some worker) (some now),item.attempts + 1⟩ := by
  simp only [Policy.apply] at applied
  split at applied
  next able => exact ⟨able,(Option.some.inj applied).symm⟩
  next => cases applied

theorem retried_cases {now : Int} (applied : p.apply item (.retried now) = some final) :
    (∃ worker since, item.phase = .running worker since) ∧ (item.attempts : Int) < p.limit ∧
      final = ⟨.waiting (some (now + p.delay item.attempts)),item.attempts⟩ := by
  simp only [Policy.apply] at applied
  split at applied
  next worker since running =>
    split at applied
    next below => exact ⟨⟨worker,since,running⟩,below,(Option.some.inj applied).symm⟩
    next => cases applied
  next => cases applied

theorem closed_cases (applied : p.apply item .closed = some final) :
    item.phase ≠ .closed ∧ final = ⟨.closed,item.attempts⟩ := by
  simp only [Policy.apply] at applied
  split at applied
  next => cases applied
  next other => exact ⟨other,(Option.some.inj applied).symm⟩

theorem apply_handed {worker : ω} {now : Int} (able : p.claimable now item.phase) :
    p.apply item (.handed worker now) = some ⟨.running (some worker) (some now),item.attempts + 1⟩ := by
  simp [Policy.apply,able]

theorem apply_retried {now : Int} {worker : Option ω} {since : Option Int}
    (running : item.phase = .running worker since) (below : (item.attempts : Int) < p.limit) :
    p.apply item (.retried now) = some ⟨.waiting (some (now + p.delay item.attempts)),item.attempts⟩ := by
  simp [Policy.apply,running,below]

theorem apply_closing (open_ : item.phase ≠ .closed) :
    p.apply item .closed = some ⟨.closed,item.attempts⟩ := by
  cases phase : item.phase with
  | waiting due => simp [Policy.apply,phase]
  | running worker since => simp [Policy.apply,phase]
  | closed => exact absurd phase open_

theorem apply_closed {event : Event ω} (closed : item.phase = .closed) :
    p.apply item event = none := by
  cases event <;> simp [Policy.apply,Policy.claimable,closed]

theorem replay_closed {events : List (Event ω)} (closed : start.phase = .closed)
    (ran : p.replay start events = some final) : events = [] := by
  cases events with
  | nil => rfl
  | cons event events => simp [replay_cons,apply_closed closed] at ran

theorem attempts_eq {events : List (Event ω)} (ran : p.replay start events = some final) :
    final.attempts = start.attempts + events.countP Event.isHanded := by
  induction events generalizing start with
  | nil =>
    cases Option.some.inj ran
    simp
  | cons event events ih =>
    rw [replay_cons] at ran
    obtain ⟨next,applied,rest⟩ := Option.bind_eq_some_iff.mp ran
    have after := ih rest
    cases event with
    | handed worker now =>
      obtain ⟨_,rfl⟩ := handed_cases applied
      simp only [Event.isHanded,List.countP_cons,if_pos] at after ⊢
      omega
    | retried now =>
      obtain ⟨_,_,rfl⟩ := retried_cases applied
      simpa [Event.isHanded] using after
    | closed =>
      obtain ⟨_,rfl⟩ := closed_cases applied
      simpa [Event.isHanded] using after

/-- Without a retry the item stays with its workers, each later than the one before by
more than a lease, or it is closed. -/
private theorem running_advances {events : List (Event ω)} {worker : Option ω} {now : Int}
    {attempts : Nat} (ran : p.replay ⟨.running worker (some now),attempts⟩ events = some final)
    (unretried : ∀ event ∈ events, event.isRetried = false) :
    final.phase = .closed ∨ ∃ last since, final.phase = .running last (some since) ∧
      events.countP Event.isHanded * p.lease ≤ since - now := by
  induction events generalizing worker now attempts with
  | nil =>
    cases Option.some.inj ran
    exact .inr ⟨worker,now,rfl,by simp⟩
  | cons event events ih =>
    rw [replay_cons] at ran
    obtain ⟨next,applied,rest⟩ := Option.bind_eq_some_iff.mp ran
    have later : ∀ event ∈ events, event.isRetried = false :=
      fun event member => unretried event (List.mem_cons_of_mem _ member)
    cases event with
    | handed taker time =>
      obtain ⟨able,rfl⟩ := handed_cases applied
      have expired : now < time - p.lease := by simpa [Policy.claimable] using able
      rcases ih rest later with closed | ⟨last,since,running,bound⟩
      · exact .inl closed
      · refine .inr ⟨last,since,running,?_⟩
        simp only [Event.isHanded,List.countP_cons,if_pos]
        push_cast
        linarith
    | retried time => simp [Event.isRetried] at unretried
    | closed =>
      obtain ⟨_,rfl⟩ := closed_cases applied
      have nothing := replay_closed rfl rest
      subst nothing
      cases Option.some.inj rest
      exact .inl rfl

/-- Two hand-outs with no retry between them are more than a lease apart, once for each
hand-out up to the later one. -/
theorem handed_apart {before between : List (Event ω)} {first second : ω} {n₁ n₂ : Int}
    (ran : p.replay start (before ++ .handed first n₁ :: between ++ [.handed second n₂]) = some final)
    (unretried : ∀ event ∈ between, event.isRetried = false) :
    (between.countP Event.isHanded + 1) * p.lease < n₂ - n₁ := by
  obtain ⟨middle,ran,last⟩ := replay_split ran
  obtain ⟨item,_,ran⟩ := replay_split ran
  rw [replay_cons] at ran last
  obtain ⟨_,applied,ran⟩ := Option.bind_eq_some_iff.mp ran
  obtain ⟨_,rfl⟩ := handed_cases applied
  obtain ⟨_,applied,_⟩ := Option.bind_eq_some_iff.mp last
  obtain ⟨able,_⟩ := handed_cases applied
  rcases running_advances ran unretried with closed | ⟨_,since,running,bound⟩
  · simp [closed,Policy.claimable] at able
  · have expired : since < n₂ - p.lease := by simpa [running,Policy.claimable] using able
    linarith

theorem running_attempts {events : List (Event ω)} {worker : Option ω} {since : Option Int}
    (ran : p.replay start events = some final) (idle : ∀ w s, start.phase ≠ .running w s)
    (running : final.phase = .running worker since) :
    ∃ before taker now after, events = before ++ .handed taker now :: after ∧
      after.countP Event.isHanded = 0 ∧ worker = some taker ∧ since = some now := by
  induction events using List.reverseRecOn generalizing final with
  | nil =>
    cases Option.some.inj ran
    exact absurd running (idle _ _)
  | append_singleton events event ih =>
    obtain ⟨item,_,ran⟩ := replay_split ran
    rw [replay_cons] at ran
    obtain ⟨_,applied,same⟩ := Option.bind_eq_some_iff.mp ran
    cases Option.some.inj same
    cases event with
    | handed taker now =>
      obtain ⟨_,rfl⟩ := handed_cases applied
      simp only [Phase.running.injEq] at running
      exact ⟨events,taker,now,[],rfl,rfl,running.1.symm,running.2.symm⟩
    | retried now =>
      obtain ⟨_,_,rfl⟩ := retried_cases applied
      cases running
    | closed =>
      obtain ⟨_,rfl⟩ := closed_cases applied
      cases running

theorem running_last {events : List (Event ω)} {worker : Option ω} {since : Option Int}
    (ran : p.replay start events = some final) (idle : ∀ w s, start.phase ≠ .running w s)
    (running : final.phase = .running worker since) :
    (events.filterMap Event.worker?).getLast? = worker := by
  obtain ⟨before,taker,now,after,rfl,unhanded,rfl,_⟩ := running_attempts ran idle running
  have nobody : after.filterMap Event.worker? = [] := by
    rw [List.filterMap_eq_nil_iff]
    intro event member
    have other := List.countP_eq_zero.mp unhanded event member
    cases event <;> simp [Event.isHanded] at other <;> rfl
  have last : (Event.handed taker now :: after).filterMap Event.worker? = [taker] := by
    rw [List.filterMap_cons,nobody]
    rfl
  rw [List.filterMap_append,last,List.getLast?_append]
  rfl

/-- After a retry the next hand-out waits for the delay of the attempts made. -/
theorem handed_after_retry {before between : List (Event ω)} {worker : ω} {f n : Int}
    (ran : p.replay start (before ++ .retried f :: between ++ [.handed worker n]) = some final)
    (idle : ∀ w s, start.phase ≠ .running w s)
    (unhanded : ∀ event ∈ between, event.isHanded = false) :
    1 ≤ before.countP Event.isHanded ∧
      f + p.delay (start.attempts + before.countP Event.isHanded) ≤ n := by
  obtain ⟨middle,ran,last⟩ := replay_split ran
  obtain ⟨item,first,ran⟩ := replay_split ran
  have attempts := attempts_eq first
  rw [replay_cons] at ran last
  obtain ⟨_,applied,ran⟩ := Option.bind_eq_some_iff.mp ran
  obtain ⟨⟨w,s,running⟩,_,rfl⟩ := retried_cases applied
  obtain ⟨_,applied,_⟩ := Option.bind_eq_some_iff.mp last
  obtain ⟨able,_⟩ := handed_cases applied
  have handed : 1 ≤ before.countP Event.isHanded := by
    obtain ⟨_,taker,now,_,rfl,_,_,_⟩ := running_attempts first idle running
    rw [List.one_le_countP_iff]
    exact ⟨.handed taker now,by simp,rfl⟩
  refine ⟨handed,?_⟩
  rw [← attempts]
  cases between with
  | nil =>
    cases Option.some.inj ran
    simpa [Policy.claimable] using able
  | cons event between =>
    rw [replay_cons] at ran
    obtain ⟨_,applied,rest⟩ := Option.bind_eq_some_iff.mp ran
    cases event with
    | handed => simp [Event.isHanded] at unhanded
    | retried => simp [Policy.apply] at applied
    | closed =>
      obtain ⟨_,rfl⟩ := closed_cases applied
      have nothing := replay_closed rfl rest
      subst nothing
      cases Option.some.inj rest
      simp [Policy.claimable] at able

/-- The attempts made stay within the limit, and below it while the item waits. -/
def Bounded (p : Policy) (item : Item ω) : Prop :=
  (item.attempts : Int) ≤ p.limit ∧ ∀ due, item.phase = .waiting due → (item.attempts : Int) < p.limit

theorem Bounded.apply {event : Event ω} (bounded : Bounded p item)
    (applied : p.apply item event = some final)
    (takeover : ∀ w s, event.isHanded → item.phase = .running w s → (item.attempts : Int) < p.limit) :
    Bounded p final := by
  cases event with
  | handed worker now =>
    obtain ⟨able,rfl⟩ := handed_cases applied
    have below : (item.attempts : Int) < p.limit := by
      cases phase : item.phase with
      | waiting due => exact bounded.2 due phase
      | running w s => exact takeover w s rfl phase
      | closed => simp [phase,Policy.claimable] at able
    refine ⟨?_,fun due absurd => by cases absurd⟩
    push_cast
    omega
  | retried now =>
    obtain ⟨_,below,rfl⟩ := retried_cases applied
    exact ⟨below.le,fun _ _ => below⟩
  | closed =>
    obtain ⟨_,rfl⟩ := closed_cases applied
    exact ⟨bounded.1,fun due absurd => by cases absurd⟩

end facts
end Lease
