import Dalm.Relational.Transaction
import Mathlib.Logic.Relation

/-! Sessions run together, statement by statement, under READ COMMITTED. A plain read
sees what is committed at its own instant; a locked row stays with its session until
commit, rollback or the end of the session; a row held by another session is waited
for, which is a step that is not enabled. -/
namespace Relational

/-- The committed database with the history of what was committed and observed. -/
structure World (σ ε : Type) where
  db : σ
  log : List (Nat × ε)

namespace World
variable {σ ε : Type}

def record (w : World σ ε) (t : Nat) (events : List ε) : World σ ε :=
  {w with log := w.log ++ events.map (fun event => (t,event))}

@[simp] theorem db_record (w : World σ ε) (t : Nat) (events : List ε) :
    (w.record t events).db = w.db := rfl

@[simp] theorem log_record (w : World σ ε) (t : Nat) (events : List ε) :
    (w.record t events).log = w.log ++ events.map (fun event => (t,event)) := rfl

@[simp] theorem record_nil (w : World σ ε) (t : Nat) : w.record t [] = w := by
  simp [record]

theorem told_cases {α : Type} {log new earlier later : List α} {entry : α}
    (told : log ++ new = earlier ++ entry :: later) :
    (∃ later, log = earlier ++ entry :: later) ∨
      ∃ between, earlier = log ++ between ∧ new = between ++ entry :: later := by
  rcases List.append_eq_append_iff.mp told with ⟨between,same,new⟩ | ⟨rest,same,split⟩
  · exact .inr ⟨between,same,new⟩
  · cases rest with
    | nil =>
      rw [List.append_nil] at same
      exact .inr ⟨[],by rw [same,List.append_nil],split.symm⟩
    | cons head rest =>
      cases split
      exact .inl ⟨rest,same⟩

end World

structure Store (σ κ ε : Type) where
  world : World σ ε
  owner : κ → Option Nat

namespace Store
variable {σ κ ε : Type} [DecidableEq κ]

def free (s : Store σ κ ε) (t : Nat) (key : κ) : Bool :=
  s.owner key = none ∨ s.owner key = some t

def take (s : Store σ κ ε) (t : Nat) (key : κ) : Store σ κ ε :=
  {s with owner := fun other => if other = key then some t else s.owner other}

omit [DecidableEq κ] in
def release (s : Store σ κ ε) (t : Nat) : Store σ κ ε :=
  {s with owner := fun key => if s.owner key = some t then none else s.owner key}

section owners
variable {store : Store σ κ ε} {t v : Nat} {key other : κ}

omit [DecidableEq κ] in
theorem owner_release : (store.release t).owner key = some v ↔ v ≠ t ∧ store.owner key = some v := by
  simp only [release]
  split
  next mine => simp [mine,eq_comm]
  next mine =>
    refine ⟨fun owned => ⟨?_,owned⟩,And.right⟩
    rintro rfl
    exact mine owned

theorem owner_take (owned : (store.take t key).owner other = some v) :
    (other = key ∧ v = t) ∨ store.owner other = some v := by
  simp only [take] at owned
  split at owned
  next same => exact .inl ⟨same,(Option.some.inj owned).symm⟩
  next => exact .inr owned

end owners
end Store

variable {σ κ ι ε err ρ α : Type} [Lockable σ κ] [DecidableEq κ]

/-- The next statement of session `t`; `none` while it waits for a row. -/
def Txn.exec (t : Nat) (i : ι) (s : Store σ κ ε) :
    Txn σ κ ι ε err α → Option (Store σ κ ε × (Txn σ κ ι ε err α ⊕ Except err α))
  | .ret value => some (s.release t,.inr (.ok value))
  | .raise error => some (s.release t,.inr (.error error))
  | .input next => some (s,.inl (next i))
  | .read seen next =>
    some ({s with world := s.world.record t (seen s.world.db)},.inl (next s.world.db))
  | .lock key cond next =>
    if s.free t key then
      match (Lockable.view key s.world.db).filter cond with
      | some row => some (s.take t key,.inl (next (some row)))
      | none => some (s,.inl (next none))
    else none
  | .tryLock key cond next =>
    if s.free t key then
      match (Lockable.view key s.world.db).filter cond with
      | some row => some (s.take t key,.inl (next (some row)))
      | none => some (s,.inl (next none))
    else some (s,.inl (next none))
  | .commit writes next =>
    match writes i s.world.db with
    | some (db,events) =>
      some ({s with world := (World.mk db s.world.log).record t events}.release t,.inl (next i true))
    | none => some (s,.inl (next i false))
  | .rollback next => some (s.release t,.inl next)

structure Session (σ κ ι ε err ρ α : Type) [Lockable σ κ] where
  request : ρ
  state : Txn σ κ ι ε err α ⊕ Except err α

structure System (σ κ ι ε err ρ α : Type) [Lockable σ κ] where
  store : Store σ κ ε
  session : Nat → Option (Session σ κ ι ε err ρ α)

/-- A session starts, takes its next statement, or dies with an error of the database
or of the connection, which rolls its transaction back. -/
inductive Action (ι err ρ : Type) where
  | start (t : Nat) (request : ρ)
  | exec (t : Nat) (i : ι)
  | die (t : Nat) (error : err)

namespace System

def world (s : System σ κ ι ε err ρ α) : World σ ε := s.store.world

def db (s : System σ κ ι ε err ρ α) : σ := s.store.world.db

/-- Nobody is connected, nothing is locked and nothing has happened yet. -/
def initial (db : σ) : System σ κ ι ε err ρ α := ⟨⟨⟨db,[]⟩,fun _ => none⟩,fun _ => none⟩

def put (s : System σ κ ι ε err ρ α) (t : Nat) (session : Session σ κ ι ε err ρ α) :
    Nat → Option (Session σ κ ι ε err ρ α) :=
  fun u => if u = t then some session else s.session u

def step (program : ρ → Txn σ κ ι ε err α) (s : System σ κ ι ε err ρ α) :
    Action ι err ρ → Option (System σ κ ι ε err ρ α)
  | .start t request =>
    match s.session t with
    | some _ => none
    | none => some {s with session := s.put t ⟨request,.inl (program request)⟩}
  | .exec t i =>
    match s.session t with
    | some ⟨request,.inl remaining⟩ =>
      (remaining.exec t i s.store).map fun (store,state) => ⟨store,s.put t ⟨request,state⟩⟩
    | _ => none
  | .die t error =>
    match s.session t with
    | some ⟨request,.inl _⟩ => some ⟨s.store.release t,s.put t ⟨request,.inr (.error error)⟩⟩
    | _ => none

def run (program : ρ → Txn σ κ ι ε err α) :
    List (Action ι err ρ) → System σ κ ι ε err ρ α → Option (System σ κ ι ε err ρ α)
  | [],s => some s
  | action :: rest,s => (s.step program action).bind (run program rest)

/-- A run every step of which passes a check. -/
def runWhile (program : ρ → Txn σ κ ι ε err α)
    (check : System σ κ ι ε err ρ α → Action ι err ρ → System σ κ ι ε err ρ α → Bool) :
    List (Action ι err ρ) → System σ κ ι ε err ρ α → Option (System σ κ ι ε err ρ α)
  | [],s => some s
  | action :: rest,s => (s.step program action).bind fun u =>
      if check s action u then runWhile program check rest u else none

end System

/-- What the environment is assumed to do: the inputs it may supply in a world, the
changes of the world that may happen, and whether sessions may die. -/
structure Discipline (σ ι ε : Type) where
  input : World σ ε → ι → Prop
  change : World σ ε → World σ ε → Prop
  deaths : Prop

namespace Discipline

def none : Discipline σ ι ε := ⟨fun _ _ => True,fun _ _ => True,True⟩

def allows (D : Discipline σ ι ε) (w w' : World σ ε) : Prop := w = w' ∨ D.change w w'

def admits (D : Discipline σ ι ε) (before after : System σ κ ι ε err ρ α) :
    Action ι err ρ → Prop
  | .start _ _ => True
  | .exec _ i => D.input before.world i ∧ D.allows before.world after.world
  | .die _ _ => D.deaths

end Discipline

/-- The runs whose every step stands in `R`. -/
def Runs (program : ρ → Txn σ κ ι ε err α)
    (R : System σ κ ι ε err ρ α → Action ι err ρ → System σ κ ι ε err ρ α → Prop) :
    System σ κ ι ε err ρ α → System σ κ ι ε err ρ α → Prop :=
  Relation.ReflTransGen fun s u => ∃ action, s.step program action = some u ∧ R s action u

/-- The systems some interleaving leads to from `start`, every step under `D`. -/
inductive Reach (program : ρ → Txn σ κ ι ε err α) (D : Discipline σ ι ε)
    (start : System σ κ ι ε err ρ α) : System σ κ ι ε err ρ α → Prop where
  | refl : Reach program D start start
  | step {s u : System σ κ ι ε err ρ α} (action : Action ι err ρ) (before : Reach program D start s)
      (taken : s.step program action = some u) (admitted : D.admits s u action) :
      Reach program D start u

namespace Reach
variable {program : ρ → Txn σ κ ι ε err α} {D : Discipline σ ι ε}

theorem trans {a b c : System σ κ ι ε err ρ α} (first : Reach program D a b)
    (second : Reach program D b c) : Reach program D a c := by
  induction second with
  | refl => exact first
  | step action _ taken admitted ih => exact .step action ih taken admitted

omit [DecidableEq κ] in
theorem admits_none {s u : System σ κ ι ε err ρ α} (action : Action ι err ρ) :
    Discipline.none.admits s u action := by
  cases action with
  | start => trivial
  | exec => exact ⟨trivial,.inr trivial⟩
  | die => trivial

theorem free {s u : System σ κ ι ε err ρ α} (reach : Reach program D s u) :
    Reach program Discipline.none s u := by
  induction reach with
  | refl => exact .refl
  | step action _ taken _ ih => exact .step action ih taken (admits_none action)

theorem exec_appends {t : Nat} {i : ι} {p : Txn σ κ ι ε err α} {s u : Store σ κ ε}
    {state : Txn σ κ ι ε err α ⊕ Except err α} (ran : p.exec t i s = some (u,state)) :
    ∃ events : List ε, u.world.log = s.world.log ++ events.map fun event => (t,event) := by
  have nothing : s.world.log = s.world.log ++ ([] : List ε).map fun event => (t,event) :=
    (List.append_nil _).symm
  cases p with
  | ret | raise | input | rollback =>
    cases Option.some.inj ran
    exact ⟨[],nothing⟩
  | read seen next =>
    cases Option.some.inj ran
    exact ⟨seen s.world.db,rfl⟩
  | lock key cond next =>
    simp only [Txn.exec] at ran
    split at ran
    · split at ran <;> cases Option.some.inj ran <;> exact ⟨[],nothing⟩
    · cases ran
  | tryLock key cond next =>
    simp only [Txn.exec] at ran
    split at ran
    · split at ran <;> cases Option.some.inj ran <;> exact ⟨[],nothing⟩
    · cases Option.some.inj ran
      exact ⟨[],nothing⟩
  | commit writes next =>
    simp only [Txn.exec] at ran
    split at ran
    next db events written =>
      cases Option.some.inj ran
      exact ⟨events,rfl⟩
    next =>
      cases Option.some.inj ran
      exact ⟨[],nothing⟩

theorem exec_log {t : Nat} {i : ι} {p : Txn σ κ ι ε err α} {s u : Store σ κ ε}
    {state : Txn σ κ ι ε err α ⊕ Except err α} (ran : p.exec t i s = some (u,state)) :
    s.world.log <+: u.world.log := by
  obtain ⟨events,same⟩ := exec_appends ran
  rw [same]
  exact List.prefix_append _ _

theorem log_grows {s u : System σ κ ι ε err ρ α} (reach : Reach program D s u) :
    s.world.log <+: u.world.log := by
  induction reach with
  | refl => exact List.prefix_rfl
  | step action _ taken _ ih =>
    refine ih.trans ?_
    cases action with
    | start t r =>
      simp only [System.step] at taken
      split at taken <;> cases taken
      exact List.prefix_rfl
    | exec t i =>
      simp only [System.step] at taken
      split at taken
      · obtain ⟨⟨store,state⟩,ran,rfl⟩ := Option.map_eq_some_iff.mp taken
        exact exec_log ran
      · cases taken
    | die t error =>
      simp only [System.step] at taken
      split at taken <;> cases taken
      exact List.prefix_rfl

/-- The three kinds of steps. -/
inductive Taken (program : ρ → Txn σ κ ι ε err α) (s : System σ κ ι ε err ρ α) :
    Action ι err ρ → System σ κ ι ε err ρ α → Prop
  | start {t : Nat} {r : ρ} (absent : s.session t = none) :
    Taken program s (.start t r) {s with session := s.put t ⟨r,.inl (program r)⟩}
  | exec {t : Nat} {i : ι} {r : ρ} {p : Txn σ κ ι ε err α} {store : Store σ κ ε}
      {state : Txn σ κ ι ε err α ⊕ Except err α} (running : s.session t = some ⟨r,.inl p⟩)
      (ran : p.exec t i s.store = some (store,state)) :
    Taken program s (.exec t i) ⟨store,s.put t ⟨r,state⟩⟩
  | die {t : Nat} {error : err} {r : ρ} {p : Txn σ κ ι ε err α}
      (running : s.session t = some ⟨r,.inl p⟩) :
    Taken program s (.die t error) ⟨s.store.release t,s.put t ⟨r,.inr (.error error)⟩⟩

theorem taken_of_step {s u : System σ κ ι ε err ρ α} {action : Action ι err ρ}
    (taken : s.step program action = some u) : Taken program s action u := by
  cases action with
  | start t r =>
    simp only [System.step] at taken
    split at taken
    next => cases taken
    next absent =>
      cases taken
      exact .start absent
  | exec t i =>
    simp only [System.step] at taken
    split at taken
    next r p running =>
      obtain ⟨⟨store,state⟩,ran,rfl⟩ := Option.map_eq_some_iff.mp taken
      exact .exec running ran
    next => cases taken
  | die t error =>
    simp only [System.step] at taken
    split at taken
    next r p running =>
      cases taken
      exact .die running
    next => cases taken

omit [DecidableEq κ] in
theorem put_self {s : System σ κ ι ε err ρ α} {t : Nat} {session : Session σ κ ι ε err ρ α} :
    s.put t session t = some session := by simp [System.put]

omit [DecidableEq κ] in
theorem put_other {s : System σ κ ι ε err ρ α} {t v : Nat} {session : Session σ κ ι ε err ρ α}
    (other : t ≠ v) : s.put v session t = s.session t := by simp [System.put,other]

/-- A session that has begun goes on with its request. -/
theorem request_stays {s u : System σ κ ι ε err ρ α} {action : Action ι err ρ} {t : Nat}
    {session : Session σ κ ι ε err ρ α} (present : s.session t = some session)
    (taken : s.step program action = some u) : ∃ state, u.session t = some ⟨session.request,state⟩ := by
  cases taken_of_step taken with
  | @start v r absent =>
    have other : t ≠ v := fun same => by rw [same,absent] at present; cases present
    exact ⟨session.state,(put_other other).trans present⟩
  | @exec v i r p store state running ran =>
    rcases eq_or_ne t v with rfl | other
    · cases present.symm.trans running
      exact ⟨state,put_self⟩
    · exact ⟨session.state,(put_other other).trans present⟩
  | @die v error r p running =>
    rcases eq_or_ne t v with rfl | other
    · cases present.symm.trans running
      exact ⟨_,put_self⟩
    · exact ⟨session.state,(put_other other).trans present⟩

/-- Where only some requests are started, every session has one of them. -/
theorem requested {start s : System σ κ ι ε err ρ α} {P : ρ → Prop}
    {R : System σ κ ι ε err ρ α → Action ι err ρ → System σ κ ι ε err ρ α → Prop}
    (runs : Runs program R start s) (idle : ∀ t, start.session t = none)
    (each : ∀ a t r b, R a (.start t r) b → P r) {t : Nat} {session : Session σ κ ι ε err ρ α}
    (present : s.session t = some session) : P session.request := by
  induction runs generalizing session with
  | refl =>
    rw [idle] at present
    cases present
  | @tail a b before link ih =>
    obtain ⟨action,taken,holds⟩ := link
    cases taken_of_step taken with
    | @start v r absent =>
      rcases eq_or_ne t v with rfl | other
      · cases put_self.symm.trans present
        exact each a t r _ holds
      · exact ih ((put_other other).symm.trans present)
    | @exec v i r p store state running ran =>
      rcases eq_or_ne t v with rfl | other
      · cases put_self.symm.trans present
        have asked := ih running
        exact asked
      · exact ih ((put_other other).symm.trans present)
    | @die v error r p running =>
      rcases eq_or_ne t v with rfl | other
      · cases put_self.symm.trans present
        have asked := ih running
        exact asked
      · exact ih ((put_other other).symm.trans present)

/-- Whose step it is. -/
def Action.session : Action ι err ρ → Nat
  | .start t _ => t
  | .exec t _ => t
  | .die t _ => t

/-- What holds of a session when it starts, and is kept by its own statements, by its death
and by the steps of the others, holds of it in every system of the run. -/
theorem runs_session_since {start s : System σ κ ι ε err ρ α} {t : Nat} {r : ρ}
    {R : System σ κ ι ε err ρ α → Action ι err ρ → System σ κ ι ε err ρ α → Prop}
    {Q : System σ κ ι ε err ρ α → Txn σ κ ι ε err α ⊕ Except err α → Prop}
    (runs : Runs program R start s) (absent : start.session t = none)
    (starts : ∀ a, Runs program R start a → a.session t = none →
      Q {a with session := a.put t ⟨r,.inl (program r)⟩} (.inl (program r)))
    (own : ∀ a i p store state, Runs program R start a → a.session t = some ⟨r,.inl p⟩ →
      Q a (.inl p) → p.exec t i a.store = some (store,state) →
      a.step program (.exec t i) = some ⟨store,a.put t ⟨r,state⟩⟩ →
      R a (.exec t i) ⟨store,a.put t ⟨r,state⟩⟩ → Q ⟨store,a.put t ⟨r,state⟩⟩ state)
    (dies : ∀ a b error p, Runs program R start a → a.session t = some ⟨r,.inl p⟩ → Q a (.inl p) →
      a.step program (.die t error) = some b → b.world = a.world → R a (.die t error) b →
      Q b (.inr (.error error)))
    (others : ∀ a action b state, Runs program R start a → a.session t = some ⟨r,state⟩ →
      Action.session action ≠ t → Q a state →
      a.step program action = some b → R a action b → Q b state)
    {state : Txn σ κ ι ε err α ⊕ Except err α} (present : s.session t = some ⟨r,state⟩) :
    Q s state := by
  induction runs generalizing state with
  | refl =>
    rw [absent] at present
    cases present
  | @tail a b before link ih =>
    obtain ⟨action,taken,holds⟩ := link
    cases taken_of_step taken with
    | @start v q absent =>
      rcases eq_or_ne t v with rfl | other
      · cases (put_self.symm.trans present)
        exact starts a before absent
      · have there := (put_other other).symm.trans present
        exact others a (.start v q) _ state before there other.symm (ih there) taken holds
    | @exec v i q p store state' running ran =>
      rcases eq_or_ne t v with rfl | other
      · cases (put_self.symm.trans present)
        exact own a i p store state before running (ih running) ran taken holds
      · have there := (put_other other).symm.trans present
        exact others a (.exec v i) _ state before there other.symm (ih there) taken holds
    | @die v error q p running =>
      rcases eq_or_ne t v with rfl | other
      · cases (put_self.symm.trans present)
        exact dies a _ error p before running (ih running) taken rfl holds
      · have there := (put_other other).symm.trans present
        exact others a (.die v error) _ state before there other.symm (ih there) taken holds

theorem runs_session_rule {start s : System σ κ ι ε err ρ α} {t : Nat} {r : ρ}
    {R : System σ κ ι ε err ρ α → Action ι err ρ → System σ κ ι ε err ρ α → Prop}
    {Q : System σ κ ι ε err ρ α → Txn σ κ ι ε err α ⊕ Except err α → Prop}
    (runs : Runs program R start s) (idle : ∀ t, start.session t = none)
    (starts : ∀ a, Runs program R start a → a.session t = none →
      Q {a with session := a.put t ⟨r,.inl (program r)⟩} (.inl (program r)))
    (own : ∀ a i p store state, Runs program R start a → a.session t = some ⟨r,.inl p⟩ →
      Q a (.inl p) → p.exec t i a.store = some (store,state) →
      a.step program (.exec t i) = some ⟨store,a.put t ⟨r,state⟩⟩ →
      R a (.exec t i) ⟨store,a.put t ⟨r,state⟩⟩ → Q ⟨store,a.put t ⟨r,state⟩⟩ state)
    (dies : ∀ a b error p, Runs program R start a → a.session t = some ⟨r,.inl p⟩ → Q a (.inl p) →
      a.step program (.die t error) = some b → b.world = a.world → R a (.die t error) b →
      Q b (.inr (.error error)))
    (others : ∀ a action b state, Runs program R start a → a.session t = some ⟨r,state⟩ →
      Action.session action ≠ t → Q a state →
      a.step program action = some b → R a action b → Q b state)
    {state : Txn σ κ ι ε err α ⊕ Except err α} (present : s.session t = some ⟨r,state⟩) :
    Q s state := runs_session_since runs (idle t) starts own dies others present

/-- A run under a discipline is one whose every step the discipline admits. -/
theorem runs_admitted {s u : System σ κ ι ε err ρ α} (reach : Reach program D s u) :
    Runs program (fun a action b => D.admits a b action) s u := by
  induction reach with
  | refl => exact .refl
  | step action _ taken admitted ih => exact ih.tail ⟨action,taken,admitted⟩

theorem of_admitted {s u : System σ κ ι ε err ρ α}
    (runs : Runs program (fun a action b => D.admits a b action) s u) : Reach program D s u := by
  induction runs with
  | refl => exact .refl
  | tail _ link ih =>
    obtain ⟨action,taken,admitted⟩ := link
    exact .step action ih taken admitted

theorem session_since {start s : System σ κ ι ε err ρ α} {t : Nat} {r : ρ}
    {Q : System σ κ ι ε err ρ α → Txn σ κ ι ε err α ⊕ Except err α → Prop}
    (reach : Reach program D start s) (absent : start.session t = none)
    (starts : ∀ a, Reach program D start a → a.session t = none →
      Q {a with session := a.put t ⟨r,.inl (program r)⟩} (.inl (program r)))
    (own : ∀ a i p store state, Reach program D start a → a.session t = some ⟨r,.inl p⟩ →
      Q a (.inl p) → p.exec t i a.store = some (store,state) →
      a.step program (.exec t i) = some ⟨store,a.put t ⟨r,state⟩⟩ →
      D.admits a ⟨store,a.put t ⟨r,state⟩⟩ (.exec t i) → Q ⟨store,a.put t ⟨r,state⟩⟩ state)
    (dies : ∀ a b error p, Reach program D start a → Q a (.inl p) →
      a.step program (.die t error) = some b → b.world = a.world → D.admits a b (.die t error) →
      Q b (.inr (.error error)))
    (others : ∀ a action b state, Reach program D start a → Action.session action ≠ t → Q a state →
      a.step program action = some b → D.admits a b action → Q b state)
    {state : Txn σ κ ι ε err α ⊕ Except err α} (present : s.session t = some ⟨r,state⟩) :
    Q s state := by
  refine runs_session_since reach.runs_admitted absent (fun a before => starts a (of_admitted before))
    (fun a i p store state before => own a i p store state (of_admitted before)) ?_ ?_ present
  · exact fun a b error p before _ => dies a b error p (of_admitted before)
  · exact fun a action b state before _ => others a action b state (of_admitted before)

theorem session_rule {start s : System σ κ ι ε err ρ α} {t : Nat} {r : ρ}
    {Q : System σ κ ι ε err ρ α → Txn σ κ ι ε err α ⊕ Except err α → Prop}
    (reach : Reach program D start s) (idle : ∀ t, start.session t = none)
    (starts : ∀ a, Reach program D start a → a.session t = none →
      Q {a with session := a.put t ⟨r,.inl (program r)⟩} (.inl (program r)))
    (own : ∀ a i p store state, Reach program D start a → a.session t = some ⟨r,.inl p⟩ →
      Q a (.inl p) → p.exec t i a.store = some (store,state) →
      a.step program (.exec t i) = some ⟨store,a.put t ⟨r,state⟩⟩ →
      D.admits a ⟨store,a.put t ⟨r,state⟩⟩ (.exec t i) → Q ⟨store,a.put t ⟨r,state⟩⟩ state)
    (dies : ∀ a b error p, Reach program D start a → Q a (.inl p) →
      a.step program (.die t error) = some b → b.world = a.world → D.admits a b (.die t error) →
      Q b (.inr (.error error)))
    (others : ∀ a action b state, Reach program D start a → Action.session action ≠ t → Q a state →
      a.step program action = some b → D.admits a b action → Q b state)
    {state : Txn σ κ ι ε err α ⊕ Except err α} (present : s.session t = some ⟨r,state⟩) :
    Q s state := session_since reach (idle t) starts own dies others present

/-- A session that has not started has told nothing. -/
theorem unheard {start s : System σ κ ι ε err ρ α} (reach : Reach program D start s)
    (silent : start.world.log = []) {t : Nat} (absent : s.session t = none) :
    ∀ entry ∈ s.world.log, entry.1 ≠ t := by
  induction reach with
  | refl => simp [silent]
  | @step a b action before taken admitted ih =>
    have other : ∀ {v : Nat} {session : Session σ κ ι ε err ρ α}, a.put v session t = none →
        t ≠ v ∧ a.session t = none := by
      intro v session none_
      rcases eq_or_ne t v with rfl | other
      · rw [put_self] at none_
        cases none_
      · exact ⟨other,(put_other other).symm.trans none_⟩
    cases taken_of_step taken with
    | start => exact ih (other absent).2
    | @exec v i q p store state running ran =>
      obtain ⟨different,earlier⟩ := other absent
      obtain ⟨events,same⟩ := exec_appends ran
      intro entry member
      rw [show (System.world ⟨store,a.put v ⟨q,state⟩⟩).log = _ from same] at member
      rcases List.mem_append.mp member with old | new
      · exact ih earlier entry old
      · obtain ⟨event,_,rfl⟩ := List.mem_map.mp new
        exact different.symm
    | die => exact ih (other absent).2

theorem ended_stays {s u : System σ κ ι ε err ρ α} (reach : Reach program D s u) {t : Nat} {r : ρ}
    {x : Except err α} (ended : s.session t = some ⟨r,.inr x⟩) : u.session t = some ⟨r,.inr x⟩ := by
  induction reach with
  | refl => exact ended
  | @step a b action before taken admitted ih =>
    have other : ∀ {v : Nat} {session : Session σ κ ι ε err ρ α}, a.session v ≠ some ⟨r,.inr x⟩ →
        a.put v session t = some ⟨r,.inr x⟩ := by
      intro v session differs
      have different : t ≠ v := by
        intro same
        subst same
        exact differs ih
      rw [put_other different]
      exact ih
    cases taken_of_step taken with
    | start absent => exact other (by rw [absent]; simp)
    | exec running ran => exact other (by rw [running]; simp)
    | die running => exact other (by rw [running]; simp)

theorem of_run {actions : List (Action ι err ρ)} {s u : System σ κ ι ε err ρ α}
    (ran : s.run program actions = some u) : Reach program Discipline.none s u := by
  induction actions generalizing s with
  | nil =>
    cases Option.some.inj ran
    exact .refl
  | cons action rest ih =>
    obtain ⟨next,taken,remaining⟩ := Option.bind_eq_some_iff.mp ran
    have first : Reach program Discipline.none s next := .step action .refl taken (admits_none action)
    exact first.trans (ih remaining)

section runs
variable {R S : System σ κ ι ε err ρ α → Action ι err ρ → System σ κ ι ε err ρ α → Prop}

theorem of_runs {s u : System σ κ ι ε err ρ α} (runs : Runs program R s u)
    (each : ∀ s action u, R s action u → D.admits s u action) : Reach program D s u := by
  induction runs with
  | refl => exact .refl
  | tail _ link ih =>
    obtain ⟨action,taken,holds⟩ := link
    exact .step action ih taken (each _ action _ holds)

/-- What the run so far makes of every step holds along the run. -/
theorem runs_imp {s u : System σ κ ι ε err ρ α} (runs : Runs program R s u)
    (each : ∀ a action b, Runs program R s a → a.step program action = some b →
      R a action b → S a action b) : Runs program S s u := by
  induction runs with
  | refl => exact .refl
  | tail before link ih =>
    obtain ⟨action,taken,holds⟩ := link
    exact ih.tail ⟨action,taken,each _ action _ before taken holds⟩

/-- What holds of every step from a system reached holds along the run. -/
theorem runs_mono {s u : System σ κ ι ε err ρ α} (runs : Runs program R s u)
    (each : ∀ a action b, Reach program Discipline.none s a → a.step program action = some b →
      R a action b → S a action b) : Runs program S s u :=
  runs_imp runs fun a action b before => each a action b
    (of_runs before fun _ action _ _ => admits_none action)

/-- A session that is never stepped stays as it is. -/
theorem runs_idle {s u : System σ κ ι ε err ρ α} (runs : Runs program R s u) {t : Nat}
    (others : ∀ a action b, R a action b → Action.session action ≠ t) : u.session t = s.session t := by
  induction runs with
  | refl => rfl
  | tail before link ih =>
    obtain ⟨action,taken,holds⟩ := link
    have other := others _ _ _ holds
    cases taken_of_step taken with
    | start | exec | die => exact (put_other other.symm).trans ih

theorem runs_of_runWhile
    {check : System σ κ ι ε err ρ α → Action ι err ρ → System σ κ ι ε err ρ α → Bool}
    {actions : List (Action ι err ρ)} {s u : System σ κ ι ε err ρ α}
    (sound : ∀ s action u, s.step program action = some u → check s action u = true → R s action u)
    (ran : s.runWhile program check actions = some u) : Runs program R s u := by
  induction actions generalizing s with
  | nil =>
    cases Option.some.inj ran
    exact .refl
  | cons action rest ih =>
    obtain ⟨next,taken,remaining⟩ := Option.bind_eq_some_iff.mp ran
    split at remaining
    next passes => exact .head ⟨action,taken,sound s action next taken passes⟩ (ih remaining)
    next => cases remaining

end runs
end Reach
end Relational
