import Dalm.Relational.Alone

/-! What every commit of a program keeps, and what a program comes to when the others keep
something too and the run allows only some of its commits. -/
namespace Relational
variable {σ κ ι ε err ρ α β : Type} [Lockable σ κ]

namespace Txn

/-- Whatever a commit of the program finds, what it leaves stands in `R` to it. -/
def Keeps (R : σ → σ → Prop) : Txn σ κ ι ε err α → Prop
  | .ret _ => True
  | .raise _ => True
  | .input next => ∀ i, (next i).Keeps R
  | .read _ next => ∀ db, (next db).Keeps R
  | .lock _ _ next => ∀ row, (next row).Keeps R
  | .tryLock _ _ next => ∀ row, (next row).Keeps R
  | .commit writes next => (∀ i db db' events, writes i db = some (db',events) → R db db') ∧
      ∀ i done, (next i done).Keeps R
  | .rollback next => next.Keeps R

section keeps
variable {R : σ → σ → Prop}

theorem keeps_bind {p : Txn σ κ ι ε err β} {f : β → Txn σ κ ι ε err α} (keeps : p.Keeps R)
    (each : ∀ b, (f b).Keeps R) : (p >>= f).Keeps R := by
  change (p.bind f).Keeps R
  induction p with
  | ret value => exact each value
  | raise error => trivial
  | input next ih => exact fun i => ih i (keeps i)
  | read seen next ih => exact fun db => ih db (keeps db)
  | lock key cond next ih => exact fun row => ih row (keeps row)
  | tryLock key cond next ih => exact fun row => ih row (keeps row)
  | commit writes next ih => exact ⟨keeps.1,fun i done => ih i done (keeps.2 i done)⟩
  | rollback next ih => exact ih keeps

theorem keeps_supply : (supply : Txn σ κ ι ε err ι).Keeps R := fun _ => trivial

theorem keeps_query (f : σ → α) : (query f : Txn σ κ ι ε err α).Keeps R := fun _ => trivial

theorem keeps_selectForUpdate (key : κ) : (selectForUpdate key : Txn σ κ ι ε err _).Keeps R :=
  fun _ => trivial

theorem keeps_commitOr {failure : err} {writes : ι → σ → Option (σ × List ε)}
    (each : ∀ i db db' events, writes i db = some (db',events) → R db db') :
    (commitOr failure writes).Keeps R := by
  refine ⟨each,fun i done => ?_⟩
  cases done <;> trivial

variable [DecidableEq κ]

theorem Keeps.exec {t : Nat} {i : ι} {p : Txn σ κ ι ε err α} {store store' : Store σ κ ε}
    {state : Txn σ κ ι ε err α ⊕ Except err α} (keeps : p.Keeps R)
    (ran : p.exec t i store = some (store',state)) : (∀ q, state = .inl q → q.Keeps R) ∧
      (store'.world.db = store.world.db ∨ ∃ writes next events, p = .commit writes next ∧
        writes i store.world.db = some (store'.world.db,events) ∧ R store.world.db store'.world.db) := by
  cases p with
  | ret | raise =>
    cases Option.some.inj ran
    exact ⟨fun q same => (nomatch same),.inl rfl⟩
  | input next =>
    cases Option.some.inj ran
    exact ⟨fun q same => Sum.inl.inj same ▸ keeps i,.inl rfl⟩
  | read seen next =>
    cases Option.some.inj ran
    exact ⟨fun q same => Sum.inl.inj same ▸ keeps _,.inl rfl⟩
  | lock key cond next =>
    simp only [Txn.exec] at ran
    split at ran
    · split at ran <;> cases Option.some.inj ran <;>
        exact ⟨fun q same => Sum.inl.inj same ▸ keeps _,.inl rfl⟩
    · cases ran
  | tryLock key cond next =>
    simp only [Txn.exec] at ran
    split at ran
    · split at ran <;> cases Option.some.inj ran <;>
        exact ⟨fun q same => Sum.inl.inj same ▸ keeps _,.inl rfl⟩
    · cases Option.some.inj ran
      exact ⟨fun q same => Sum.inl.inj same ▸ keeps _,.inl rfl⟩
  | commit writes next =>
    simp only [Txn.exec] at ran
    split at ran
    next db events written =>
      cases Option.some.inj ran
      exact ⟨fun q same => Sum.inl.inj same ▸ keeps.2 i true,
        .inr ⟨writes,next,events,rfl,written,keeps.1 i _ _ _ written⟩⟩
    next =>
      cases Option.some.inj ran
      exact ⟨fun q same => Sum.inl.inj same ▸ keeps.2 i false,.inl rfl⟩
  | rollback next =>
    cases Option.some.inj ran
    exact ⟨fun q same => Sum.inl.inj same ▸ keeps,.inl rfl⟩

end keeps

/-- As long as the others lead from world to world as `rely` says, and the run allows the commits of
this session, the program ends in `Q`. -/
def Conducts (rely : World σ ε → World σ ε → Prop) (allowed : World σ ε → Option (σ × List ε) → Prop)
    (t : Nat) : Txn σ κ ι ε err α → (Except err α → World σ ε → Prop) → World σ ε → Prop
  | .ret value,Q,w => ∀ w', rely w w' → Q (.ok value) w'
  | .raise error,Q,w => ∀ w', rely w w' → Q (.error error) w'
  | .input next,Q,w => ∀ i w', rely w w' → (next i).Conducts rely allowed t Q w'
  | .read seen next,Q,w => ∀ w', rely w w' →
      (next w'.db).Conducts rely allowed t Q (w'.record t (seen w'.db))
  | .lock key cond next,Q,w => ∀ w', rely w w' →
      (next ((Lockable.view key w'.db).filter cond)).Conducts rely allowed t Q w'
  | .tryLock key cond next,Q,w => ∀ w', rely w w' → (next none).Conducts rely allowed t Q w' ∧
      (next ((Lockable.view key w'.db).filter cond)).Conducts rely allowed t Q w'
  | .commit writes next,Q,w => ∀ i w', rely w w' → allowed w' (writes i w'.db) →
      (∀ db events, writes i w'.db = some (db,events) →
        (next i true).Conducts rely allowed t Q ((World.mk db w'.log).record t events)) ∧
      (writes i w'.db = none → (next i false).Conducts rely allowed t Q w')
  | .rollback next,Q,w => ∀ w', rely w w' → next.Conducts rely allowed t Q w'

section conducts
variable {rely : World σ ε → World σ ε → Prop} {allowed : World σ ε → Option (σ × List ε) → Prop}
  {t : Nat} {w w' : World σ ε} {Q : Except err α → World σ ε → Prop}

theorem Conducts.later (trans : ∀ a b c, rely a b → rely b c → rely a c) {p : Txn σ κ ι ε err α}
    (conducts : p.Conducts rely allowed t Q w) (step : rely w w') : p.Conducts rely allowed t Q w' := by
  cases p with
  | ret | raise | read | lock | tryLock | rollback =>
    exact fun w'' further => conducts w'' (trans _ _ _ step further)
  | input | commit => exact fun i w'' further => conducts i w'' (trans _ _ _ step further)

/-- What a program has to end in for the next one to end in `Q`. -/
def Onto (rely : World σ ε → World σ ε → Prop) (allowed : World σ ε → Option (σ × List ε) → Prop) (t : Nat)
    (f : β → Txn σ κ ι ε err α) (Q : Except err α → World σ ε → Prop) : Except err β → World σ ε → Prop
  | .ok b,w => (f b).Conducts rely allowed t Q w
  | .error error,w => Q (.error error) w

theorem conducts_bind {p : Txn σ κ ι ε err β} {f : β → Txn σ κ ι ε err α} (refl : ∀ w, rely w w)
    (conducts : p.Conducts rely allowed t (Onto rely allowed t f Q) w) :
    (p >>= f).Conducts rely allowed t Q w := by
  change (p.bind f).Conducts rely allowed t Q w
  induction p generalizing w with
  | ret value => exact conducts w (refl w)
  | raise error => exact conducts
  | input next ih => exact fun i w' step => ih i (conducts i w' step)
  | read seen next ih => exact fun w' step => ih _ (conducts w' step)
  | lock key cond next ih => exact fun w' step => ih _ (conducts w' step)
  | tryLock key cond next ih =>
    exact fun w' step => ⟨ih none (conducts w' step).1,ih _ (conducts w' step).2⟩
  | commit writes next ih =>
    intro i w' step allows
    obtain ⟨done,refused⟩ := conducts i w' step allows
    exact ⟨fun db events written => ih i true (done db events written),
      fun none_ => ih i false (refused none_)⟩
  | rollback next ih => exact fun w' step => ih (conducts w' step)

theorem conducts_supply {k : ι → Txn σ κ ι ε err α}
    (rest : ∀ i w', rely w w' → (k i).Conducts rely allowed t Q w') :
    (supply >>= k).Conducts rely allowed t Q w := rest

theorem conducts_query {f : σ → β} {k : β → Txn σ κ ι ε err α}
    (rest : ∀ w', rely w w' → (k (f w'.db)).Conducts rely allowed t Q w') :
    (query f >>= k).Conducts rely allowed t Q w := by
  intro w' step
  rw [World.record_nil]
  exact rest w' step

theorem conducts_selectForUpdate {key : κ} {k : Option (Lockable.Row σ key) → Txn σ κ ι ε err α}
    (rest : ∀ found w', rely w w' → (k found).Conducts rely allowed t Q w') :
    (selectForUpdate key >>= k).Conducts rely allowed t Q w := fun w' step => rest _ w' step

theorem conducts_commitOr {failure : err} {writes : ι → σ → Option (σ × List ε)} {k : ι → Txn σ κ ι ε err α}
    (done : ∀ i w' db events, rely w w' → allowed w' (writes i w'.db) → writes i w'.db = some (db,events) →
      (k i).Conducts rely allowed t Q ((World.mk db w'.log).record t events))
    (refused : ∀ i w' w'', rely w w' → rely w' w'' → allowed w' (writes i w'.db) → writes i w'.db = none →
      Q (.error failure) w'') :
    (commitOr failure writes >>= k).Conducts rely allowed t Q w :=
  fun i w' step allows => ⟨fun db events written => done i w' db events step allows written,
    fun none_ w'' further => refused i w' w'' step further allows none_⟩

variable [DecidableEq κ]

/-- What a session is left with, by what it has come to. -/
def Conducting (rely : World σ ε → World σ ε → Prop) (allowed : World σ ε → Option (σ × List ε) → Prop)
    (t : Nat) (Q : Except err α → World σ ε → Prop) (w : World σ ε) :
    Txn σ κ ι ε err α ⊕ Except err α → Prop
  | .inl p => p.Conducts rely allowed t Q w
  | .inr x => Q x w

theorem Conducts.exec (refl : ∀ w, rely w w) {i : ι} {p : Txn σ κ ι ε err α} {store store' : Store σ κ ε}
    {state : Txn σ κ ι ε err α ⊕ Except err α} (conducts : p.Conducts rely allowed t Q store.world)
    (ran : p.exec t i store = some (store',state))
    (allows : ∀ writes next, p = .commit writes next → allowed store.world (writes i store.world.db)) :
    Conducting rely allowed t Q store'.world state := by
  cases p with
  | ret | raise =>
    cases Option.some.inj ran
    exact conducts _ (refl _)
  | input next =>
    cases Option.some.inj ran
    exact conducts i _ (refl _)
  | read seen next =>
    cases Option.some.inj ran
    exact conducts _ (refl _)
  | lock key cond next =>
    simp only [Txn.exec] at ran
    split at ran
    · have rest := conducts _ (refl _)
      split at ran
      next row found =>
        cases Option.some.inj ran
        rw [found] at rest
        exact rest
      next missed =>
        cases Option.some.inj ran
        rw [missed] at rest
        exact rest
    · cases ran
  | tryLock key cond next =>
    obtain ⟨skipped,rest⟩ := conducts _ (refl _)
    simp only [Txn.exec] at ran
    split at ran
    · split at ran
      next row found =>
        cases Option.some.inj ran
        rw [found] at rest
        exact rest
      next missed =>
        cases Option.some.inj ran
        exact skipped
    · cases Option.some.inj ran
      exact skipped
  | commit writes next =>
    obtain ⟨done,refused⟩ := conducts i _ (refl _) (allows writes next rfl)
    simp only [Txn.exec] at ran
    split at ran
    next db events written =>
      cases Option.some.inj ran
      exact done db events written
    next none_ =>
      cases Option.some.inj ran
      exact refused none_
  | rollback next =>
    cases Option.some.inj ran
    exact conducts _ (refl _)

end conducts
end Txn

section runs
open Txn
variable [DecidableEq κ] {program : ρ → Txn σ κ ι ε err α} {start s : System σ κ ι ε err ρ α}
  {R : System σ κ ι ε err ρ α → Action ι err ρ → System σ κ ι ε err ρ α → Prop} {t : Nat} {r : ρ}

/-- What every commit of a program keeps, every commit that is left to its session keeps. -/
theorem Reach.keeps {K : σ → σ → Prop} (runs : Runs program R start s)
    (idle : ∀ t, start.session t = none) (keeps : (program r).Keeps K) {p : Txn σ κ ι ε err α}
    (present : s.session t = some ⟨r,.inl p⟩) : p.Keeps K := by
  have all : ∀ p', (.inl p : Txn σ κ ι ε err α ⊕ Except err α) = .inl p' → p'.Keeps K :=
    Reach.runs_session_rule (Q := fun _ state => ∀ p', state = .inl p' → p'.Keeps K) runs idle
      (fun _ _ _ p' same => Sum.inl.inj same ▸ keeps)
      (fun _ _ p _ _ _ _ before ran _ _ => ((before p rfl).exec ran).1)
      (fun _ _ _ _ _ _ _ _ _ _ p' same => (nomatch same)) (fun _ _ _ _ _ _ _ before _ _ => before) present
  exact all p rfl

/-- A session whose program conducts itself, among others that keep what it relies on. -/
theorem Reach.conducting {rely : World σ ε → World σ ε → Prop}
    {allowed : World σ ε → Option (σ × List ε) → Prop} {Q : Except err α → World σ ε → Prop}
    (runs : Runs program R start s) (idle : ∀ t, start.session t = none) (refl : ∀ w, rely w w)
    (trans : ∀ a b c, rely a b → rely b c → rely a c)
    (conducts : ∀ a, Runs program R start a → a.session t = none →
      (program r).Conducts rely allowed t Q a.world)
    (allows : ∀ a i b writes next, Runs program R start a → R a (.exec t i) b →
      a.session t = some ⟨r,.inl (.commit writes next)⟩ → allowed a.world (writes i a.db))
    (others : ∀ a action b, Runs program R start a → a.step program action = some b → R a action b →
      Reach.Action.session action ≠ t → rely a.world b.world)
    (dies : ∀ a error b p, a.session t = some ⟨r,.inl p⟩ → b.world = a.world → R a (.die t error) b →
      Q (.error error) b.world)
    (stable : ∀ x a b, Q x a → rely a b → Q x b) {state : Txn σ κ ι ε err α ⊕ Except err α}
    (present : s.session t = some ⟨r,state⟩) : Conducting rely allowed t Q s.world state := by
  refine Reach.runs_session_rule (Q := fun s state => Conducting rely allowed t Q s.world state) runs idle
    (fun a before absent => conducts a before absent) ?_ ?_ ?_ present
  · intro a i p store state before running conducting ran taken holds
    refine Conducts.exec refl conducting ran fun writes next same => ?_
    subst same
    exact allows a i _ writes next before holds running
  · intro a b error p before running conducting taken same holds
    exact dies a error b p running same holds
  · intro a action b state before there other conducting taken holds
    have step := others a action b before taken holds other
    cases state with
    | inl p => exact Conducts.later trans conducting step
    | inr x => exact stable x _ _ conducting step

end runs
end Relational
