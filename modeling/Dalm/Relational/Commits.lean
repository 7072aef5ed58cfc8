import Dalm.Relational.Conduct

/-! Which COMMITs a program may come to, and which of its errors only a refused COMMIT raises. -/
namespace Relational
variable {σ κ ι ε err ρ α β : Type} [Lockable σ κ]

namespace Txn

/-- Every COMMIT the program may come to is one of `C`, every value it may return one of `Q`, and no
SELECT is told of. -/
def Commits (C : (ι → σ → Option (σ × List ε)) → Prop) (Q : α → Prop) : Txn σ κ ι ε err α → Prop
  | .ret value => Q value
  | .raise _ => True
  | .input next => ∀ i, (next i).Commits C Q
  | .read seen next => ∀ db, seen db = [] ∧ (next db).Commits C Q
  | .lock _ _ next => ∀ row, (next row).Commits C Q
  | .tryLock _ _ next => ∀ row, (next row).Commits C Q
  | .commit writes next => C writes ∧ ∀ i done, (next i done).Commits C Q
  | .rollback next => next.Commits C Q

/-- The error is raised by nothing but a COMMIT that has just been refused. -/
def Blames (error : err) : Txn σ κ ι ε err α → Prop
  | .ret _ => True
  | .raise other => other ≠ error
  | .input next => ∀ i, (next i).Blames error
  | .read _ next => ∀ db, (next db).Blames error
  | .lock _ _ next => ∀ row, (next row).Blames error
  | .tryLock _ _ next => ∀ row, (next row).Blames error
  | .commit _ next => ∀ i, (next i true).Blames error ∧
      (next i false = .raise error ∨ (next i false).Blames error)
  | .rollback next => next.Blames error

section commits
variable {C : (ι → σ → Option (σ × List ε)) → Prop} {Q : α → Prop} {error : err}

theorem commits_bind {p : Txn σ κ ι ε err β} {f : β → Txn σ κ ι ε err α} {G : β → Prop}
    (commits : p.Commits C G) (each : ∀ b, G b → (f b).Commits C Q) : (p >>= f).Commits C Q := by
  change (p.bind f).Commits C Q
  induction p with
  | ret value => exact each value commits
  | raise error => trivial
  | input next ih => exact fun i => ih i (commits i)
  | read seen next ih => exact fun db => ⟨(commits db).1,ih db (commits db).2⟩
  | lock key cond next ih => exact fun row => ih row (commits row)
  | tryLock key cond next ih => exact fun row => ih row (commits row)
  | commit writes next ih => exact ⟨commits.1,fun i done => ih i done (commits.2 i done)⟩
  | rollback next ih => exact ih commits

theorem Commits.mono {p : Txn σ κ ι ε err α} {G : α → Prop} (commits : p.Commits C G)
    (weaker : ∀ value, G value → Q value) : p.Commits C Q := by
  induction p with
  | ret value => exact weaker value commits
  | raise error => trivial
  | input next ih => exact fun i => ih i (commits i)
  | read seen next ih => exact fun db => ⟨(commits db).1,ih db (commits db).2⟩
  | lock key cond next ih => exact fun row => ih row (commits row)
  | tryLock key cond next ih => exact fun row => ih row (commits row)
  | commit writes next ih => exact ⟨commits.1,fun i done => ih i done (commits.2 i done)⟩
  | rollback next ih => exact ih commits

theorem commits_query (f : σ → α) : (query f : Txn σ κ ι ε err α).Commits C fun a => ∃ db, a = f db :=
  fun db => ⟨rfl,db,rfl⟩

theorem commits_supply : (supply : Txn σ κ ι ε err ι).Commits C fun _ => True := fun _ => trivial

theorem commits_commitOr {failure : err} {writes : ι → σ → Option (σ × List ε)} (one : C writes) :
    (commitOr failure writes : Txn σ κ ι ε err ι).Commits C fun _ => True := by
  refine ⟨one,fun i done => ?_⟩
  cases done <;> trivial

theorem blames_bind {p : Txn σ κ ι ε err β} {f : β → Txn σ κ ι ε err α} (blames : p.Blames error)
    (each : ∀ b, (f b).Blames error) : (p >>= f).Blames error := by
  change (p.bind f).Blames error
  induction p with
  | ret value => exact each value
  | raise other => exact blames
  | input next ih => exact fun i => ih i (blames i)
  | read seen next ih => exact fun db => ih db (blames db)
  | lock key cond next ih => exact fun row => ih row (blames row)
  | tryLock key cond next ih => exact fun row => ih row (blames row)
  | commit writes next ih =>
    refine fun i => ⟨ih i true (blames i).1,(blames i).2.imp (fun raised => ?_) (ih i false)⟩
    change (next i false).bind f = .raise error
    rw [raised]
    rfl
  | rollback next ih => exact ih blames

theorem blames_query (f : σ → α) : (query f : Txn σ κ ι ε err α).Blames error := fun _ => trivial

theorem blames_supply : (supply : Txn σ κ ι ε err ι).Blames error := fun _ => trivial

theorem blames_commitOr (writes : ι → σ → Option (σ × List ε)) :
    (commitOr error writes : Txn σ κ ι ε err ι).Blames error := fun _ => ⟨trivial,.inl rfl⟩

variable [DecidableEq κ]

theorem Commits.exec {t : Nat} {i : ι} {p q : Txn σ κ ι ε err α} {store store' : Store σ κ ε}
    (commits : p.Commits C Q) (ran : p.exec t i store = some (store',.inl q)) : q.Commits C Q := by
  cases p with
  | ret | raise => cases Option.some.inj ran
  | input next =>
    cases Option.some.inj ran
    exact commits i
  | read seen next =>
    cases Option.some.inj ran
    exact (commits _).2
  | lock key cond next =>
    simp only [Txn.exec] at ran
    split at ran
    · split at ran <;> cases Option.some.inj ran <;> exact commits _
    · cases ran
  | tryLock key cond next =>
    simp only [Txn.exec] at ran
    split at ran
    · split at ran <;> cases Option.some.inj ran <;> exact commits _
    · cases Option.some.inj ran
      exact commits _
  | commit writes next =>
    simp only [Txn.exec] at ran
    split at ran <;> cases Option.some.inj ran
    · exact commits.2 i true
    · exact commits.2 i false
  | rollback next =>
    cases Option.some.inj ran
    exact commits

theorem Commits.world {t : Nat} {i : ι} {p : Txn σ κ ι ε err α} {store store' : Store σ κ ε}
    {state : Txn σ κ ι ε err α ⊕ Except err α} (commits : p.Commits C Q)
    (ran : p.exec t i store = some (store',state)) : store'.world = store.world ∨
      ∃ writes next db events, p = .commit writes next ∧ C writes ∧
        writes i store.world.db = some (db,events) ∧
        store'.world = (World.mk db store.world.log).record t events := by
  cases p with
  | ret | raise | input | rollback =>
    cases Option.some.inj ran
    exact .inl rfl
  | read seen next =>
    cases Option.some.inj ran
    refine .inl ?_
    change store.world.record t (seen store.world.db) = store.world
    rw [(commits store.world.db).1,World.record_nil]
  | lock key cond next =>
    simp only [Txn.exec] at ran
    split at ran
    · split at ran <;> cases Option.some.inj ran <;> exact .inl rfl
    · cases ran
  | tryLock key cond next =>
    simp only [Txn.exec] at ran
    split at ran
    · split at ran <;> cases Option.some.inj ran <;> exact .inl rfl
    · cases Option.some.inj ran
      exact .inl rfl
  | commit writes next =>
    simp only [Txn.exec] at ran
    split at ran
    next db events written =>
      cases Option.some.inj ran
      exact .inr ⟨writes,next,db,events,rfl,commits.1,written,rfl⟩
    next =>
      cases Option.some.inj ran
      exact .inl rfl

/-- A statement that leaves the error to raise is a COMMIT that was refused. -/
theorem Blames.exec {t : Nat} {i : ι} {p q : Txn σ κ ι ε err α} {store store' : Store σ κ ε}
    (blames : p.Blames error) (ran : p.exec t i store = some (store',.inl q)) : q.Blames error ∨
      q = .raise error ∧ ∃ writes next, p = .commit writes next ∧ writes i store.world.db = none := by
  cases p with
  | ret | raise => cases Option.some.inj ran
  | input next =>
    cases Option.some.inj ran
    exact .inl (blames i)
  | read seen next =>
    cases Option.some.inj ran
    exact .inl (blames _)
  | lock key cond next =>
    simp only [Txn.exec] at ran
    split at ran
    · split at ran <;> cases Option.some.inj ran <;> exact .inl (blames _)
    · cases ran
  | tryLock key cond next =>
    simp only [Txn.exec] at ran
    split at ran
    · split at ran <;> cases Option.some.inj ran <;> exact .inl (blames _)
    · cases Option.some.inj ran
      exact .inl (blames _)
  | commit writes next =>
    simp only [Txn.exec] at ran
    split at ran
    next db events written =>
      cases Option.some.inj ran
      exact .inl (blames i).1
    next refused =>
      cases Option.some.inj ran
      exact (blames i).2.symm.imp id fun raised => ⟨raised,writes,next,rfl,refused⟩
  | rollback next =>
    cases Option.some.inj ran
    exact .inl blames

end commits

/-- A program that commits nothing conducts itself by what it returns. -/
theorem Commits.conducts {G : α → Prop} {rely : World σ ε → World σ ε → Prop}
    {allowed : World σ ε → Option (σ × List ε) → Prop} {Q : Except err α → World σ ε → Prop} {t : Nat}
    (trans : ∀ a b c, rely a b → rely b c → rely a c) {p : Txn σ κ ι ε err α}
    (silent : p.Commits (fun _ => False) G) (failed : ∀ error w, Q (.error error) w) (w : World σ ε)
    (done : ∀ value w', G value → rely w w' → Q (.ok value) w') : p.Conducts rely allowed t Q w := by
  induction p generalizing w with
  | ret value => exact fun w' step => done value w' silent step
  | raise error => exact fun w' _ => failed error w'
  | input next ih =>
    exact fun i w' step => ih i (silent i) w' fun value w'' good further => done value w'' good (trans _ _ _ step further)
  | read seen next ih =>
    intro w' step
    rw [(silent w'.db).1,World.record_nil]
    exact ih _ (silent w'.db).2 w' fun value w'' good further => done value w'' good (trans _ _ _ step further)
  | lock key cond next ih =>
    exact fun w' step => ih _ (silent _) w' fun value w'' good further => done value w'' good (trans _ _ _ step further)
  | tryLock key cond next ih =>
    exact fun w' step =>
      ⟨ih _ (silent _) w' fun value w'' good further => done value w'' good (trans _ _ _ step further),
        ih _ (silent _) w' fun value w'' good further => done value w'' good (trans _ _ _ step further)⟩
  | commit writes next ih => exact absurd silent.1 id
  | rollback next ih =>
    exact fun w' step => ih silent w' fun value w'' good further => done value w'' good (trans _ _ _ step further)

end Txn

section runs
open Txn
variable [DecidableEq κ] {program : ρ → Txn σ κ ι ε err α} {start s : System σ κ ι ε err ρ α}
  {R : System σ κ ι ε err ρ α → Action ι err ρ → System σ κ ι ε err ρ α → Prop} {t : Nat} {r : ρ}

/-- What is left to a session comes to COMMITs of its program. -/
theorem Reach.commits {C : (ι → σ → Option (σ × List ε)) → Prop} {Q : α → Prop}
    (runs : Runs program R start s) (idle : ∀ t, start.session t = none)
    (commits : (program r).Commits C Q) {p : Txn σ κ ι ε err α}
    (present : s.session t = some ⟨r,.inl p⟩) : p.Commits C Q := by
  have all : ∀ p', (.inl p : Txn σ κ ι ε err α ⊕ Except err α) = .inl p' → p'.Commits C Q :=
    Reach.runs_session_rule (Q := fun _ state => ∀ p', state = .inl p' → p'.Commits C Q) runs idle
      (fun _ _ _ p' same => Sum.inl.inj same ▸ commits)
      (fun _ _ p _ _ _ _ before ran _ _ p' same => (before p rfl).exec (same ▸ ran))
      (fun _ _ _ _ _ _ _ _ _ _ p' same => (nomatch same)) (fun _ _ _ _ _ _ _ before _ _ => before) present
  exact all p rfl

theorem Reach.committed {C : ρ → (ι → σ → Option (σ × List ε)) → Prop} {Q : ρ → α → Prop}
    {u : System σ κ ι ε err ρ α} {action : Action ι err ρ} (runs : Runs program R start s)
    (idle : ∀ t, start.session t = none) (commits : ∀ r, (program r).Commits (C r) (Q r))
    (taken : s.step program action = some u) : u.world = s.world ∨ ∃ t i r writes next db events,
      action = .exec t i ∧ s.session t = some ⟨r,.inl (.commit writes next)⟩ ∧ C r writes ∧
        writes i s.db = some (db,events) ∧ u.world = (World.mk db s.world.log).record t events := by
  cases Reach.taken_of_step taken with
  | start => exact .inl rfl
  | die => exact .inl rfl
  | @exec t i r p store state running ran =>
    refine ((Reach.commits runs idle (commits r) running).world ran).imp id ?_
    rintro ⟨writes,next,db,events,rfl,one,written,same⟩
    exact ⟨t,i,r,writes,next,db,events,rfl,running,one,written,same⟩

/-- A COMMIT of session `t` was refused on the way to `s`. -/
def RefusedBefore (program : ρ → Txn σ κ ι ε err α)
    (R : System σ κ ι ε err ρ α → Action ι err ρ → System σ κ ι ε err ρ α → Prop)
    (start : System σ κ ι ε err ρ α) (t : Nat) (r : ρ) (s : System σ κ ι ε err ρ α) : Prop :=
  ∃ a i b writes next, Runs program R start a ∧ a.session t = some ⟨r,.inl (.commit writes next)⟩ ∧
    writes i a.db = none ∧ a.step program (.exec t i) = some b ∧ R a (.exec t i) b ∧ Runs program R b s

theorem RefusedBefore.later {u : System σ κ ι ε err ρ α} {action : Action ι err ρ}
    (refused : RefusedBefore program R start t r s) (taken : s.step program action = some u)
    (holds : R s action u) : RefusedBefore program R start t r u := by
  obtain ⟨a,i,b,writes,next,before,present,none_,step,own,rest⟩ := refused
  exact ⟨a,i,b,writes,next,before,present,none_,step,own,rest.tail ⟨action,taken,holds⟩⟩

/-- A session that ended with the error had a COMMIT refused, unless it died with it. -/
theorem Reach.blamed {error : err} (runs : Runs program R start s) (idle : ∀ t, start.session t = none)
    (blames : (program r).Blames error) (alive : ∀ a b, ¬ R a (.die t error) b)
    (failed : s.session t = some ⟨r,.inr (.error error)⟩) : RefusedBefore program R start t r s := by
  have all := Reach.runs_session_rule (Q := fun s state =>
      (∀ p, state = .inl p → p.Blames error ∨ p = .raise error ∧ RefusedBefore program R start t r s) ∧
      (state = .inr (.error error) → RefusedBefore program R start t r s)) runs idle
    ?_ ?_ ?_ ?_ failed
  · exact all.2 rfl
  · refine fun _ _ _ => ⟨fun p same => .inl (Sum.inl.inj same ▸ blames),fun same => ?_⟩
    cases same
  · intro a i p store state before running holds ran taken own
    constructor
    · rintro q rfl
      rcases holds.1 p rfl with blames | ⟨rfl,_⟩
      · refine (blames.exec ran).imp id ?_
        rintro ⟨raised,writes,next,rfl,none_⟩
        exact ⟨raised,a,i,_,writes,next,before,running,none_,taken,own,.refl⟩
      · cases Option.some.inj ran
    · rintro rfl
      rcases holds.1 p rfl with blames | ⟨_,refused⟩
      · cases p with
        | ret value => cases Option.some.inj ran
        | raise other =>
          cases Option.some.inj ran
          exact absurd rfl blames
        | input | read | rollback => cases Option.some.inj ran
        | lock key cond next =>
          simp only [Txn.exec] at ran
          split at ran
          · split at ran <;> cases Option.some.inj ran
          · cases ran
        | tryLock key cond next =>
          simp only [Txn.exec] at ran
          split at ran
          · split at ran <;> cases Option.some.inj ran
          · cases Option.some.inj ran
        | commit writes next =>
          simp only [Txn.exec] at ran
          split at ran <;> cases Option.some.inj ran
      · exact refused.later taken own
  · intro a b other p before _ holds taken _ own
    constructor
    · rintro q same
      cases same
    · rintro same
      cases same
      exact absurd own (alive a b)
  · intro a action b state before _ _ holds taken own
    exact ⟨fun p same => (holds.1 p same).imp id (And.imp id fun refused => refused.later taken own),
      fun same => (holds.2 same).later taken own⟩

end runs
end Relational
