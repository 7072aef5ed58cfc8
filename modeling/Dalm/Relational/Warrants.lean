import Dalm.Relational.Completion
import Dalm.Relational.Commits

/-! What the commits of a program answer for. Between two of its statements the others lead from world
to world as `rely` says; whatever the program read that `rely` keeps still stands at its commits. -/
namespace Relational
variable {σ κ ι ε err ρ α β : Type} [Lockable σ κ]

namespace Txn

/-- In worlds that are `ok`, every commit the program comes to stands in `C` to the world it finds, and the
program ends in `Q`. -/
def Warrants (ok : World σ ε → Prop) (rely : World σ ε → World σ ε → Prop)
    (C : World σ ε → σ → List ε → Prop) (t : Nat) :
    Txn σ κ ι ε err α → (Except err α → World σ ε → Prop) → World σ ε → Prop
  | .ret value,Q,w => ∀ w', rely w w' → Q (.ok value) w'
  | .raise error,Q,w => ∀ w', rely w w' → Q (.error error) w'
  | .input next,Q,w => ∀ i w', rely w w' → (next i).Warrants ok rely C t Q w'
  | .read seen next,Q,w => ∀ w', rely w w' → ok w' →
      (next w'.db).Warrants ok rely C t Q (w'.record t (seen w'.db))
  | .lock key cond next,Q,w => ∀ w', rely w w' → ok w' →
      (next ((Lockable.view key w'.db).filter cond)).Warrants ok rely C t Q w'
  | .tryLock key cond next,Q,w => ∀ w', rely w w' → ok w' → (next none).Warrants ok rely C t Q w' ∧
      (next ((Lockable.view key w'.db).filter cond)).Warrants ok rely C t Q w'
  | .commit writes next,Q,w => ∀ i w', rely w w' → ok w' →
      (∀ db events, writes i w'.db = some (db,events) → C w' db events ∧
        (next i true).Warrants ok rely C t Q ((World.mk db w'.log).record t events)) ∧
      (writes i w'.db = none → (next i false).Warrants ok rely C t Q w')
  | .rollback next,Q,w => ∀ w', rely w w' → next.Warrants ok rely C t Q w'

section warrants
variable {ok : World σ ε → Prop} {rely : World σ ε → World σ ε → Prop} {C : World σ ε → σ → List ε → Prop} {t : Nat}
  {w w' : World σ ε} {Q : Except err α → World σ ε → Prop}

theorem Warrants.later (trans : ∀ a b c, rely a b → rely b c → rely a c) {p : Txn σ κ ι ε err α}
    (warrants : p.Warrants ok rely C t Q w) (step : rely w w') : p.Warrants ok rely C t Q w' := by
  cases p with
  | ret | raise | read | lock | tryLock | rollback =>
    exact fun w'' further => warrants w'' (trans _ _ _ step further)
  | input | commit => exact fun i w'' further => warrants i w'' (trans _ _ _ step further)

theorem Warrants.mono {R : Except err α → World σ ε → Prop} {p : Txn σ κ ι ε err α}
    (warrants : p.Warrants ok rely C t Q w) (weaker : ∀ x w, Q x w → R x w) : p.Warrants ok rely C t R w := by
  induction p generalizing w with
  | ret value => exact fun w' step => weaker _ _ (warrants w' step)
  | raise error => exact fun w' step => weaker _ _ (warrants w' step)
  | input next ih => exact fun i w' step => ih i (warrants i w' step)
  | read seen next ih => exact fun w' step here => ih _ (warrants w' step here)
  | lock key cond next ih => exact fun w' step here => ih _ (warrants w' step here)
  | tryLock key cond next ih =>
    exact fun w' step here => ⟨ih _ (warrants w' step here).1,ih _ (warrants w' step here).2⟩
  | commit writes next ih =>
    intro i w' step here
    obtain ⟨done,refused⟩ := warrants i w' step here
    exact ⟨fun db events written => ⟨(done db events written).1,ih i true (done db events written).2⟩,
      fun none_ => ih i false (refused none_)⟩
  | rollback next ih => exact fun w' step => ih (warrants w' step)

/-- A program that commits nothing `C` forbids needs no more. -/
theorem warrants_all (all : ∀ w db events, C w db events) (always : ∀ x w, Q x w) (p : Txn σ κ ι ε err α)
    (w : World σ ε) : p.Warrants ok rely C t Q w := by
  induction p generalizing w with
  | ret value => exact fun _ _ => always _ _
  | raise error => exact fun _ _ => always _ _
  | input next ih => exact fun i w' _ => ih i w'
  | read seen next ih => exact fun w' _ _ => ih _ _
  | lock key cond next ih => exact fun w' _ _ => ih _ w'
  | tryLock key cond next ih => exact fun w' _ _ => ⟨ih _ w',ih _ w'⟩
  | commit writes next ih =>
    exact fun i w' _ _ => ⟨fun db events _ => ⟨all _ _ _,ih _ _ _⟩,fun _ => ih _ _ w'⟩
  | rollback next ih => exact fun w' _ => ih w'

/-- A program that tells nothing of a kind warrants what only such events could break. -/
theorem warrants_of_quiet {E : ε → Prop} (all : ∀ w db events, (∀ event ∈ events, ¬ E event) → C w db events)
    (always : ∀ x w, Q x w) {p : Txn σ κ ι ε err α} (quiet : p.Quiet E) (w : World σ ε) :
    p.Warrants ok rely C t Q w := by
  induction p generalizing w with
  | ret value => exact fun _ _ => always _ _
  | raise error => exact fun _ _ => always _ _
  | input next ih => exact fun i w' _ => ih i (quiet i) w'
  | read seen next ih => exact fun w' _ _ => ih _ (quiet _).2 _
  | lock key cond next ih => exact fun w' _ _ => ih _ (quiet _) w'
  | tryLock key cond next ih => exact fun w' _ _ => ⟨ih _ (quiet _) w',ih _ (quiet _) w'⟩
  | commit writes next ih =>
    refine fun i w' _ _ => ⟨fun db events written => ?_,fun _ => ih _ _ (quiet i).1 w'⟩
    obtain ⟨silent,rest⟩ := (quiet i).2 _ _ _ written
    exact ⟨all _ _ _ silent,ih _ _ rest _⟩
  | rollback next ih => exact fun w' _ => ih quiet w'

/-- A program all whose COMMITs come to what `C` allows needs no more. -/
theorem Commits.warrants {W : (ι → σ → Option (σ × List ε)) → Prop} {G : α → Prop} {p : Txn σ κ ι ε err α}
    (commits : p.Commits W G)
    (all : ∀ writes, W writes → ∀ i w db events, writes i w.db = some (db,events) → C w db events)
    (always : ∀ x w, Q x w) (w : World σ ε) : p.Warrants ok rely C t Q w := by
  induction p generalizing w with
  | ret value => exact fun _ _ => always _ _
  | raise error => exact fun _ _ => always _ _
  | input next ih => exact fun i w' _ => ih i (commits i) w'
  | read seen next ih => exact fun w' _ _ => ih _ (commits _).2 _
  | lock key cond next ih => exact fun w' _ _ => ih _ (commits _) w'
  | tryLock key cond next ih => exact fun w' _ _ => ⟨ih _ (commits _) w',ih _ (commits _) w'⟩
  | commit writes next ih =>
    exact fun i w' _ _ => ⟨fun db events written => ⟨all _ commits.1 i w' db events written,ih _ _ (commits.2 i true) _⟩,
      fun _ => ih _ _ (commits.2 i false) w'⟩
  | rollback next ih => exact fun w' _ => ih commits w'

/-- What a program has to end in for the next one to go on. -/
def Continues (ok : World σ ε → Prop) (rely : World σ ε → World σ ε → Prop)
    (C : World σ ε → σ → List ε → Prop) (t : Nat) (f : β → Txn σ κ ι ε err α)
    (Q : Except err α → World σ ε → Prop) : Except err β → World σ ε → Prop
  | .ok b,w => (f b).Warrants ok rely C t Q w
  | .error error,w => Q (.error error) w

theorem warrants_bind {p : Txn σ κ ι ε err β} {f : β → Txn σ κ ι ε err α} (refl : ∀ w, rely w w)
    (warrants : p.Warrants ok rely C t (Continues ok rely C t f Q) w) : (p >>= f).Warrants ok rely C t Q w := by
  change (p.bind f).Warrants ok rely C t Q w
  induction p generalizing w with
  | ret value => exact warrants w (refl w)
  | raise error => exact warrants
  | input next ih => exact fun i w' step => ih i (warrants i w' step)
  | read seen next ih => exact fun w' step here => ih _ (warrants w' step here)
  | lock key cond next ih => exact fun w' step here => ih _ (warrants w' step here)
  | tryLock key cond next ih =>
    exact fun w' step here => ⟨ih none (warrants w' step here).1,ih _ (warrants w' step here).2⟩
  | commit writes next ih =>
    intro i w' step here
    obtain ⟨done,refused⟩ := warrants i w' step here
    exact ⟨fun db events written => ⟨(done db events written).1,ih i true (done db events written).2⟩,
      fun none_ => ih i false (refused none_)⟩
  | rollback next ih => exact fun w' step => ih (warrants w' step)

theorem warrants_supply {k : ι → Txn σ κ ι ε err α}
    (rest : ∀ i w', rely w w' → (k i).Warrants ok rely C t Q w') : (supply >>= k).Warrants ok rely C t Q w := rest

theorem warrants_query {f : σ → β} {k : β → Txn σ κ ι ε err α}
    (rest : ∀ w', rely w w' → ok w' → (k (f w'.db)).Warrants ok rely C t Q w') :
    (query f >>= k).Warrants ok rely C t Q w := by
  intro w' step here
  rw [World.record_nil]
  exact rest w' step here

theorem warrants_commitOr {failure : err} {writes : ι → σ → Option (σ × List ε)} {k : ι → Txn σ κ ι ε err α}
    (done : ∀ i w' db events, rely w w' → ok w' → writes i w'.db = some (db,events) → C w' db events ∧
      (k i).Warrants ok rely C t Q ((World.mk db w'.log).record t events))
    (refused : ∀ w' w'', rely w w' → rely w' w'' → Q (.error failure) w'') :
    (commitOr failure writes >>= k).Warrants ok rely C t Q w :=
  fun i w' step here => ⟨fun db events written => done i w' db events step here written,
    fun _ w'' further => refused w' w'' step further⟩

theorem warrants_select {key : κ} {k : Option (Lockable.Row σ key) → Txn σ κ ι ε err α}
    (missing : ∀ w', rely w w' → ok w' → Lockable.view key w'.db = none → (k none).Warrants ok rely C t Q w')
    (found : ∀ w' row, rely w w' → ok w' → Lockable.view key w'.db = some row →
      (k (some row)).Warrants ok rely C t Q w') : (selectForUpdate key >>= k).Warrants ok rely C t Q w := by
  intro w' step here
  cases view : Lockable.view key w'.db with
  | none => exact missing w' step here view
  | some row => exact found w' row step here view

/-- The rows locked one by one were there at some moment, in the order they were asked for, and a row passed
over did not meet the condition at some moment. -/
theorem warrants_lockEach {key : β → κ} {cond : (b : β) → Lockable.Row σ (key b) → Bool} {bs : List β}
    {k : List ((b : β) × Lockable.Row σ (key b)) → Txn σ κ ι ε err α} (refl : ∀ w, rely w w)
    (trans : ∀ a b c, rely a b → rely b c → rely a c)
    (rest : ∀ rows w', rely w w' → (rows.map Sigma.fst).Sublist bs →
      (∀ e ∈ rows, ∃ w₂ : World σ ε, rely w w₂ ∧ rely w₂ w' ∧ ok w₂ ∧
        (Lockable.view (key e.1) w₂.db).filter (cond e.1) = some e.2) →
      (∀ b ∈ bs, b ∉ rows.map Sigma.fst → ∃ w₂ : World σ ε, rely w w₂ ∧ rely w₂ w' ∧ ok w₂ ∧
        (Lockable.view (key b) w₂.db).filter (cond b) = none) →
      (k rows).Warrants ok rely C t Q w') : (lockEach key cond bs >>= k).Warrants ok rely C t Q w := by
  induction bs generalizing w k with
  | nil => exact rest [] w (refl w) .slnil (by simp) (by simp)
  | cons b bs ih =>
    intro w' step here
    change ((Txn.bind (lockEach key cond bs) _).bind k).Warrants ok rely C t Q w'
    rw [Txn.bind_assoc]
    cases found : (Lockable.view (key b) w'.db).filter (cond b) with
    | none =>
      refine ih (k := k) fun rows w₂ further fewer all passed => ?_
      refine rest rows w₂ (trans _ _ _ step further) (fewer.cons b) (fun e member => ?_) fun c member absent => ?_
      · obtain ⟨w₃,one,two,rest⟩ := all e member
        exact ⟨w₃,trans _ _ _ step one,two,rest⟩
      · rcases List.mem_cons.mp member with rfl | inside
        · exact ⟨w',step,further,here,found⟩
        · obtain ⟨w₃,one,two,rest⟩ := passed c inside absent
          exact ⟨w₃,trans _ _ _ step one,two,rest⟩
    | some row =>
      refine ih (k := fun rows => k (⟨b,row⟩ :: rows)) fun rows w₂ further fewer all passed => ?_
      refine rest _ w₂ (trans _ _ _ step further) (fewer.cons_cons b) (fun e member => ?_) fun c member absent => ?_
      · rcases List.mem_cons.mp member with rfl | inside
        · exact ⟨w',step,further,here,found⟩
        · obtain ⟨w₃,one,two,rest⟩ := all e inside
          exact ⟨w₃,trans _ _ _ step one,two,rest⟩
      · rw [List.map_cons,List.mem_cons,not_or] at absent
        obtain ⟨w₃,one,two,rest⟩ := passed c ((List.mem_cons.mp member).resolve_left absent.1) absent.2
        exact ⟨w₃,trans _ _ _ step one,two,rest⟩

variable [DecidableEq κ]

/-- What a session is left with; one that died has nothing to answer for. -/
def Warranted (ok : World σ ε → Prop) (rely : World σ ε → World σ ε → Prop)
    (C : World σ ε → σ → List ε → Prop) (t : Nat) (Q : Except err α → World σ ε → Prop) (w : World σ ε) :
    Txn σ κ ι ε err α ⊕ Except err α → Prop
  | .inl p => p.Warrants ok rely C t Q w
  | .inr (.ok value) => Q (.ok value) w
  | .inr (.error _) => True

/-- A statement keeps the warrant, and a commit redeems it. -/
theorem Warrants.exec (refl : ∀ w, rely w w) {i : ι} {p : Txn σ κ ι ε err α} {store store' : Store σ κ ε}
    (here : ok store.world) {state : Txn σ κ ι ε err α ⊕ Except err α}
    (warrants : p.Warrants ok rely C t Q store.world)
    (ran : p.exec t i store = some (store',state)) : Warranted ok rely C t Q store'.world state ∧
      (store'.world.db = store.world.db ∨ ∃ db events, C store.world db events ∧
        store'.world = (World.mk db store.world.log).record t events) := by
  cases p with
  | ret value =>
    cases Option.some.inj ran
    exact ⟨warrants _ (refl _),.inl rfl⟩
  | raise error =>
    cases Option.some.inj ran
    exact ⟨trivial,.inl rfl⟩
  | input next =>
    cases Option.some.inj ran
    exact ⟨warrants i _ (refl _),.inl rfl⟩
  | read seen next =>
    cases Option.some.inj ran
    exact ⟨warrants _ (refl _) here,.inl rfl⟩
  | lock key cond next =>
    simp only [Txn.exec] at ran
    split at ran
    · have rest := warrants _ (refl _) here
      split at ran
      next row found =>
        cases Option.some.inj ran
        rw [found] at rest
        exact ⟨rest,.inl rfl⟩
      next missed =>
        cases Option.some.inj ran
        rw [missed] at rest
        exact ⟨rest,.inl rfl⟩
    · cases ran
  | tryLock key cond next =>
    obtain ⟨skipped,rest⟩ := warrants _ (refl _) here
    simp only [Txn.exec] at ran
    split at ran
    · split at ran
      next row found =>
        cases Option.some.inj ran
        rw [found] at rest
        exact ⟨rest,.inl rfl⟩
      next missed =>
        cases Option.some.inj ran
        exact ⟨skipped,.inl rfl⟩
    · cases Option.some.inj ran
      exact ⟨skipped,.inl rfl⟩
  | commit writes next =>
    obtain ⟨done,refused⟩ := warrants i _ (refl _) here
    simp only [Txn.exec] at ran
    split at ran
    next db events written =>
      cases Option.some.inj ran
      exact ⟨(done db events written).2,.inr ⟨db,events,(done db events written).1,rfl⟩⟩
    next none_ =>
      cases Option.some.inj ran
      exact ⟨refused none_,.inl rfl⟩
  | rollback next =>
    cases Option.some.inj ran
    exact ⟨warrants _ (refl _),.inl rfl⟩

end warrants
end Txn

section runs
open Txn
variable [DecidableEq κ] {program : ρ → Txn σ κ ι ε err α} {D : Discipline σ ι ε}
  {start s u : System σ κ ι ε err ρ α} {ok : World σ ε → Prop} {rely : World σ ε → World σ ε → Prop}
  {C : ρ → Nat → World σ ε → σ → List ε → Prop}

/-- What a session that has started since comes to, whatever the others do that `rely` allows. -/
theorem Reach.warranting {C : World σ ε → σ → List ε → Prop} {Q : Except err α → World σ ε → Prop} {t : Nat} {r : ρ}
    (reach : Reach program D start s) (absent : start.session t = none) (refl : ∀ w, rely w w)
    (trans : ∀ a b c, rely a b → rely b c → rely a c) (ok_ : ∀ a, Reach program D start a → ok a.world)
    (stable : ∀ x w w', Q x w → rely w w' → Q x w')
    (warrants : ∀ a, Reach program D start a → (program r).Warrants ok rely C t Q a.world)
    (steps : ∀ a action b, Reach program D start a → a.step program action = some b →
      D.admits a b action → rely a.world b.world)
    {state : Txn σ κ ι ε err α ⊕ Except err α} (present : s.session t = some ⟨r,state⟩) :
    Warranted ok rely C t Q s.world state := by
  refine Reach.session_since (Q := fun s state => Warranted ok rely C t Q s.world state) reach absent
    (fun a before _ => warrants a before) ?_ ?_ ?_ present
  · exact fun a i p store state there _ before ran _ _ => (Warrants.exec refl (ok_ a there) before ran).1
  · exact fun _ _ _ _ _ _ _ _ _ => trivial
  · intro a action b state before other holds taken admitted
    have step := steps a action b before taken admitted
    cases state with
    | inl p => exact holds.later trans step
    | inr x =>
      cases x with
      | ok value => exact stable _ _ _ holds step
      | error error => trivial

/-- What a session that has started since and returned has left. -/
theorem Reach.left {Q : Except err α → World σ ε → Prop} {t : Nat} {r : ρ} {value : α}
    (reach : Reach program D start s) (absent : start.session t = none) (refl : ∀ w, rely w w)
    (trans : ∀ a b c, rely a b → rely b c → rely a c) (ok_ : ∀ a, Reach program D start a → ok a.world)
    (stable : ∀ x w w', Q x w → rely w w' → Q x w')
    (warrants : ∀ a, Reach program D start a → (program r).Warrants ok rely (fun _ _ _ => True) t Q a.world)
    (steps : ∀ a action b, Reach program D start a → a.step program action = some b →
      D.admits a b action → rely a.world b.world)
    (ended : s.session t = some ⟨r,.inr (.ok value)⟩) : Q (.ok value) s.world :=
  reach.warranting absent refl trans ok_ stable warrants steps ended

/-- Every change of the database is a commit its request answers for. -/
theorem Reach.warranted (reach : Reach program D start s) (idle : ∀ t, start.session t = none)
    (refl : ∀ w, rely w w) (trans : ∀ a b c, rely a b → rely b c → rely a c)
    (ok_ : ∀ a, Reach program D start a → ok a.world)
    (warrants : ∀ r t a, Reach program D start a →
      (program r).Warrants ok rely (C r t) t (fun _ _ => True) a.world)
    (steps : ∀ a action b, Reach program D start a → a.step program action = some b →
      D.admits a b action → rely a.world b.world)
    {action : Action ι err ρ} (taken : s.step program action = some u) :
    u.db = s.db ∨ ∃ t i r state db events, action = .exec t i ∧ s.session t = some ⟨r,state⟩ ∧
      C r t s.world db events ∧ u.world = (World.mk db s.world.log).record t events := by
  cases Reach.taken_of_step taken with
  | start => exact .inl rfl
  | die => exact .inl rfl
  | @exec t i r p store state running ran =>
    have warranted : (p.Warrants ok rely (C r t) t (fun _ _ => True) s.world) :=
      reach.warranting (idle t) refl trans ok_ (fun _ _ _ _ _ => trivial) (warrants r t) steps running
    refine ((Warrants.exec refl (ok_ s reach) warranted ran).2).imp id ?_
    rintro ⟨db,events,holds,same⟩
    exact ⟨t,i,r,_,db,events,rfl,running,holds,same⟩

end runs
end Relational
