import Dalm.Relational.System
import Mathlib.Logic.Relation

/-! Sessions that wait for each other. A program that takes its rows in one order waits only for rows
after those it holds. Where every session that waits for one that waits itself does so in the order,
there is no cycle of them. -/
namespace Relational
variable {σ κ ι ε err ρ α β : Type} [Lockable σ κ]

namespace Txn

/-- The row the next statement takes, and waits for where another session holds it. -/
def awaits : Txn σ κ ι ε err α → Option κ
  | .lock key _ _ => some key
  | _ => none

/-- With the rows `held` the program takes, waiting for them, only rows after those it then holds, and
ends with `Q`. -/
def climbs (before : κ → κ → Prop) : Txn σ κ ι ε err α → (Except err α → List κ → Prop) → List κ → Prop
  | .ret value,Q,held => Q (.ok value) held
  | .raise error,Q,held => Q (.error error) held
  | .input next,Q,held => ∀ i, climbs before (next i) Q held
  | .read _ next,Q,held => ∀ db, climbs before (next db) Q held
  | .lock key _ next,Q,held => (∀ other ∈ held, before other key) ∧
      (∀ row, climbs before (next (some row)) Q (key :: held)) ∧ climbs before (next none) Q held
  | .tryLock key _ next,Q,held =>
      (∀ row, climbs before (next (some row)) Q (key :: held)) ∧ climbs before (next none) Q held
  | .commit _ next,Q,held =>
      ∀ i, climbs before (next i true) Q [] ∧ climbs before (next i false) Q held
  | .rollback next,Q,_ => climbs before next Q []

variable {before : κ → κ → Prop} {held : List κ} {p : Txn σ κ ι ε err α}
  {Q R : Except err α → List κ → Prop}

theorem climbs_mono (pre : p.climbs before Q held) (weaker : ∀ x held, Q x held → R x held) :
    p.climbs before R held := by
  induction p generalizing held with
  | ret value => exact weaker _ _ pre
  | raise error => exact weaker _ _ pre
  | input next ih => exact fun i => ih i (pre i)
  | read seen next ih => exact fun db => ih db (pre db)
  | lock key cond next ih => exact ⟨pre.1,fun row => ih _ (pre.2.1 row),ih _ pre.2.2⟩
  | tryLock key cond next ih => exact ⟨fun row => ih _ (pre.1 row),ih _ pre.2⟩
  | commit writes next ih => exact fun i => ⟨ih i _ (pre i).1,ih i _ (pre i).2⟩
  | rollback next ih => exact ih pre

theorem climbs_bind {f : α → Txn σ κ ι ε err β} {Q : Except err β → List κ → Prop} :
    (p >>= f).climbs before Q held ↔ p.climbs before (fun x held => match x with
      | .ok value => (f value).climbs before Q held
      | .error error => Q (.error error) held) held := by
  change (p.bind f).climbs before Q held ↔ _
  induction p generalizing held with
  | ret value => exact Iff.rfl
  | raise error => exact Iff.rfl
  | input next ih => exact forall_congr' fun i => ih i
  | read seen next ih => exact forall_congr' fun db => ih db
  | lock key cond next ih => exact and_congr Iff.rfl (and_congr (forall_congr' fun row => ih _) (ih _))
  | tryLock key cond next ih => exact and_congr (forall_congr' fun row => ih _) (ih _)
  | commit writes next ih => exact forall_congr' fun i => and_congr (ih i _) (ih i _)
  | rollback next ih => exact ih

theorem climbs_rescue {handler : err → Txn σ κ ι ε err α} :
    (p.rescue handler).climbs before Q held ↔ p.climbs before (fun x held => match x with
      | .ok value => Q (.ok value) held
      | .error error => (handler error).climbs before Q held) held := by
  induction p generalizing held with
  | ret value => exact Iff.rfl
  | raise error => exact Iff.rfl
  | input next ih => exact forall_congr' fun i => ih i
  | read seen next ih => exact forall_congr' fun db => ih db
  | lock key cond next ih => exact and_congr Iff.rfl (and_congr (forall_congr' fun row => ih _) (ih _))
  | tryLock key cond next ih => exact and_congr (forall_congr' fun row => ih _) (ih _)
  | commit writes next ih => exact forall_congr' fun i => and_congr (ih i _) (ih i _)
  | rollback next ih => exact ih

section statements

@[simp] theorem climbs_pure {value : α} :
    (pure value : Txn σ κ ι ε err α).climbs before Q held ↔ Q (.ok value) held := Iff.rfl

@[simp] theorem climbs_throw {error : err} :
    (throw error : Txn σ κ ι ε err α).climbs before Q held ↔ Q (.error error) held := Iff.rfl

@[simp] theorem climbs_supply {Q : Except err ι → List κ → Prop} :
    (supply : Txn σ κ ι ε err ι).climbs before Q held ↔ ∀ i, Q (.ok i) held := Iff.rfl

@[simp] theorem climbs_query {f : σ → α} :
    (query f : Txn σ κ ι ε err α).climbs before Q held ↔ ∀ db, Q (.ok (f db)) held := Iff.rfl

@[simp] theorem climbs_observe {event : σ → ε} {f : σ → α} :
    (observe event f : Txn σ κ ι ε err α).climbs before Q held ↔ ∀ db, Q (.ok (f db)) held := Iff.rfl

@[simp] theorem climbs_undo {Q : Except err Unit → List κ → Prop} :
    (undo : Txn σ κ ι ε err Unit).climbs before Q held ↔ Q (.ok ()) [] := Iff.rfl

@[simp] theorem climbs_commitOr {failure : err} {writes : ι → σ → Option (σ × List ε)}
    {Q : Except err ι → List κ → Prop} :
    (commitOr failure writes : Txn σ κ ι ε err ι).climbs before Q held ↔
      ∀ i, Q (.ok i) [] ∧ Q (.error failure) held := by
  simp [commitOr,climbs]

@[simp] theorem climbs_selectForUpdate {key : κ}
    {Q : Except err (Option (Lockable.Row σ key)) → List κ → Prop} :
    (selectForUpdate key : Txn σ κ ι ε err _).climbs before Q held ↔
      (∀ other ∈ held, before other key) ∧ (∀ row, Q (.ok (some row)) (key :: held)) ∧
        Q (.ok none) held := Iff.rfl

/-- The rows of a list in the order, after all that is held. -/
theorem climbs_lockEach {key : β → κ} {cond : (b : β) → Lockable.Row σ (key b) → Bool} {list : List β}
    {Q : Except err (List ((b : β) × Lockable.Row σ (key b))) → List κ → Prop}
    (sorted : list.Pairwise fun first second => before (key first) (key second))
    (later : ∀ b ∈ list, ∀ other ∈ held, before other (key b))
    (post : ∀ rows held, Q (.ok rows) held) :
    (lockEach key cond list : Txn σ κ ι ε err _).climbs before Q held := by
  induction list generalizing held Q with
  | nil => exact post _ _
  | cons b rest ih =>
    obtain ⟨first,sorted⟩ := List.pairwise_cons.mp sorted
    have onward : ∀ {held}, (∀ b ∈ rest, ∀ other ∈ held, before other (key b)) →
        ∀ f : List ((b : β) × Lockable.Row σ (key b)) → List ((b : β) × Lockable.Row σ (key b)),
        (lockEach key cond rest >>= fun rows => (return f rows : Txn σ κ ι ε err _)).climbs before Q held :=
      fun later f => climbs_bind.mpr (ih sorted later fun rows held => post _ _)
    refine ⟨later b List.mem_cons_self,fun row => onward ?_ _,
      onward (fun other member => later other (List.mem_cons_of_mem _ member)) _⟩
    intro other member key' inside
    rcases List.mem_cons.mp inside with rfl | inside
    · exact first other member
    · exact later other (List.mem_cons_of_mem _ member) key' inside

theorem climbs_firstUnlocked {key : β → κ} {cond : (b : β) → Lockable.Row σ (key b) → Bool}
    {list : List β} {Q : Except err (Option ((b : β) × Lockable.Row σ (key b))) → List κ → Prop}
    (post : ∀ found held, Q (.ok found) held) :
    (firstUnlocked key cond list : Txn σ κ ι ε err _).climbs before Q held := by
  induction list with
  | nil => exact post _ _
  | cons b rest ih => exact ⟨fun row => post _ _,ih⟩

end statements

section executions
variable [DecidableEq κ] {t v : Nat} {i : ι} {store store' : Store σ κ ε}
  {state : Txn σ κ ι ε err α ⊕ Except err α} {key : κ}

theorem climbs_exec (climbs : p.climbs before (fun _ _ => True) held)
    (owned : ∀ key, store.owner key = some t → key ∈ held) (ran : p.exec t i store = some (store',state)) :
    ∃ held, (∀ key, store'.owner key = some t → key ∈ held) ∧
      ∀ q, state = .inl q → q.climbs before (fun _ _ => True) held := by
  have released : ∀ {other : Store σ κ ε} {held : List κ} (key : κ),
      (other.release t).owner key = some t → key ∈ held :=
    fun key mine => absurd rfl (Store.owner_release.mp mine).1
  have taken : ∀ {key : κ} (other : κ), (store.take t key).owner other = some t → other ∈ key :: held := by
    intro key other mine
    rcases Store.owner_take mine with ⟨same,_⟩ | mine
    · exact same ▸ List.mem_cons_self
    · exact List.mem_cons_of_mem _ (owned other mine)
  cases p with
  | ret value =>
    cases Option.some.inj ran
    exact ⟨[],released,fun q same => by cases same⟩
  | raise error =>
    cases Option.some.inj ran
    exact ⟨[],released,fun q same => by cases same⟩
  | input next =>
    cases Option.some.inj ran
    exact ⟨held,owned,fun q same => Sum.inl.inj same ▸ climbs i⟩
  | read seen next =>
    cases Option.some.inj ran
    exact ⟨held,owned,fun q same => Sum.inl.inj same ▸ climbs _⟩
  | lock key cond next =>
    simp only [Txn.exec] at ran
    split at ran
    next =>
      split at ran
      next row found =>
        cases Option.some.inj ran
        exact ⟨key :: held,taken,fun q same => Sum.inl.inj same ▸ climbs.2.1 row⟩
      next =>
        cases Option.some.inj ran
        exact ⟨held,owned,fun q same => Sum.inl.inj same ▸ climbs.2.2⟩
    next => cases ran
  | tryLock key cond next =>
    simp only [Txn.exec] at ran
    split at ran
    next =>
      split at ran
      next row found =>
        cases Option.some.inj ran
        exact ⟨key :: held,taken,fun q same => Sum.inl.inj same ▸ climbs.1 row⟩
      next =>
        cases Option.some.inj ran
        exact ⟨held,owned,fun q same => Sum.inl.inj same ▸ climbs.2⟩
    next =>
      cases Option.some.inj ran
      exact ⟨held,owned,fun q same => Sum.inl.inj same ▸ climbs.2⟩
  | commit writes next =>
    simp only [Txn.exec] at ran
    split at ran
    next =>
      cases Option.some.inj ran
      exact ⟨[],released,fun q same => Sum.inl.inj same ▸ (climbs i).1⟩
    next =>
      cases Option.some.inj ran
      exact ⟨held,owned,fun q same => Sum.inl.inj same ▸ (climbs i).2⟩
  | rollback next =>
    cases Option.some.inj ran
    exact ⟨[],released,fun q same => Sum.inl.inj same ▸ climbs⟩

/-- Who holds a row after a statement held it before, or took it and goes on. -/
theorem exec_owner (ran : p.exec t i store = some (store',state)) (owned : store'.owner key = some v) :
    (v = t → ∃ q, state = .inl q) ∧ (v ≠ t → store.owner key = some v) := by
  have released : ∀ {other : Store σ κ ε}, (other.release t).owner key = some v →
      v ≠ t ∧ other.owner key = some v := Store.owner_release.mp
  have taken : ∀ {other : κ}, (store.take t other).owner key = some v → v ≠ t →
      store.owner key = some v := by
    intro other mine foreign
    rcases Store.owner_take mine with ⟨_,same⟩ | mine
    · exact absurd same foreign
    · exact mine
  cases p with
  | ret value =>
    cases Option.some.inj ran
    exact ⟨fun same => absurd same (released owned).1,fun _ => (released owned).2⟩
  | raise error =>
    cases Option.some.inj ran
    exact ⟨fun same => absurd same (released owned).1,fun _ => (released owned).2⟩
  | input next =>
    cases Option.some.inj ran
    exact ⟨fun _ => ⟨_,rfl⟩,fun _ => owned⟩
  | read seen next =>
    cases Option.some.inj ran
    exact ⟨fun _ => ⟨_,rfl⟩,fun _ => owned⟩
  | lock other cond next =>
    simp only [Txn.exec] at ran
    split at ran
    · split at ran <;> cases Option.some.inj ran
      · exact ⟨fun _ => ⟨_,rfl⟩,taken owned⟩
      · exact ⟨fun _ => ⟨_,rfl⟩,fun _ => owned⟩
    · cases ran
  | tryLock other cond next =>
    simp only [Txn.exec] at ran
    split at ran
    · split at ran <;> cases Option.some.inj ran
      · exact ⟨fun _ => ⟨_,rfl⟩,taken owned⟩
      · exact ⟨fun _ => ⟨_,rfl⟩,fun _ => owned⟩
    · cases Option.some.inj ran
      exact ⟨fun _ => ⟨_,rfl⟩,fun _ => owned⟩
  | commit writes next =>
    simp only [Txn.exec] at ran
    split at ran <;> cases Option.some.inj ran
    · exact ⟨fun _ => ⟨_,rfl⟩,fun _ => (released owned).2⟩
    · exact ⟨fun _ => ⟨_,rfl⟩,fun _ => owned⟩
  | rollback next =>
    cases Option.some.inj ran
    exact ⟨fun _ => ⟨_,rfl⟩,fun _ => (released owned).2⟩

end executions
end Txn

section systems
variable [DecidableEq κ] {s u : System σ κ ι ε err ρ α} {t v : Nat} {key : κ} {before : κ → κ → Prop}
  {program : ρ → Txn σ κ ι ε err α} {action : Action ι err ρ} {start : System σ κ ι ε err ρ α}
  {C : System σ κ ι ε err ρ α → Action ι err ρ → System σ κ ι ε err ρ α → Prop}

namespace System

/-- The session is at a statement that takes the row. -/
def Asks (s : System σ κ ι ε err ρ α) (t : Nat) (key : κ) : Prop :=
  ∃ r p, s.session t = some ⟨r,.inl p⟩ ∧ p.awaits = some key

/-- The session asks for a row another one holds. -/
def Waits (s : System σ κ ι ε err ρ α) (t v : Nat) : Prop :=
  ∃ key, s.Asks t key ∧ s.store.owner key = some v ∧ v ≠ t

/-- The session waits for one that waits itself, and holds a row that does not come before the one it
waits for. -/
def Crosses (before : κ → κ → Prop) (s : System σ κ ι ε err ρ α) (t : Nat) : Prop :=
  ∃ key held v w, s.Asks t key ∧ s.store.owner key = some v ∧ v ≠ t ∧ s.Waits v w ∧
    s.store.owner held = some t ∧ ¬ before held key

omit [DecidableEq κ] in
/-- Where no session crosses the order, no session waits, by way of others, for itself. -/
theorem acyclic (irrefl : ∀ key, ¬ before key key)
    (trans : ∀ {a b c}, before a b → before b c → before a c) (straight : ∀ t, ¬ s.Crosses before t)
    (t : Nat) : ¬ Relation.TransGen s.Waits t t := by
  have ordered : ∀ {t v w key}, s.Asks t key → s.store.owner key = some v → v ≠ t → s.Waits v w →
      ∀ held, s.store.owner held = some t → before held key := by
    intro t v w key asks owned other waits held mine
    by_contra unordered
    exact straight t ⟨key,held,v,w,asks,owned,other,waits,mine,unordered⟩
  have chain : ∀ {t v}, Relation.TransGen s.Waits t v → (∃ w, s.Waits v w) →
      ∃ key, s.store.owner key = some v ∧ ∀ held, s.store.owner held = some t → before held key := by
    intro t v waits
    induction waits with
    | single link =>
      rintro ⟨w,onward⟩
      obtain ⟨key,asks,owned,other⟩ := link
      exact ⟨key,owned,ordered asks owned other onward⟩
    | tail _ link ih =>
      rintro ⟨w,onward⟩
      obtain ⟨first,mine,below⟩ := ih ⟨_,link⟩
      obtain ⟨key,asks,owned,other⟩ := link
      exact ⟨key,owned,fun held his => trans (below held his) (ordered asks owned other onward first mine)⟩
  intro cycle
  obtain ⟨_,first,_⟩ := Relation.TransGen.head'_iff.mp cycle
  obtain ⟨key,owned,below⟩ := chain cycle ⟨_,first⟩
  exact irrefl key (below key owned)

end System

namespace Reach

theorem runs_owner (runs : Runs program C start s) (free : ∀ key, start.store.owner key = none)
    (owned : s.store.owner key = some t) : ∃ r p, s.session t = some ⟨r,.inl p⟩ := by
  induction runs with
  | refl =>
    rw [free] at owned
    cases owned
  | @tail a b before link ih =>
    obtain ⟨action,taken,_⟩ := link
    cases taken_of_step taken with
    | @start v r absent =>
      obtain ⟨q,p,there⟩ := ih owned
      refine ⟨q,p,(put_other ?_).trans there⟩
      rintro rfl
      cases absent.symm.trans there
    | @exec v i r p store state running ran =>
      obtain ⟨own,others⟩ := Txn.exec_owner ran owned
      rcases eq_or_ne t v with rfl | other
      · obtain ⟨q,rfl⟩ := own rfl
        exact ⟨r,q,put_self⟩
      · obtain ⟨q,p,there⟩ := ih (others other)
        exact ⟨q,p,(put_other other).trans there⟩
    | @die v error r p running =>
      obtain ⟨other,owned⟩ := Store.owner_release.mp owned
      obtain ⟨q,p,there⟩ := ih owned
      exact ⟨q,p,(put_other other).trans there⟩

theorem others_owner (taken : s.step program action = some u) (other : Reach.Action.session action ≠ t)
    (owned : u.store.owner key = some t) : s.store.owner key = some t := by
  cases taken_of_step taken with
  | start absent => exact owned
  | exec running ran => exact (Txn.exec_owner ran owned).2 other.symm
  | die running => exact (Store.owner_release.mp owned).2

/-- A session whose program climbs never crosses the order. -/
theorem runs_straight {r : ρ} {state : Txn σ κ ι ε err α ⊕ Except err α}
    (runs : Runs program C start s) (idle : ∀ t, start.session t = none)
    (free : ∀ key, start.store.owner key = none)
    (climbs : (program r).climbs before (fun _ _ => True) [])
    (present : s.session t = some ⟨r,state⟩) : ¬ s.Crosses before t := by
  have holding : ∀ p, state = .inl p → ∃ held, (∀ key, s.store.owner key = some t → key ∈ held) ∧
      p.climbs before (fun _ _ => True) held := by
    refine runs_session_rule (Q := fun s state => ∀ p, state = .inl p → ∃ held,
      (∀ key, s.store.owner key = some t → key ∈ held) ∧ p.climbs before (fun _ _ => True) held)
      runs idle ?_ ?_ ?_ ?_ present
    · intro a reached absent p same
      refine ⟨[],fun key owned => ?_,Sum.inl.inj same ▸ climbs⟩
      obtain ⟨_,_,there⟩ := runs_owner reached free owned
      cases absent.symm.trans there
    · intro a i p store state _ _ holds ran _ _ q same
      obtain ⟨held,owned,climbs⟩ := holds p rfl
      obtain ⟨held,owned,climbs⟩ := Txn.climbs_exec climbs owned ran
      exact ⟨held,owned,climbs q same⟩
    · exact fun _ _ _ _ _ _ _ _ _ _ _ same => by cases same
    · intro a action b state _ _ other holds taken _ p same
      obtain ⟨held,owned,climbs⟩ := holds p same
      exact ⟨held,fun key mine => owned key (others_owner taken other mine),climbs⟩
  rintro ⟨key,held,_,_,⟨q,p,there,asks⟩,_,_,_,mine,unordered⟩
  cases present.symm.trans there
  obtain ⟨rows,owned,climbs⟩ := holding p rfl
  cases p with
  | lock other cond next =>
    cases Option.some.inj asks
    exact unordered (climbs.1 held (owned held mine))
  | _ => cases asks

end Reach
end systems
end Relational
