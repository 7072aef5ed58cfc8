import Dalm.Relational.Soundness
import Dalm.Relational.Statements

/-! A program run with nobody else at work: every row it locks is free, and its statements
follow each other. The `n`th statement takes the `n`th input. -/
namespace Relational
open Held
variable {σ κ ι ε err ρ α β : Type} [Lockable σ κ]

/-- How a program ended, the number of the next statement, and the world it left. -/
structure Ended (σ ε err α : Type) where
  result : Except err α
  next : Nat
  world : World σ ε

namespace Txn
variable (t : Nat) (inputs : Nat → ι)

def alone : Txn σ κ ι ε err α → Nat → World σ ε → Ended σ ε err α
  | .ret value,n,w => ⟨.ok value,n,w⟩
  | .raise error,n,w => ⟨.error error,n,w⟩
  | .input next,n,w => (next (inputs n)).alone (n + 1) w
  | .read seen next,n,w => (next w.db).alone (n + 1) (w.record t (seen w.db))
  | .lock key cond next,n,w => (next ((Lockable.view key w.db).filter cond)).alone (n + 1) w
  | .tryLock key cond next,n,w => (next ((Lockable.view key w.db).filter cond)).alone (n + 1) w
  | .commit writes next,n,w =>
    match writes (inputs n) w.db with
    | some (db,events) => (next (inputs n) true).alone (n + 1) ((World.mk db w.log).record t events)
    | none => (next (inputs n) false).alone (n + 1) w
  | .rollback next,n,w => next.alone (n + 1) w

/-- What a continuation makes of an end. -/
def andThen (e : Ended σ ε err α) (f : α → Txn σ κ ι ε err β) : Ended σ ε err β :=
  match e.result with
  | .ok value => (f value).alone t inputs e.next e.world
  | .error error => ⟨.error error,e.next,e.world⟩

section rules
variable {t inputs} {n : Nat} {w : World σ ε}

@[simp] theorem alone_pure (value : α) :
    alone t inputs (pure value : Txn σ κ ι ε err α) n w = ⟨.ok value,n,w⟩ := rfl

@[simp] theorem alone_throw (error : err) :
    alone t inputs (throw error : Txn σ κ ι ε err α) n w = ⟨.error error,n,w⟩ := rfl

@[simp] theorem alone_supply {k : ι → Txn σ κ ι ε err α} :
    alone t inputs (supply >>= k) n w = alone t inputs (k (inputs n)) (n + 1) w := rfl

@[simp] theorem alone_query {f : σ → β} {k : β → Txn σ κ ι ε err α} :
    alone t inputs (query f >>= k) n w = alone t inputs (k (f w.db)) (n + 1) w := by
  change alone t inputs (k (f w.db)) (n + 1) (w.record t []) = _
  rw [World.record_nil]

@[simp] theorem alone_selectForUpdate {key : κ}
    {k : Option (Lockable.Row σ key) → Txn σ κ ι ε err α} :
    alone t inputs (selectForUpdate key >>= k) n w =
      alone t inputs (k (Lockable.view key w.db)) (n + 1) w := by
  change alone t inputs (k ((Lockable.view key w.db).filter fun _ => true)) (n + 1) w = _
  cases Lockable.view key w.db <;> rfl

theorem alone_commitOr {failure : err} {writes : ι → σ → Option (σ × List ε)}
    {k : ι → Txn σ κ ι ε err α} :
    alone t inputs (commitOr failure writes >>= k) n w =
      match writes (inputs n) w.db with
      | some (db,events) =>
        alone t inputs (k (inputs n)) (n + 1) ((World.mk db w.log).record t events)
      | none => ⟨.error failure,n + 1,w⟩ := by
  change (match writes (inputs n) w.db with
    | some (db,events) => _
    | none => _) = _
  cases writes (inputs n) w.db <;> rfl

theorem alone_bind (p : Txn σ κ ι ε err α) (f : α → Txn σ κ ι ε err β) (n : Nat) (w : World σ ε) :
    alone t inputs (p >>= f) n w = andThen t inputs (alone t inputs p n w) f := by
  change alone t inputs (p.bind f) n w = _
  induction p generalizing n w with
  | ret value => rfl
  | raise error => rfl
  | input next ih => exact ih _ _ _
  | read seen next ih => exact ih _ _ _
  | lock key cond next ih => exact ih _ _ _
  | tryLock key cond next ih => exact ih _ _ _
  | commit writes next ih =>
    simp only [bind,alone]
    split
    · exact ih _ _ _ _
    · exact ih _ _ _ _
  | rollback next ih => exact ih _ _

theorem alone_map (p : Txn σ κ ι ε err α) (f : α → β) (n : Nat) (w : World σ ε) :
    alone t inputs (p >>= fun value => return f value) n w =
      ⟨(alone t inputs p n w).result.map f,(alone t inputs p n w).next,(alone t inputs p n w).world⟩ := by
  rw [alone_bind,andThen]
  split
  next value ended =>
    rw [ended]
    rfl
  next error ended =>
    rw [ended]
    rfl

section rows
variable {key : β → κ} {cond : (b : β) → Lockable.Row σ (key b) → Bool}

/-- The rows a locking statement finds, when it waits for none. -/
def rowsOf (key : β → κ) (cond : (b : β) → Lockable.Row σ (key b) → Bool) (db : σ) (bs : List β) :
    List ((b : β) × Lockable.Row σ (key b)) :=
  bs.filterMap fun b => ((Lockable.view (key b) db).filter (cond b)).map (Sigma.mk b)

theorem alone_lockEach {bs : List β} {k : List ((b : β) × Lockable.Row σ (key b)) → Txn σ κ ι ε err α} :
    alone t inputs (lockEach key cond bs >>= k) n w =
      alone t inputs (k (rowsOf key cond w.db bs)) (n + bs.length) w := by
  induction bs generalizing n k with
  | nil => rfl
  | cons b bs ih =>
    change alone t inputs ((Txn.bind (lockEach key cond bs) _).bind k) (n + 1) w = _
    rw [bind_assoc]
    refine (ih (k := fun rows => Txn.bind _ k)).trans ?_
    rw [List.length_cons,show n + 1 + bs.length = n + (bs.length + 1) by omega]
    unfold rowsOf
    cases found : (Lockable.view (key b) w.db).filter (cond b) <;> simp [found] <;> rfl

/-- With nothing locked by others, the first row that still meets the condition is taken. -/
theorem alone_firstUnlocked_cons {b : β} {bs : List β} {row : Lockable.Row σ (key b)}
    {k : Option ((b : β) × Lockable.Row σ (key b)) → Txn σ κ ι ε err α}
    (found : (Lockable.view (key b) w.db).filter (cond b) = some row) :
    alone t inputs (firstUnlocked key cond (b :: bs) >>= k) n w =
      alone t inputs (k (some ⟨b,row⟩)) (n + 1) w := by
  simp only [alone_bind,firstUnlocked,alone,found,andThen]

end rows

theorem alone_bind_ok {p : Txn σ κ ι ε err β} {f : β → Txn σ κ ι ε err α} {value : α}
    (answered : (alone t inputs (p >>= f) n w).result = .ok value) : ∃ b m w',
      alone t inputs p n w = ⟨.ok b,m,w'⟩ ∧ (alone t inputs (f b) m w').result = .ok value := by
  rw [alone_bind,andThen] at answered
  cases ran : alone t inputs p n w with
  | mk result m w' =>
    rw [ran] at answered
    cases result with
    | ok b => exact ⟨b,m,w',rfl,answered⟩
    | error error => cases answered

/-- What holds of each answer of a loop holds of them all. -/
theorem alone_mapM {γ : Type} {f : α → Txn σ κ ι ε err β} {g : β → γ} {h : α → γ}
    (each : ∀ a n w b, (alone t inputs (f a) n w).result = .ok b → g b = h a) {items : List α}
    {made : List β} (answered : (alone t inputs (items.mapM f) n w).result = .ok made) :
    made.map g = items.map h := by
  have loop : ∀ (items : List α) (before made : List β) (n : Nat) (w : World σ ε),
      (alone t inputs (List.mapM.loop f items before) n w).result = .ok made →
        made.map g = before.reverse.map g ++ items.map h := by
    intro items
    induction items with
    | nil =>
      intro before made n w answered
      cases answered
      simp
    | cons a items ih =>
      intro before made n w answered
      obtain ⟨b,m,w',first,rest⟩ := alone_bind_ok answered
      have here : g b = h a := each a n w b (by rw [first])
      rw [ih (b :: before) made m w' rest]
      simp [here]
  exact loop items [] made n w answered

/-- A program that answers and leaves the world as it is. -/
def Reads (t : Nat) (inputs : Nat → ι) (p : Txn σ κ ι ε err α) (w : World σ ε) : Prop :=
  ∀ n, ∃ value m, alone t inputs p n w = ⟨.ok value,m,w⟩

theorem reads_pure (value : α) : Reads t inputs (pure value : Txn σ κ ι ε err α) w :=
  fun n => ⟨value,n,rfl⟩

theorem reads_supply : Reads t inputs (supply : Txn σ κ ι ε err ι) w :=
  fun n => ⟨inputs n,n + 1,rfl⟩

theorem alone_select (f : σ → α) :
    alone t inputs (query f : Txn σ κ ι ε err α) n w = ⟨.ok (f w.db),n + 1,w⟩ := by
  change Ended.mk _ _ (w.record t []) = _
  rw [World.record_nil]

theorem reads_query (f : σ → α) : Reads t inputs (query f : Txn σ κ ι ε err α) w :=
  fun n => ⟨f w.db,n + 1,alone_select f⟩

theorem Reads.goesOn {p : Txn σ κ ι ε err α} (reads : Reads t inputs p w) (f : α → Txn σ κ ι ε err β)
    (n : Nat) : ∃ value m, alone t inputs (p >>= f) n w = alone t inputs (f value) m w := by
  obtain ⟨value,m,answered⟩ := reads n
  refine ⟨value,m,?_⟩
  rw [alone_bind,answered]
  rfl

theorem Reads.bind {p : Txn σ κ ι ε err α} {f : α → Txn σ κ ι ε err β} (reads : Reads t inputs p w)
    (rest : ∀ value, Reads t inputs (f value) w) : Reads t inputs (p >>= f) w := by
  intro n
  obtain ⟨value,m,same⟩ := reads.goesOn f n
  obtain ⟨value',m',answered⟩ := rest value m
  exact ⟨value',m',same.trans answered⟩

theorem reads_mapM {f : α → Txn σ κ ι ε err β} (each : ∀ a, Reads t inputs (f a) w) (items : List α) :
    Reads t inputs (items.mapM f) w := by
  have loop : ∀ items made, Reads t inputs (List.mapM.loop f items made) w := by
    intro items
    induction items with
    | nil => exact fun made => reads_pure made.reverse
    | cons a items ih => exact fun made => (each a).bind fun value => ih (value :: made)
  exact loop items []

section instant
variable {i : ι}

omit inputs in
theorem alone_constant (p : Txn σ κ ι ε err α) (n m : Nat) (w : World σ ε) :
    (alone t (fun _ => i) p n w).result = (alone t (fun _ => i) p m w).result ∧
      (alone t (fun _ => i) p n w).world = (alone t (fun _ => i) p m w).world := by
  induction p generalizing n m w with
  | ret value => exact ⟨rfl,rfl⟩
  | raise error => exact ⟨rfl,rfl⟩
  | input next ih => exact ih _ _ _ _
  | read seen next ih => exact ih _ _ _ _
  | lock key cond next ih => exact ih _ _ _ _
  | tryLock key cond next ih => exact ih _ _ _ _
  | commit writes next ih =>
    simp only [alone]
    split
    · exact ih _ _ _ _ _
    · exact ih _ _ _ _ _
  | rollback next ih => exact ih _ _ _

/-- A program run alone at one instant: every statement takes the same input. -/
def once (t : Nat) (i : ι) (p : Txn σ κ ι ε err α) (w : World σ ε) : Except err α × World σ ε :=
  ((alone t (fun _ => i) p 0 w).result,(alone t (fun _ => i) p 0 w).world)

omit inputs in
theorem once_bind (p : Txn σ κ ι ε err α) (f : α → Txn σ κ ι ε err β) (w : World σ ε) :
    once t i (p >>= f) w = match once t i p w with
      | (.ok value,w') => once t i (f value) w'
      | (.error error,w') => (.error error,w') := by
  unfold once
  rw [alone_bind,andThen]
  cases (alone t (fun _ => i) p 0 w).result with
  | ok value =>
    obtain ⟨same,same'⟩ := alone_constant (i := i) (t := t) (f value)
      (alone t (fun _ => i) p 0 w).next 0 (alone t (fun _ => i) p 0 w).world
    simp only [same,same']
  | error error => rfl

omit inputs in
@[simp] theorem once_supply : once t i (supply : Txn σ κ ι ε err ι) w = (.ok i,w) := rfl

omit inputs in
@[simp] theorem once_pure (value : α) :
    once t i (pure value : Txn σ κ ι ε err α) w = (.ok value,w) := rfl

omit inputs in
@[simp] theorem once_throw (error : err) :
    once t i (throw error : Txn σ κ ι ε err α) w = (.error error,w) := rfl

omit inputs in
theorem once_commitOr {failure : err} {writes : ι → σ → Option (σ × List ε)} :
    once t i (commitOr failure writes : Txn σ κ ι ε err ι) w = match writes i w.db with
      | some (db,events) => (.ok i,(World.mk db w.log).record t events)
      | none => (.error failure,w) := by
  simp only [once,commitOr,alone]
  cases writes i w.db <;> rfl

end instant

section adequacy
variable [DecidableEq κ] {program : ρ → Txn σ κ ι ε err α}

/-- The statements of session `t` that take the inputs from `n` to `m`. -/
def statements (t : Nat) (inputs : Nat → ι) (n m : Nat) : List (Action ι err ρ) :=
  (List.range' n (m - n)).map fun k => .exec t (inputs k)

theorem statements_cons {n m : Nat} (more : n < m) :
    (statements t inputs n m : List (Action ι err ρ)) =
      .exec t (inputs n) :: statements t inputs (n + 1) m := by
  obtain ⟨k,rfl⟩ := Nat.exists_eq_add_of_lt more
  rw [statements,statements,show n + k + 1 - n = k + 1 by omega,
    show n + k + 1 - (n + 1) = k by omega]
  rfl

omit [DecidableEq κ] in
theorem le_next (p : Txn σ κ ι ε err α) (n : Nat) (w : World σ ε) :
    n ≤ (alone t inputs p n w).next := by
  induction p generalizing n w with
  | ret value => exact Nat.le_refl n
  | raise error => exact Nat.le_refl n
  | input next ih => exact Nat.le_of_succ_le (ih _ _ _)
  | read seen next ih => exact Nat.le_of_succ_le (ih _ _ _)
  | lock key cond next ih => exact Nat.le_of_succ_le (ih _ _ _)
  | tryLock key cond next ih => exact Nat.le_of_succ_le (ih _ _ _)
  | commit writes next ih =>
    simp only [alone]
    split
    · exact Nat.le_of_succ_le (ih _ _ _ _)
    · exact Nat.le_of_succ_le (ih _ _ _ _)
  | rollback next ih => exact Nat.le_of_succ_le (ih _ _)

/-- Nobody but session `t` holds a row. -/
def Sole (t : Nat) (store : Store σ κ ε) : Prop := ∀ key u, store.owner key = some u → u = t

omit [Lockable σ κ] [DecidableEq κ] in
theorem Sole.free {store : Store σ κ ε} (sole : Sole t store) (key : κ) : store.free t key := by
  unfold Store.free
  cases owned : store.owner key with
  | none => simp
  | some u => simp [sole key u owned]

omit [Lockable σ κ] in
theorem Sole.take {store : Store σ κ ε} (sole : Sole t store) (key : κ) :
    Sole t (store.take t key) := by
  intro other u owned
  simp only [Store.take] at owned
  split at owned
  next => exact (Option.some.inj owned).symm
  next => exact sole other u owned

omit [Lockable σ κ] [DecidableEq κ] in
theorem Sole.release {store : Store σ κ ε} (sole : Sole t store) : Sole t (store.release t) := by
  intro key u owned
  simp only [Store.release] at owned
  split at owned
  next => cases owned
  next => exact sole key u owned

omit [Lockable σ κ] [DecidableEq κ] in
theorem Sole.released {store : Store σ κ ε} (sole : Sole t store) (key : κ) :
    (store.release t).owner key = none := by
  cases owned : store.owner key with
  | none => simp [Store.release,owned]
  | some u => simp [Store.release,owned,sole key u owned]

/-- Where a session's statements in a row end: it has come to its end, holds no row, and
nobody else was touched. -/
structure EndsAlone (t : Nat) (r : ρ) (e : Ended σ ε err α) (s u : System σ κ ι ε err ρ α) : Prop where
  ended : u.session t = some ⟨r,.inr e.result⟩
  world : u.world = e.world
  free : ∀ key, u.store.owner key = none
  others : ∀ v, v ≠ t → u.session v = s.session v

/-- The first statement, and what the rest makes of where it led. -/
theorem run_first {r : ρ} {p q : Txn σ κ ι ε err α} {s : System σ κ ι ε err ρ α} {n : Nat}
    {e : Ended σ ε err α} (store : Store σ κ ε) (running : s.session t = some ⟨r,.inl p⟩)
    (ran : p.exec t (inputs n) s.store = some (store,.inl q)) (more : n + 1 ≤ e.next)
    (rest : ∃ u, (System.mk store (s.put t ⟨r,.inl q⟩)).run program
      (statements t inputs (n + 1) (e.next + 1)) = some u ∧
        EndsAlone t r e (System.mk store (s.put t ⟨r,.inl q⟩)) u) :
    ∃ u, s.run program (statements t inputs n (e.next + 1)) = some u ∧ EndsAlone t r e s u := by
  obtain ⟨u,ran',ends⟩ := rest
  have step : s.step program (.exec t (inputs n)) = some ⟨store,s.put t ⟨r,.inl q⟩⟩ := by
    simp [System.step,running,ran]
  refine ⟨u,?_,ends.ended,ends.world,ends.free,?_⟩
  · rw [statements_cons (by omega),System.run,step]
    exact ran'
  · exact fun v other => (ends.others v other).trans (Reach.put_other other)

/-- Where nobody else holds a row, the session's statements in a row end it as alone. -/
theorem run_alone {r : ρ} {p : Txn σ κ ι ε err α} {s : System σ κ ι ε err ρ α} {n : Nat}
    (running : s.session t = some ⟨r,.inl p⟩) (sole : Sole t s.store) :
    ∃ u, s.run program (statements t inputs n ((alone t inputs p n s.world).next + 1)) = some u ∧
      EndsAlone t r (alone t inputs p n s.world) s u := by
  have now : ∀ {s : System σ κ ι ε err ρ α} {session}, (s.put t session) t = some session :=
    Reach.put_self
  induction p generalizing n s with
  | ret value =>
    refine ⟨⟨s.store.release t,s.put t ⟨r,.inr (.ok value)⟩⟩,?_,now,rfl,sole.released,
      fun v other => Reach.put_other other⟩
    rw [statements_cons (by simp [alone])]
    simp [statements,System.run,System.step,running,Txn.exec,alone]
  | raise error =>
    refine ⟨⟨s.store.release t,s.put t ⟨r,.inr (.error error)⟩⟩,?_,now,rfl,sole.released,
      fun v other => Reach.put_other other⟩
    rw [statements_cons (by simp [alone])]
    simp [statements,System.run,System.step,running,Txn.exec,alone]
  | input next ih =>
    refine run_first s.store running (q := next (inputs n)) rfl (le_next _ _ _) ?_
    exact ih _ (s := ⟨s.store,s.put t ⟨r,.inl (next (inputs n))⟩⟩) now sole
  | read seen next ih =>
    let store : Store σ κ ε := {s.store with world := s.world.record t (seen s.world.db)}
    refine run_first store running (q := next s.world.db) rfl (le_next _ _ _) ?_
    exact ih _ (s := ⟨store,s.put t ⟨r,.inl (next s.world.db)⟩⟩) now sole
  | lock key cond next ih =>
    simp only [alone]
    cases found : (Lockable.view key s.world.db).filter cond with
    | none =>
      have seen : (Lockable.view key s.store.world.db).filter cond = none := found
      refine run_first s.store running (q := next none) ?_ (le_next _ _ _) ?_
      · simp [Txn.exec,sole.free key,seen]
      · exact ih none (s := ⟨s.store,s.put t ⟨r,.inl (next none)⟩⟩) now sole
    | some row =>
      have seen : (Lockable.view key s.store.world.db).filter cond = some row := found
      refine run_first (s.store.take t key) running (q := next (some row)) ?_ (le_next _ _ _) ?_
      · simp [Txn.exec,sole.free key,seen]
      · exact ih (some row) (s := ⟨s.store.take t key,s.put t ⟨r,.inl (next (some row))⟩⟩) now
          (sole.take key)
  | tryLock key cond next ih =>
    simp only [alone]
    cases found : (Lockable.view key s.world.db).filter cond with
    | none =>
      have seen : (Lockable.view key s.store.world.db).filter cond = none := found
      refine run_first s.store running (q := next none) ?_ (le_next _ _ _) ?_
      · simp [Txn.exec,sole.free key,seen]
      · exact ih none (s := ⟨s.store,s.put t ⟨r,.inl (next none)⟩⟩) now sole
    | some row =>
      have seen : (Lockable.view key s.store.world.db).filter cond = some row := found
      refine run_first (s.store.take t key) running (q := next (some row)) ?_ (le_next _ _ _) ?_
      · simp [Txn.exec,sole.free key,seen]
      · exact ih (some row) (s := ⟨s.store.take t key,s.put t ⟨r,.inl (next (some row))⟩⟩) now
          (sole.take key)
  | commit writes next ih =>
    simp only [alone]
    cases written : writes (inputs n) s.world.db with
    | none =>
      have seen : writes (inputs n) s.store.world.db = none := written
      refine run_first s.store running (q := next (inputs n) false) ?_ (le_next _ _ _) ?_
      · simp [Txn.exec,seen]
      · exact ih _ false (s := ⟨s.store,s.put t ⟨r,.inl (next (inputs n) false)⟩⟩) now sole
    | some result =>
      obtain ⟨db,events⟩ := result
      have seen : writes (inputs n) s.store.world.db = some (db,events) := written
      let written : Store σ κ ε := {s.store with
        world := (World.mk db s.store.world.log).record t events}
      have soleWritten : Sole t written := sole
      refine run_first (written.release t) running (q := next (inputs n) true) ?_ (le_next _ _ _) ?_
      · simp [Txn.exec,seen,written]
      · exact ih _ true (s := ⟨written.release t,s.put t ⟨r,.inl (next (inputs n) true)⟩⟩) now
          soleWritten.release
  | rollback next ih =>
    refine run_first (s.store.release t) running (q := next) rfl (le_next _ _ _) ?_
    exact ih (s := ⟨s.store.release t,s.put t ⟨r,.inl next⟩⟩) now sole.release

end adequacy

section rule
variable {P : Protocol σ κ ε ρ} {r : ρ} {Q : Except err α → Held σ κ → World σ ε → Prop}
  {H : Held σ κ}

/-- Any number of steps of one session. -/
def Own (P : Protocol σ κ ε ρ) (r : ρ) (t : Nat) : World σ ε → World σ ε → Prop :=
  Relation.ReflTransGen fun w w' => ∃ held, P.inv w ∧ P.step r t held w w'

/-- A program that meets its precondition ends alone in its postcondition, and every
change on the way is a step of its session. -/
theorem wp_alone {p : Txn σ κ ι ε err α} (inv : P.inv w) (holds : Holds H w.db)
    (pre : wp P (Discipline.none (ι := ι)) r t p Q H w) :
    (∃ K, Q (alone t inputs p n w).result K (alone t inputs p n w).world) ∧
      P.inv (alone t inputs p n w).world ∧ Own P r t w (alone t inputs p n w).world := by
  have here : ∀ {H w}, P.inv w → Holds H w.db → Later P (Discipline.none (ι := ι)) t H w w :=
    fun inv holds => Later.refl inv holds
  induction p generalizing H n w with
  | ret value => exact ⟨⟨H,pre⟩,inv,.refl⟩
  | raise error => exact ⟨⟨H,pre⟩,inv,.refl⟩
  | input next ih => exact ih _ inv holds (pre _ w (here inv holds) trivial)
  | read seen next ih =>
    obtain ⟨step,rest⟩ := pre w (here inv holds) (.inr trivial)
    rcases step with nothing | step
    · rw [nothing,World.record_nil] at rest
      simp only [alone,nothing,World.record_nil]
      exact ih _ inv holds rest
    · obtain ⟨post,kept,passage⟩ := ih w.db (n := n + 1) (P.keep step inv) holds rest
      exact ⟨post,kept,.head ⟨_,inv,step⟩ passage⟩
  | lock key cond next ih =>
    have rest := pre w (here inv holds)
    simp only [alone]
    split at rest
    next row found =>
      rw [found]
      have seen := (Option.filter_eq_some_iff.mp found).1
      exact ih _ inv ((holds_cons _ _ _).mpr ⟨seen,holds⟩) rest
    next absent =>
      rw [absent]
      exact ih _ inv holds rest
  | tryLock key cond next ih =>
    obtain ⟨skipped,rest⟩ := pre w (here inv holds)
    simp only [alone]
    split at rest
    next row found =>
      rw [found]
      have seen := (Option.filter_eq_some_iff.mp found).1
      exact ih _ inv ((holds_cons _ _ _).mpr ⟨seen,holds⟩) rest
    next absent =>
      rw [absent]
      exact ih _ inv holds skipped
  | commit writes next ih =>
    have rest := pre (inputs n) w (here inv holds) trivial
    simp only [alone]
    split at rest
    next failed =>
      rw [failed]
      exact ih _ _ inv holds rest
    next db events written =>
      obtain ⟨step,rest⟩ := rest (.inr trivial)
      rw [written]
      obtain ⟨post,kept,passage⟩ := ih _ _ (n := n + 1) (P.keep step inv) (holds_nil _) rest
      exact ⟨post,kept,.head ⟨_,inv,step⟩ passage⟩
  | rollback next ih => exact ih inv (holds_nil _) pre

end rule
end rules
end Txn
end Relational
