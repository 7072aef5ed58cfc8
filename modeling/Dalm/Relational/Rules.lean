import Dalm.Relational.System
import Mathlib.Logic.Relation
import Mathlib.Data.List.Lattice

/-! Pre- and postconditions of transaction programs among other sessions. A protocol
says which atomic changes a request may make while it holds which rows; between two
statements of a program the others may do any of theirs on rows it does not hold. The
rows a program holds are carried with the values it saw, so they are known at commit. -/
namespace Relational
variable {σ κ ι ε err ρ α β : Type} [Lockable σ κ]

abbrev Held (σ κ : Type) [Lockable σ κ] := List ((key : κ) × Lockable.Row σ key)

namespace Held

def keys (H : Held σ κ) : List κ := H.map Sigma.fst

def Holds (H : Held σ κ) (db : σ) : Prop := ∀ e ∈ H, Lockable.view e.1 db = some e.2

@[simp] theorem keys_nil : keys ([] : Held σ κ) = [] := rfl

@[simp] theorem keys_cons (e : (key : κ) × Lockable.Row σ key) (H : Held σ κ) :
    keys (e :: H) = e.1 :: keys H := rfl

@[simp] theorem keys_append (H K : Held σ κ) : keys (H ++ K) = keys H ++ keys K := by
  simp [keys]

@[simp] theorem holds_nil (db : σ) : Holds ([] : Held σ κ) db := by
  intro e member
  simp at member

@[simp] theorem holds_cons (e : (key : κ) × Lockable.Row σ key) (H : Held σ κ) (db : σ) :
    Holds (e :: H) db ↔ Lockable.view e.1 db = some e.2 ∧ Holds H db := by
  simp [Holds]

theorem holds_append (H K : Held σ κ) (db : σ) :
    Holds (H ++ K) db ↔ Holds H db ∧ Holds K db := by
  simp [Holds,or_imp,forall_and]

end Held
open Held

structure Protocol (σ κ ε ρ : Type) [Lockable σ κ] where
  step : ρ → Nat → List κ → World σ ε → World σ ε → Prop
  inv : World σ ε → Prop
  records : ∀ {r t held w w'}, step r t held w w' →
    ∃ db events, w' = (World.mk db w.log).record t events
  keep : ∀ {r t held w w'}, step r t held w w' → inv w → inv w'
  frame : ∀ {r t held w w'}, step r t held w w' → inv w → ∀ key, key ∉ held →
    Lockable.view key w.db ≠ none → Lockable.view key w'.db = Lockable.view key w.db

section logic
variable (P : Protocol σ κ ε ρ) (D : Discipline σ ι ε)

/-- One atomic change by somebody else, on rows session `t` does not hold. -/
def Foreign (t : Nat) (held : List κ) (w w' : World σ ε) : Prop :=
  ∃ u r other, u ≠ t ∧ other.Disjoint held ∧ P.inv w ∧ P.step r u other w w' ∧ D.allows w w'

/-- From `w` to `w'` only others acted, so the rows held still have the values seen. -/
structure Later (t : Nat) (H : Held σ κ) (w w' : World σ ε) : Prop where
  rely : Relation.ReflTransGen (Foreign P D t (keys H)) w w'
  inv : P.inv w'
  holds : Holds H w'.db

/-- The weakest precondition of a program run as session `t` for request `r`. -/
def wp (r : ρ) (t : Nat) : Txn σ κ ι ε err α →
    (Except err α → Held σ κ → World σ ε → Prop) → Held σ κ → World σ ε → Prop
  | .ret value,Q,H,w => Q (.ok value) H w
  | .raise error,Q,H,w => Q (.error error) H w
  | .input next,Q,H,w => ∀ i w', Later P D t H w w' → D.input w' i → wp r t (next i) Q H w'
  | .read seen next,Q,H,w => ∀ w', Later P D t H w w' →
      D.allows w' (w'.record t (seen w'.db)) →
      (seen w'.db = [] ∨ P.step r t (keys H) w' (w'.record t (seen w'.db))) ∧
        wp r t (next w'.db) Q H (w'.record t (seen w'.db))
  | .lock key cond next,Q,H,w => ∀ w', Later P D t H w w' →
      match (Lockable.view key w'.db).filter cond with
      | some row => wp r t (next (some row)) Q (⟨key,row⟩ :: H) w'
      | none => wp r t (next none) Q H w'
  | .tryLock key cond next,Q,H,w => ∀ w', Later P D t H w w' →
      wp r t (next none) Q H w' ∧
      match (Lockable.view key w'.db).filter cond with
      | some row => wp r t (next (some row)) Q (⟨key,row⟩ :: H) w'
      | none => True
  | .commit writes next,Q,H,w => ∀ i w', Later P D t H w w' → D.input w' i →
      match writes i w'.db with
      | none => wp r t (next i false) Q H w'
      | some (db,events) => D.allows w' ((World.mk db w'.log).record t events) →
          P.step r t (keys H) w' ((World.mk db w'.log).record t events) ∧
            wp r t (next i true) Q [] ((World.mk db w'.log).record t events)
  | .rollback next,Q,_,w => wp r t next Q [] w

/-- A postcondition that what others do cannot falsify. -/
def Stable (t : Nat) (Q : Except err α → Held σ κ → World σ ε → Prop) : Prop :=
  ∀ x H w w', Q x H w → Later P D t H w w' → Q x H w'

end logic

section facts
variable {P : Protocol σ κ ε ρ} {D : Discipline σ ι ε} {t : Nat} {H : Held σ κ}
  {w w' w'' : World σ ε}

theorem Later.refl (inv : P.inv w) (holds : Holds H w.db) : Later P D t H w w :=
  ⟨.refl,inv,holds⟩

theorem Later.trans (first : Later P D t H w w') (second : Later P D t H w' w'') :
    Later P D t H w w'' := ⟨first.rely.trans second.rely,second.inv,second.holds⟩

theorem Later.sublist {K : Held σ κ} (later : Later P D t K w w') (fewer : H.Sublist K) :
    Later P D t H w w' := by
  have weaker : ∀ a b, Foreign P D t (keys K) a b → Foreign P D t (keys H) a b := by
    rintro a b ⟨u,r,other,distinct,apart,rest⟩
    refine ⟨u,r,other,distinct,?_,rest⟩
    exact fun key member held => apart member ((fewer.map Sigma.fst).subset held)
  exact ⟨Relation.ReflTransGen.mono weaker _ _ later.rely,later.inv,
    fun e member => later.holds e (fewer.subset member)⟩

theorem Later.tail {e : (key : κ) × Lockable.Row σ key} (later : Later P D t (e :: H) w w') :
    Later P D t H w w' := later.sublist (List.sublist_cons_self e H)

theorem Later.drop (later : Later P D t H w w') : Later P D t [] w w' :=
  later.sublist (List.nil_sublist H)

theorem Later.preserves {F : World σ ε → Prop} (later : Later P D t H w w') (start : F w)
    (each : ∀ a b, Foreign P D t (keys H) a b → F a → F b) : F w' := by
  have rely := later.rely
  clear later
  induction rely with
  | refl => exact start
  | tail _ link ih => exact each _ _ link ih

theorem foreign_holds {a b : World σ ε} (link : Foreign P D t (keys H) a b)
    (holds : Holds H a.db) : Holds H b.db := by
  obtain ⟨u,r,other,_,apart,inv,step,_⟩ := link
  intro e member
  have seen := holds e member
  have outside : e.1 ∉ other := fun inside => apart inside (List.mem_map_of_mem member)
  rw [P.frame step inv e.1 outside (by simp [seen]),seen]

theorem foreign_inv {held : List κ} {a b : World σ ε} (link : Foreign P D t held a b) :
    P.inv b := by
  obtain ⟨_,_,_,_,_,inv,step,_⟩ := link
  exact P.keep step inv

theorem Later.foreign (holds : Holds H w.db) (link : Foreign P D t (keys H) w w') :
    Later P D t H w w' := ⟨.single link,foreign_inv link,foreign_holds link holds⟩

theorem wp_later {r : ρ} {p : Txn σ κ ι ε err α} {Q : Except err α → Held σ κ → World σ ε → Prop}
    (stable : Stable P D t Q) (pre : wp P D r t p Q H w) (later : Later P D t H w w') :
    wp P D r t p Q H w' := by
  induction p generalizing H with
  | ret value => exact stable _ _ _ _ pre later
  | raise error => exact stable _ _ _ _ pre later
  | input next => exact fun i w₂ rest => pre i w₂ (later.trans rest)
  | read seen next => exact fun w₂ rest => pre w₂ (later.trans rest)
  | lock key cond next => exact fun w₂ rest => pre w₂ (later.trans rest)
  | tryLock key cond next => exact fun w₂ rest => pre w₂ (later.trans rest)
  | commit writes next => exact fun i w₂ rest => pre i w₂ (later.trans rest)
  | rollback next ih => exact ih pre later.drop

theorem wp_mono {r : ρ} {p : Txn σ κ ι ε err α}
    {Q R : Except err α → Held σ κ → World σ ε → Prop}
    (pre : wp P D r t p Q H w) (weaker : ∀ x H w, Q x H w → R x H w) :
    wp P D r t p R H w := by
  induction p generalizing H w with
  | ret value => exact weaker _ _ _ pre
  | raise error => exact weaker _ _ _ pre
  | input next ih => exact fun i w' later admitted => ih i (pre i w' later admitted)
  | read seen next ih =>
    intro w' later allowed
    obtain ⟨step,rest⟩ := pre w' later allowed
    exact ⟨step,ih _ rest⟩
  | lock key cond next ih =>
    intro w' later
    have rest := pre w' later
    split at rest
    next row found => exact ih _ rest
    next absent => exact ih _ rest
  | tryLock key cond next ih =>
    intro w' later
    obtain ⟨skipped,rest⟩ := pre w' later
    refine ⟨ih _ skipped,?_⟩
    split at rest
    next row found => exact ih _ rest
    next absent => trivial
  | commit writes next ih =>
    intro i w' later admitted
    have rest := pre i w' later admitted
    split at rest
    next failed => exact ih _ _ rest
    next db events written =>
      intro allowed
      obtain ⟨step,rest⟩ := rest allowed
      exact ⟨step,ih _ _ rest⟩
  | rollback next ih => exact ih pre

theorem Later.narrow {D' : Discipline σ ι ε} (changes : ∀ w w', D'.change w w' → D.change w w')
    (later : Later P D' t H w w') : Later P D t H w w' := by
  refine ⟨Relation.ReflTransGen.mono ?_ _ _ later.rely,later.inv,later.holds⟩
  rintro a b ⟨u,r,other,distinct,apart,inv,step,allowed⟩
  exact ⟨u,r,other,distinct,apart,inv,step,allowed.imp id (changes a b)⟩

/-- Fewer inputs and fewer changes by the others leave less to prove. -/
theorem wp_narrow {D' : Discipline σ ι ε} {r : ρ} {p : Txn σ κ ι ε err α}
    {Q : Except err α → Held σ κ → World σ ε → Prop}
    (inputs : ∀ w i, D'.input w i → D.input w i)
    (changes : ∀ w w', D'.change w w' → D.change w w') (pre : wp P D r t p Q H w) :
    wp P D' r t p Q H w := by
  induction p generalizing H w with
  | ret value => exact pre
  | raise error => exact pre
  | input next ih =>
    exact fun i w' later input => ih i (pre i w' (later.narrow changes) (inputs w' i input))
  | read seen next ih =>
    intro w' later allowed
    obtain ⟨step,rest⟩ := pre w' (later.narrow changes) (allowed.imp id (changes _ _))
    exact ⟨step,ih _ rest⟩
  | lock key cond next ih =>
    intro w' later
    have rest := pre w' (later.narrow changes)
    split at rest
    next row found => exact ih _ rest
    next absent => exact ih _ rest
  | tryLock key cond next ih =>
    intro w' later
    obtain ⟨skipped,rest⟩ := pre w' (later.narrow changes)
    refine ⟨ih _ skipped,?_⟩
    split at rest
    next row found => exact ih _ rest
    next absent => trivial
  | commit writes next ih =>
    intro i w' later input
    have rest := pre i w' (later.narrow changes) (inputs w' i input)
    split at rest
    next failed => exact ih _ _ rest
    next db events written =>
      intro allowed
      obtain ⟨step,rest⟩ := rest (allowed.imp id (changes _ _))
      exact ⟨step,ih _ _ rest⟩
  | rollback next ih => exact ih pre

theorem wp_bind {r : ρ} {p : Txn σ κ ι ε err α} {f : α → Txn σ κ ι ε err β}
    {Q : Except err β → Held σ κ → World σ ε → Prop}
    (pre : wp P D r t p (fun x H w => match x with
      | .ok value => wp P D r t (f value) Q H w
      | .error error => Q (.error error) H w) H w) :
    wp P D r t (p >>= f) Q H w := by
  change wp P D r t (p.bind f) Q H w
  induction p generalizing H w with
  | ret value => exact pre
  | raise error => exact pre
  | input next ih => exact fun i w' later admitted => ih i (pre i w' later admitted)
  | read seen next ih =>
    intro w' later allowed
    obtain ⟨step,rest⟩ := pre w' later allowed
    exact ⟨step,ih _ rest⟩
  | lock key cond next ih =>
    intro w' later
    have rest := pre w' later
    split at rest
    next row found => exact ih _ rest
    next absent => exact ih _ rest
  | tryLock key cond next ih =>
    intro w' later
    obtain ⟨skipped,rest⟩ := pre w' later
    refine ⟨ih _ skipped,?_⟩
    split at rest
    next row found => exact ih _ rest
    next absent => trivial
  | commit writes next ih =>
    intro i w' later admitted
    have rest := pre i w' later admitted
    split at rest
    next failed => exact ih _ _ rest
    next db events written =>
      intro allowed
      obtain ⟨step,rest⟩ := rest allowed
      exact ⟨step,ih _ _ rest⟩
  | rollback next ih => exact ih pre

theorem wp_rescue {r : ρ} {p : Txn σ κ ι ε err α} {handler : err → Txn σ κ ι ε err α}
    {Q : Except err α → Held σ κ → World σ ε → Prop}
    (pre : wp P D r t p (fun x H w => match x with
      | .ok value => Q (.ok value) H w
      | .error error => wp P D r t (handler error) Q H w) H w) :
    wp P D r t (p.rescue handler) Q H w := by
  induction p generalizing H w with
  | ret value => exact pre
  | raise error => exact pre
  | input next ih => exact fun i w' later admitted => ih i (pre i w' later admitted)
  | read seen next ih =>
    intro w' later allowed
    obtain ⟨step,rest⟩ := pre w' later allowed
    exact ⟨step,ih _ rest⟩
  | lock key cond next ih =>
    intro w' later
    have rest := pre w' later
    split at rest
    next row found => exact ih _ rest
    next absent => exact ih _ rest
  | tryLock key cond next ih =>
    intro w' later
    obtain ⟨skipped,rest⟩ := pre w' later
    refine ⟨ih _ skipped,?_⟩
    split at rest
    next row found => exact ih _ rest
    next absent => trivial
  | commit writes next ih =>
    intro i w' later admitted
    have rest := pre i w' later admitted
    split at rest
    next failed => exact ih _ _ rest
    next db events written =>
      intro allowed
      obtain ⟨step,rest⟩ := rest allowed
      exact ⟨step,ih _ _ rest⟩
  | rollback next ih => exact ih pre

end facts
end Relational
