import Mathlib.Data.List.Nodup
import Mathlib.Data.List.Perm.Basic

/-! Tables of rows under a primary key. The rows keep their insertion order, and
the distinctness of the keys is a field, so a table with two rows of one key
cannot be built and every lookup is a function of the key. -/
namespace Relational

structure Table {ρ κ : Type} (key : ρ → κ) where
  rows : List ρ
  distinct : (rows.map key).Nodup

namespace Table
variable {ρ κ : Type} {key : ρ → κ}

@[ext] theorem ext {t u : Table key} (same : t.rows = u.rows) : t = u := by
  cases t
  cases u
  congr

def empty : Table key := ⟨[],List.nodup_nil⟩

/-- UPDATE of every row whose key is chosen; the assignment never touches the key. -/
def modify (t : Table key) (chosen : κ → Bool) (assign : ρ → ρ)
    (keeps : ∀ row, key (assign row) = key row) : Table key :=
  ⟨t.rows.map (fun row => if chosen (key row) then assign row else row),by
    have same : (t.rows.map (fun row => if chosen (key row) then assign row else row)).map key =
        t.rows.map key := by
      rw [List.map_map]
      apply List.map_congr_left
      intro row _
      by_cases c : chosen (key row) <;> simp [c,keeps]
    rw [same]
    exact t.distinct⟩

/-- DELETE of every row whose key is chosen. -/
def erase (t : Table key) (chosen : κ → Bool) : Table key :=
  ⟨t.rows.filter (fun row => !chosen (key row)),
    t.distinct.sublist (List.Sublist.map key List.filter_sublist)⟩

/-- The rows that pass. -/
def restrict (t : Table key) (passes : ρ → Bool) : Table key :=
  ⟨t.rows.filter passes,t.distinct.sublist (List.Sublist.map key List.filter_sublist)⟩

@[simp] theorem rows_restrict (t : Table key) (passes : ρ → Bool) :
    (t.restrict passes).rows = t.rows.filter passes := rfl

@[simp] theorem rows_empty : (empty : Table key).rows = [] := rfl

@[simp] theorem rows_modify (t : Table key) (chosen : κ → Bool) (assign : ρ → ρ)
    (keeps : ∀ row, key (assign row) = key row) :
    (t.modify chosen assign keeps).rows =
      t.rows.map (fun row => if chosen (key row) then assign row else row) := rfl

variable [DecidableEq κ]

def get? (t : Table key) (k : κ) : Option ρ := t.rows.find? (fun row => key row = k)

/-- INSERT of a row whose key is free. -/
def insert (t : Table key) (row : ρ) (fresh : t.get? (key row) = none) : Table key :=
  ⟨t.rows ++ [row],by
    have absent : key row ∉ t.rows.map key := by
      intro member
      obtain ⟨other,present,same⟩ := List.mem_map.mp member
      exact absurd same (by simpa using List.find?_eq_none.mp fresh other present)
    rw [List.map_append]
    exact t.distinct.append (List.nodup_singleton _) (by simpa using absent)⟩

/-- INSERT with the primary key check: `none` is the integrity error. -/
def insert? (t : Table key) (row : ρ) : Option (Table key) :=
  if fresh : t.get? (key row) = none then some (t.insert row fresh) else none

theorem mem_rows_of_get? {t : Table key} {k : κ} {row : ρ} (found : t.get? k = some row) :
    row ∈ t.rows ∧ key row = k :=
  ⟨List.mem_of_find?_eq_some found,by simpa using List.find?_some found⟩

theorem get?_of_mem {t : Table key} {row : ρ} (member : row ∈ t.rows) :
    t.get? (key row) = some row := by
  cases found : t.get? (key row) with
  | none => simpa using List.find?_eq_none.mp found row member
  | some other =>
    obtain ⟨present,same⟩ := mem_rows_of_get? found
    rw [List.inj_on_of_nodup_map t.distinct present member same]

theorem mem_rows {t : Table key} {row : ρ} : row ∈ t.rows ↔ t.get? (key row) = some row :=
  ⟨get?_of_mem,fun found => (mem_rows_of_get? found).1⟩

theorem key_of_get? {t : Table key} {k : κ} {row : ρ} (found : t.get? k = some row) :
    key row = k := (mem_rows_of_get? found).2

@[simp] theorem get?_empty (k : κ) : (empty : Table key).get? k = none := rfl

@[simp] theorem rows_insert (t : Table key) (row : ρ) (fresh : t.get? (key row) = none) :
    (t.insert row fresh).rows = t.rows ++ [row] := rfl

theorem get?_insert (t : Table key) (row : ρ) (fresh : t.get? (key row) = none) (k : κ) :
    (t.insert row fresh).get? k = if key row = k then some row else t.get? k := by
  change (t.rows ++ [row]).find? _ = _
  rw [List.find?_append]
  by_cases same : key row = k
  · subst same
    have absent : t.rows.find? (fun other => decide (key other = key row)) = none := fresh
    simp [absent]
  · simp [same,get?]

theorem get?_insert_of_some {t : Table key} {row other : ρ} (fresh : t.get? (key row) = none) {k : κ}
    (found : t.get? k = some other) : (t.insert row fresh).get? k = some other := by
  have different : key row ≠ k := by
    intro same
    rw [← same,fresh] at found
    cases found
  rw [get?_insert,if_neg different,found]

@[simp] theorem get?_insert_self {t : Table key} {row : ρ} (fresh : t.get? (key row) = none) :
    (t.insert row fresh).get? (key row) = some row := by
  rw [get?_insert,if_pos rfl]

theorem get?_insert_cases {t : Table key} {row other : ρ} (fresh : t.get? (key row) = none) {k : κ}
    (found : (t.insert row fresh).get? k = some other) :
    (key row = k ∧ other = row) ∨ t.get? k = some other := by
  rw [get?_insert] at found
  split at found
  next same => exact .inl ⟨same,(Option.some.inj found).symm⟩
  next => exact .inr found

theorem insert?_eq_some {t u : Table key} {row : ρ} :
    t.insert? row = some u ↔ ∃ fresh : t.get? (key row) = none, u = t.insert row fresh := by
  unfold insert?
  split
  next fresh => exact ⟨fun same => ⟨fresh,(Option.some.inj same).symm⟩,fun ⟨_,same⟩ => same ▸ rfl⟩
  next taken => exact ⟨fun absurd => by simp at absurd,fun ⟨fresh,_⟩ => absurd fresh taken⟩

/-- An INSERT that checks a condition first, and what the statement makes of the table. -/
theorem insertWhen_eq_some {β : Type} {c : Prop} [Decidable c] {t : Table key} {row : ρ}
    {f : Table key → β} {b : β} : (if c then (t.insert? row).map f else none) = some b ↔
      c ∧ ∃ fresh : t.get? (key row) = none, b = f (t.insert row fresh) := by
  split
  next holds =>
    simp only [Option.map_eq_some_iff,insert?_eq_some,holds,true_and]
    constructor
    · rintro ⟨u,⟨fresh,rfl⟩,rfl⟩
      exact ⟨fresh,rfl⟩
    · rintro ⟨fresh,rfl⟩
      exact ⟨_,⟨fresh,rfl⟩,rfl⟩
  next fails => simp [fails]

theorem get?_modify (t : Table key) (chosen : κ → Bool) (assign : ρ → ρ)
    (keeps : ∀ row, key (assign row) = key row) (k : κ) :
    (t.modify chosen assign keeps).get? k =
      if chosen k then (t.get? k).map assign else t.get? k := by
  unfold get?
  rw [rows_modify,List.find?_map]
  have test : ((fun row => decide (key row = k)) ∘
      fun row => if chosen (key row) then assign row else row) = fun row => decide (key row = k) := by
    funext row
    by_cases c : chosen (key row) <;> simp [c,keeps]
  rw [test]
  cases found : t.rows.find? (fun row => decide (key row = k)) with
  | none => simp
  | some row =>
    have same : key row = k := by simpa using List.find?_some found
    by_cases c : chosen k <;> simp [c,same]

theorem get?_modify_eq_some {t : Table key} {chosen : κ → Bool} {assign : ρ → ρ}
    {keeps : ∀ row, key (assign row) = key row} {k : κ} {row' : ρ} :
    (t.modify chosen assign keeps).get? k = some row' ↔
      ∃ row, t.get? k = some row ∧ row' = if chosen k then assign row else row := by
  rw [get?_modify]
  split
  · rw [Option.map_eq_some_iff]
    simp only [eq_comm]
  · simp

theorem isSome_get?_modify {t : Table key} {chosen : κ → Bool} {assign : ρ → ρ}
    {keeps : ∀ row, key (assign row) = key row} (k : κ) :
    ((t.modify chosen assign keeps).get? k).isSome = (t.get? k).isSome := by
  rw [get?_modify]
  split <;> simp

/-- Updating the row just inserted is inserting it updated. -/
theorem modify_insert {t : Table key} {row : ρ} (fresh : t.get? (key row) = none) {assign : ρ → ρ}
    {keeps : ∀ row, key (assign row) = key row} :
    (t.insert row fresh).modify (fun k => k = key row) assign keeps =
      t.insert (assign row) ((congrArg t.get? (keeps row)).trans fresh) := by
  have others : t.rows.map (fun other => if decide (key other = key row) then assign other else other) =
      t.rows := by
    refine (List.map_congr_left fun other member => ?_).trans (List.map_id t.rows)
    have different : key other ≠ key row := by simpa using List.find?_eq_none.mp fresh other member
    simp [different]
  apply ext
  rw [rows_modify,rows_insert,rows_insert,List.map_append,others]
  simp

theorem get?_erase (t : Table key) (chosen : κ → Bool) (k : κ) :
    (t.erase chosen).get? k = if chosen k then none else t.get? k := by
  unfold get? erase
  rw [List.find?_filter]
  by_cases c : chosen k
  · rw [if_pos c,List.find?_eq_none]
    intro row _ test
    simp only [decide_eq_true_eq] at test
    simp [test.2,c] at test
  · rw [if_neg c]
    congr 1
    funext row
    by_cases same : key row = k <;> simp [same,c]

end Table
end Relational
