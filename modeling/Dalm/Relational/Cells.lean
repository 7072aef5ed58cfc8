import Dalm.Relational.Statements

/-! A part of the database that sessions read and later write over, each writing only what differs from
what it read. What one wrote remains, unless others asked for something else since it read. -/
namespace Relational
variable {σ κ ι ε ρ V : Type}

/-- A part of the database, and what an event asks it to hold. -/
structure Cell (σ ε V : Type) where
  view : σ → Option V
  asked : ε → Option V

namespace Cell
variable (c : Cell σ ε V)

/-- A change leaves what the cell holds, or makes it what one of its events asks for. -/
def Obeys (events : List ε) (before after : σ) : Prop :=
  ∀ old, c.view before = some old → c.view after = some old ∨
    ∃ event ∈ events, ∃ value, c.asked event = some value ∧ c.view after = some value

/-- The cell holds the value, or what some other session asked for among the entries. -/
def Remains (t : Nat) (entries : List (Nat × ε)) (value : V) (db : σ) : Prop :=
  c.view db = some value ∨ ∃ u event other, u ≠ t ∧ (u,event) ∈ entries ∧ c.asked event = some other ∧
    c.view db = some other

variable {c} {t : Nat} {entries : List (Nat × ε)} {value old : V} {db db' : σ}

theorem Obeys.of_eq {events : List ε} (same : c.view db' = c.view db) : c.Obeys events db db' :=
  fun _ held => .inl (same.trans held)

theorem Remains.holds (remains : c.Remains t entries value db) : ∃ held, c.view db = some held := by
  rcases remains with held | ⟨_,_,other,_,_,_,held⟩
  · exact ⟨value,held⟩
  · exact ⟨other,held⟩

theorem Remains.append (remains : c.Remains t entries value db) (more : List (Nat × ε)) :
    c.Remains t (entries ++ more) value db := by
  refine remains.imp id ?_
  rintro ⟨u,event,other,others,member,asked,held⟩
  exact ⟨u,event,other,others,List.mem_append_left more member,asked,held⟩

theorem Remains.of_eq (remains : c.Remains t entries value db) (same : c.view db' = c.view db) :
    c.Remains t entries value db' := by
  unfold Remains
  rw [same]
  exact remains

/-- Somebody else's change. -/
theorem Remains.obeyed (remains : c.Remains t entries value db) {u : Nat} (others : u ≠ t) {events : List ε}
    (obeys : c.Obeys events db db') :
    c.Remains t (entries ++ events.map fun event => (u,event)) value db' := by
  obtain ⟨held,before⟩ := remains.holds
  rcases obeys held before with same | ⟨event,member,other,asked,now⟩
  · exact (remains.append _).of_eq (same.trans before.symm)
  · exact .inr ⟨u,event,other,others,List.mem_append_right _ (List.mem_map_of_mem member),asked,now⟩

variable [DecidableEq V]

/-- A session's own write of the value over the one it read. -/
theorem Remains.flushed {new : V} (remains : c.Remains t entries old db)
    (wrote : c.view db' = (c.view db).map fun current => if new = old then current else new) :
    c.Remains t entries new db' := by
  by_cases same : new = old
  · subst same
    exact remains.of_eq (by simpa using wrote)
  · obtain ⟨held,before⟩ := remains.holds
    refine .inl ?_
    rw [wrote,before,Option.map_some,if_neg same]

end Cell

section logic
variable [Lockable σ κ] {P : Protocol σ κ ε ρ} {D : Discipline σ ι ε} {t : Nat} {H : Held σ κ} {w w' : World σ ε}
  {c : Cell σ ε V} {entries since : List (Nat × ε)} {value : V}

/-- Every change of the protocol obeys the cell. -/
def Cell.ObeyedBy (c : Cell σ ε V) (P : Protocol σ κ ε ρ) : Prop :=
  ∀ {r t held w db events}, P.inv w → P.step r t held w ((World.mk db w.log).record t events) →
    c.Obeys events w.db db

theorem Later.remains (obeyed : c.ObeyedBy P) (later : Later P D t H w w')
    (remains : c.Remains t entries value w.db) (same : w'.log = w.log ++ since) :
    c.Remains t (entries ++ since) value w'.db := by
  obtain ⟨more,grown,reached⟩ : ∃ more, w'.log = w.log ++ more ∧
      c.Remains t (entries ++ more) value w'.db := by
    refine later.preserves (F := fun w' => ∃ more, w'.log = w.log ++ more ∧
      c.Remains t (entries ++ more) value w'.db) ⟨[],by simp,by simpa using remains⟩ ?_
    rintro a b ⟨u,r,held,others,_,inv,step,_⟩ ⟨more,grown,before⟩
    obtain ⟨db,events,rfl⟩ := P.records step
    refine ⟨more ++ events.map fun event => (u,event),by simp [grown],?_⟩
    rw [← List.append_assoc]
    exact before.obeyed others (obeyed inv step)
  rw [same] at grown
  exact List.append_cancel_left grown ▸ reached

end logic
end Relational
