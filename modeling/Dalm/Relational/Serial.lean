import Dalm.Relational.Alone

/-! Sessions one at a time: each starts when the one before it has ended. Where they lead,
an interleaving leads as well. -/
namespace Relational
open Txn
variable {σ κ ι ε err ρ α : Type} [Lockable σ κ] [DecidableEq κ]
  {program : ρ → Txn σ κ ι ε err α} {db : σ} {n : Nat} {w : World σ ε}

/-- The worlds that the sessions 0 to `n - 1` lead to in this order. -/
inductive Serial (program : ρ → Txn σ κ ι ε err α) (db : σ) : Nat → World σ ε → Prop where
  | initial : Serial program db 0 ⟨db,[]⟩
  | next {n : Nat} {w : World σ ε} (before : Serial program db n w) (r : ρ) (inputs : Nat → ι) :
    Serial program db (n + 1) (alone n inputs (program r) 0 w).world

theorem Serial.reach (serial : Serial program db n w) :
    ∃ s : System σ κ ι ε err ρ α, Reach program Discipline.none (System.initial db) s ∧
      s.world = w ∧ (∀ key, s.store.owner key = none) ∧ ∀ t, n ≤ t → s.session t = none := by
  induction serial with
  | initial => exact ⟨_,.refl,rfl,fun _ => rfl,fun _ _ => rfl⟩
  | @next n w before r inputs ih =>
    obtain ⟨s,reach,rfl,free,waiting⟩ := ih
    have absent := waiting n (Nat.le_refl n)
    let started : System σ κ ι ε err ρ α := {s with session := s.put n ⟨r,.inl (program r)⟩}
    have taken : s.step program (.start n r) = some started := by simp [System.step,absent,started]
    have sole : Sole n started.store := by
      intro key u owned
      rw [show started.store.owner key = none from free key] at owned
      cases owned
    obtain ⟨u,ran,ends⟩ : ∃ u, started.run program
        (statements n inputs 0 ((alone n inputs (program r) 0 s.world).next + 1)) = some u ∧
          EndsAlone n r (alone n inputs (program r) 0 s.world) started u :=
      run_alone Reach.put_self sole
    refine ⟨u,?_,ends.world,ends.free,?_⟩
    · have first : Reach program Discipline.none (System.initial db) started :=
        .step _ reach taken (Reach.admits_none _)
      exact first.trans (Reach.of_run ran)
    · intro t later
      have other : t ≠ n := by omega
      rw [ends.others t other,show started.session t = s.session t from Reach.put_other other]
      exact waiting t (by omega)

/-- A session that has not had its turn has told nothing. -/
theorem Serial.silent (serial : Serial program db n w) : ∀ entry ∈ w.log, entry.1 ≠ n := by
  obtain ⟨s,reach,rfl,_,waiting⟩ := serial.reach
  exact reach.unheard rfl (waiting n (Nat.le_refl n))

end Relational
