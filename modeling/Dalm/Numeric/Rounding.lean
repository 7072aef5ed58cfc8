import Mathlib.Algebra.Order.Floor.Ring
import Mathlib.Algebra.Order.BigOperators.Group.List
import Mathlib.Tactic.Linarith

/-! Rounding to the nearest integer, a half to the even neighbour, and sums of weighted values. -/
namespace Numeric
variable {K : Type} [Field K] [LinearOrder K] [IsStrictOrderedRing K]

section rounding
variable [FloorRing K] {value other : K}

def halfEven (value : K) : Int :=
  let below : Int := ⌊value⌋
  let rest : K := value - below
  if rest < 1 - rest then below else if 1 - rest < rest then below + 1
    else if below % 2 = 0 then below else below + 1

theorem halfEven_near (value : K) : value - 1 / 2 ≤ halfEven value ∧ (halfEven value : K) ≤ value + 1 / 2 := by
  have low := Int.floor_le value
  have high := Int.lt_floor_add_one value
  unfold halfEven
  dsimp only
  split
  next near => constructor <;> linarith
  next far =>
    rw [not_lt] at far
    split
    next near =>
      push_cast
      constructor <;> linarith
    next half =>
      rw [not_lt] at half
      split
      next => constructor <;> linarith
      next =>
        push_cast
        constructor <;> linarith

theorem halfEven_eq {n : Int} (low : value - 1 / 2 < n) (high : (n : K) < value + 1 / 2) : halfEven value = n := by
  obtain ⟨least,most⟩ := halfEven_near value
  have below : (halfEven value : K) < n + 1 := by linarith
  have above : (n : K) < halfEven value + 1 := by linarith
  have below' : halfEven value < n + 1 := by exact_mod_cast below
  have above' : n < halfEven value + 1 := by exact_mod_cast above
  omega

theorem halfEven_intCast (n : Int) : halfEven (n : K) = n := by
  apply halfEven_eq <;> linarith

theorem halfEven_mono (le : value ≤ other) : halfEven value ≤ halfEven other := by
  by_contra above
  have apart : (halfEven other : K) + 1 ≤ halfEven value := by exact_mod_cast not_le.mp above
  have most := (halfEven_near value).2
  have least := (halfEven_near other).1
  have same : value = other := by linarith
  rw [same] at above
  exact above le_rfl

end rounding

/-- Values between 0 and 1 under weights that are not negative add up to no more than the weights do. -/
theorem weighted_mem (pairs : List (K × K)) (values : ∀ pair ∈ pairs, 0 ≤ pair.1 ∧ pair.1 ≤ 1)
    (weights : ∀ pair ∈ pairs, 0 ≤ pair.2) :
    0 ≤ (pairs.map fun pair => pair.1 * pair.2).sum ∧
      (pairs.map fun pair => pair.1 * pair.2).sum ≤ (pairs.map Prod.snd).sum := by
  constructor
  · refine List.sum_nonneg fun product member => ?_
    obtain ⟨pair,inside,rfl⟩ := List.mem_map.mp member
    exact mul_nonneg (values pair inside).1 (weights pair inside)
  · refine List.sum_le_sum fun pair inside => ?_
    exact mul_le_of_le_one_left (weights pair inside) (values pair inside).2

end Numeric
