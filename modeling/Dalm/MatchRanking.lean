import Dalm.Models
import Mathlib.Algebra.Order.Floor.Ring
import Mathlib.Data.List.Sort
import Mathlib.Tactic.NormNum

/-! match_ranking.py in exact arithmetic: scores are elements of an ordered field, so
the reals are one instance and the rationals, which compute, another. -/
namespace Dalm
variable {K : Type} [Field K] [LinearOrder K]

/-- Scores that passed `__post_init__`. -/
structure FeatureScores (K : Type) [Field K] [LinearOrder K] where
  scene : K
  semantic : K
  objects : K
  composition : K
  color : K
  mood : K
  valid : ∀ value ∈ [scene,semantic,objects,composition,color,mood], 0 ≤ value ∧ value ≤ 1

def FeatureScores.values (scores : FeatureScores K) : List K :=
  [scores.scene,scores.semantic,scores.objects,scores.composition,scores.color,scores.mood]

structure MatchWeights (K : Type) [Field K] [LinearOrder K] where
  scene : K
  semantic : K
  objects : K
  composition : K
  color : K
  mood : K
  nonnegative : ∀ value ∈ [scene,semantic,objects,composition,color,mood], 0 ≤ value
  total : |[scene,semantic,objects,composition,color,mood].sum - 1| ≤ 1 / 10 ^ 9

def MatchWeights.values (weights : MatchWeights K) : List K :=
  [weights.scene,weights.semantic,weights.objects,weights.composition,weights.color,weights.mood]

/-- Minima that pass the check at the head of rank_candidates. -/
structure Thresholds (K : Type) [Field K] [LinearOrder K] where
  sceneMinimum : K
  semanticMinimum : K
  finalMinimum : K
  valid : ∀ value ∈ [sceneMinimum,semanticMinimum,finalMinimum], 0 ≤ value ∧ value ≤ 1

structure MatchCandidate (K : Type) [Field K] [LinearOrder K] where
  photoId : UUID
  scores : FeatureScores K

structure RankedCandidate (K : Type) [Field K] [LinearOrder K] where
  photoId : UUID
  scores : FeatureScores K
  finalScore : K

section defaults
variable [IsStrictOrderedRing K]

def MatchWeights.default : MatchWeights K where
  scene := 25 / 100
  semantic := 25 / 100
  objects := 15 / 100
  composition := 15 / 100
  color := 10 / 100
  mood := 10 / 100
  nonnegative := by simp only [List.forall_mem_cons]; norm_num
  total := by simp only [List.sum_cons,List.sum_nil]; norm_num

def Thresholds.default : Thresholds K where
  sceneMinimum := 45 / 100
  semanticMinimum := 50 / 100
  finalMinimum := 65 / 100
  valid := by simp only [List.forall_mem_cons]; norm_num

end defaults

def finalScore (weights : MatchWeights K) (scores : FeatureScores K) : K :=
  ((scores.values.zip weights.values).map fun pair => pair.1 * pair.2).sum

/-- The candidate reaches all three minima. -/
def qualifies (weights : MatchWeights K) (thresholds : Thresholds K) (scores : FeatureScores K) :
    Bool :=
  ¬ scores.scene < thresholds.sceneMinimum ∧ ¬ scores.semantic < thresholds.semanticMinimum ∧
    thresholds.finalMinimum ≤ finalScore weights scores

/-- `sorted` by `(-final_score, str(photo_id))`. -/
def rankedBefore (first second : RankedCandidate K) : Prop :=
  second.finalScore < first.finalScore ∨
    (first.finalScore = second.finalScore ∧ first.photoId.str ≤ second.photoId.str)

instance : DecidableRel (rankedBefore : RankedCandidate K → RankedCandidate K → Prop) :=
  fun _ _ => inferInstanceAs (Decidable (_ ∨ _))

section ranking
variable [IsStrictOrderedRing K] [FloorRing K]

/-- `round(value, 6)`, to the even neighbour halfway. -/
def round6 (value : K) : K :=
  let scaled : K := value * 10 ^ 6
  let below : Int := ⌊scaled⌋
  let rest : K := scaled - below
  let nearest : Int := if rest < 1 / 2 then below else if 1 / 2 < rest then below + 1
    else if below % 2 = 0 then below else below + 1
  (nearest : K) / 10 ^ 6

def rankCandidates (candidates : List (MatchCandidate K)) (weights : MatchWeights K)
    (thresholds : Thresholds K) : List (RankedCandidate K) :=
  ((candidates.filter fun candidate => qualifies weights thresholds candidate.scores).map
    fun candidate =>
      ⟨candidate.photoId,candidate.scores,round6 (finalScore weights candidate.scores)⟩).insertionSort
    rankedBefore

end ranking
end Dalm
