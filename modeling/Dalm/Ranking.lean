import Dalm.MatchRanking
import Dalm.Numeric.Rounding
import Dalm.Uuid
import Mathlib.Data.Rat.Floor

/-! The ranking of candidates: who is in it, in which order, and with which scores. -/
namespace Dalm
open Numeric
variable {K : Type} [Field K] [LinearOrder K]
  {candidates : List (MatchCandidate K)} {weights : MatchWeights K} {thresholds : Thresholds K}

theorem qualifies_iff {scores : FeatureScores K} : qualifies weights thresholds scores = true ↔
    thresholds.sceneMinimum ≤ scores.scene ∧ thresholds.semanticMinimum ≤ scores.semantic ∧
      thresholds.finalMinimum ≤ finalScore weights scores := by
  simp [qualifies]

section order
variable {first second third : RankedCandidate K}

instance : Std.Total (rankedBefore : RankedCandidate K → RankedCandidate K → Prop) where
  total first second := by
    unfold rankedBefore
    rcases lt_trichotomy first.finalScore second.finalScore with less | same | more
    · exact .inr (.inl less)
    · exact (le_total first.photoId.str second.photoId.str).imp (fun le => .inr ⟨same,le⟩)
        fun le => .inr ⟨same.symm,le⟩
    · exact .inl (.inl more)

instance : IsTrans (RankedCandidate K) rankedBefore where
  trans first second third := by
    rintro (more | ⟨same,le⟩) (more' | ⟨same',le'⟩)
    · exact .inl (more'.trans more)
    · exact .inl (same' ▸ more)
    · exact .inl (same ▸ more')
    · exact .inr ⟨same.trans same',le.trans le'⟩

theorem rankedBefore_antisymm (forward : rankedBefore first second) (backward : rankedBefore second first) :
    first.photoId = second.photoId := by
  rcases forward with more | ⟨same,le⟩
  · rcases backward with more' | ⟨same',_⟩
    · exact absurd more (lt_asymm more')
    · exact absurd same' more.ne
  · rcases backward with more' | ⟨_,le'⟩
    · exact absurd same more'.ne
    · exact UUID.str_injective (le_antisymm le le')

end order

section ranking
variable [FloorRing K]

/-- A candidate as the ranking reports it. -/
def MatchCandidate.ranked (weights : MatchWeights K) (candidate : MatchCandidate K) : RankedCandidate K :=
  ⟨candidate.photoId,candidate.scores,round6 (finalScore weights candidate.scores)⟩

theorem rankCandidates_perm (candidates : List (MatchCandidate K)) (weights : MatchWeights K)
    (thresholds : Thresholds K) : (rankCandidates candidates weights thresholds).Perm
      ((candidates.filter fun candidate => qualifies weights thresholds candidate.scores).map
        (MatchCandidate.ranked weights)) := List.perm_insertionSort _ _

theorem mem_rankCandidates {item : RankedCandidate K} : item ∈ rankCandidates candidates weights thresholds ↔
    ∃ candidate ∈ candidates, qualifies weights thresholds candidate.scores = true ∧
      item = candidate.ranked weights := by
  rw [(rankCandidates_perm candidates weights thresholds).mem_iff,List.mem_map]
  constructor
  · rintro ⟨candidate,member,rfl⟩
    obtain ⟨member,reaches⟩ := List.mem_filter.mp member
    exact ⟨candidate,member,reaches,rfl⟩
  · rintro ⟨candidate,member,reaches,rfl⟩
    exact ⟨candidate,List.mem_filter.mpr ⟨member,reaches⟩,rfl⟩

theorem rankCandidates_nodup (distinct : (candidates.map MatchCandidate.photoId).Nodup) :
    ((rankCandidates candidates weights thresholds).map RankedCandidate.photoId).Nodup := by
  have perm := (rankCandidates_perm candidates weights thresholds).map RankedCandidate.photoId
  rw [perm.nodup_iff,List.map_map]
  exact distinct.sublist ((List.filter_sublist).map MatchCandidate.photoId)

theorem rankCandidates_sorted (candidates : List (MatchCandidate K)) (weights : MatchWeights K)
    (thresholds : Thresholds K) : (rankCandidates candidates weights thresholds).Pairwise rankedBefore :=
  List.pairwise_insertionSort _ _

section scores
variable [IsStrictOrderedRing K] {value other : K}

theorem round6_eq (value : K) : round6 value = (halfEven (value * 10 ^ 6) : K) / 10 ^ 6 := by
  have below : ∀ rest : K, rest < 1 / 2 ↔ rest < 1 - rest := fun rest => by constructor <;> intro <;> linarith
  have above : ∀ rest : K, 1 / 2 < rest ↔ 1 - rest < rest := fun rest => by constructor <;> intro <;> linarith
  simp only [round6,halfEven,below,above]

theorem round6_mono (le : value ≤ other) : round6 value ≤ round6 other := by
  rw [round6_eq,round6_eq]
  have scaled : value * 10 ^ 6 ≤ other * 10 ^ 6 := mul_le_mul_of_nonneg_right le (by norm_num)
  have rounded : (halfEven (value * 10 ^ 6) : K) ≤ halfEven (other * 10 ^ 6) := by
    exact_mod_cast halfEven_mono scaled
  exact div_le_div_of_nonneg_right rounded (by norm_num)

/-- Rounding moves a score by half a millionth at most. -/
theorem round6_near (value : K) :
    value - 1 / 2 / 10 ^ 6 ≤ round6 value ∧ round6 value ≤ value + 1 / 2 / 10 ^ 6 := by
  obtain ⟨least,most⟩ := halfEven_near (value * 10 ^ 6)
  rw [round6_eq,le_div_iff₀ (by norm_num),div_le_iff₀ (by norm_num)]
  constructor <;> linarith

theorem round6_zero : round6 (0 : K) = 0 := by
  have none_ : halfEven (0 : K) = 0 := by exact_mod_cast halfEven_intCast (K := K) 0
  rw [round6_eq,zero_mul,none_,Int.cast_zero,zero_div]

/-- What the weights may add up to beyond one is rounded away. -/
theorem round6_full : round6 (1 + 1 / 10 ^ 9 : K) = 1 := by
  have million : halfEven ((1 + 1 / 10 ^ 9) * 10 ^ 6 : K) = 1000000 := by
    apply halfEven_eq <;> norm_num
  rw [round6_eq,million]
  norm_num

theorem finalScore_mem (weights : MatchWeights K) (scores : FeatureScores K) :
    0 ≤ finalScore weights scores ∧ finalScore weights scores ≤ 1 + 1 / 10 ^ 9 := by
  obtain ⟨least,most⟩ := weighted_mem (scores.values.zip weights.values)
    (fun pair member => scores.valid _ (List.of_mem_zip member).1)
    (fun pair member => weights.nonnegative _ (List.of_mem_zip member).2)
  have total : (weights.values.sum - 1) ≤ 1 / 10 ^ 9 := le_trans (le_abs_self _) weights.total
  have own : (scores.values.zip weights.values).map Prod.snd = weights.values :=
    List.map_snd_zip (by simp [FeatureScores.values,MatchWeights.values])
  rw [own] at most
  exact ⟨least,by unfold finalScore; linarith⟩

end scores

/-- Candidates of distinct photos leave the sort no choice. -/
theorem rankCandidates_congr {others : List (MatchCandidate K)}
    (distinct : (candidates.map MatchCandidate.photoId).Nodup) (perm : others.Perm candidates) :
    rankCandidates others weights thresholds = rankCandidates candidates weights thresholds := by
  have same : (rankCandidates others weights thresholds).Perm
      (rankCandidates candidates weights thresholds) :=
    (rankCandidates_perm others weights thresholds).trans
      (((perm.filter _).map _).trans (rankCandidates_perm candidates weights thresholds).symm)
  refine same.eq_of_pairwise ?_ (rankCandidates_sorted _ _ _) (rankCandidates_sorted _ _ _)
  intro first second one two forward backward
  refine List.inj_on_of_nodup_map (rankCandidates_nodup distinct) (same.mem_iff.mp one) two ?_
  exact rankedBefore_antisymm forward backward

/-- The ranking as it is to be: exactly the candidates that reach the minima, each once, by score
as rounded and then by id, with scores between 0 and 1. -/
structure RanksExactly (candidates : List (MatchCandidate K)) (weights : MatchWeights K)
    (thresholds : Thresholds K) (ranking : List (RankedCandidate K)) : Prop where
  members : ∀ item, item ∈ ranking ↔ ∃ candidate ∈ candidates,
    (thresholds.sceneMinimum ≤ candidate.scores.scene ∧
      thresholds.semanticMinimum ≤ candidate.scores.semantic ∧
      thresholds.finalMinimum ≤ finalScore weights candidate.scores) ∧
    item = ⟨candidate.photoId,candidate.scores,round6 (finalScore weights candidate.scores)⟩
  once : (ranking.map RankedCandidate.photoId).Nodup
  ordered : ranking.Pairwise fun earlier later => later.finalScore < earlier.finalScore ∨
    (earlier.finalScore = later.finalScore ∧ earlier.photoId.str < later.photoId.str)
  apart : ranking.Pairwise fun earlier later =>
    ¬ finalScore weights earlier.scores + 1 / 10 ^ 6 < finalScore weights later.scores
  bounded : ∀ item ∈ ranking, 0 ≤ item.finalScore ∧ item.finalScore ≤ 1

variable [IsStrictOrderedRing K]

theorem ranksExactly_rankCandidates (distinct : (candidates.map MatchCandidate.photoId).Nodup) :
    RanksExactly candidates weights thresholds (rankCandidates candidates weights thresholds) := by
  have sorted := rankCandidates_sorted candidates weights thresholds
  have reported : ∀ item ∈ rankCandidates candidates weights thresholds,
      item.finalScore = round6 (finalScore weights item.scores) := by
    intro item member
    obtain ⟨candidate,_,_,rfl⟩ := mem_rankCandidates.mp member
    rfl
  refine ⟨?_,rankCandidates_nodup distinct,?_,?_,?_⟩
  · intro item
    rw [mem_rankCandidates]
    simp only [qualifies_iff]
    rfl
  · have once : ((rankCandidates candidates weights thresholds).map RankedCandidate.photoId).Nodup :=
      rankCandidates_nodup distinct
    have apart := List.pairwise_map.mp once
    refine (sorted.and apart).imp ?_
    rintro earlier later ⟨more | ⟨same,le⟩,different⟩
    · exact .inl more
    · refine .inr ⟨same,lt_of_le_of_ne le fun equal => different (UUID.str_injective equal)⟩
  · refine sorted.imp_of_mem ?_
    intro earlier later one two before clear
    have down := (round6_near (finalScore weights earlier.scores)).2
    have up := (round6_near (finalScore weights later.scores)).1
    have more : earlier.finalScore < later.finalScore := by
      rw [reported earlier one,reported later two]
      linarith
    rcases before with less | ⟨same,_⟩
    · exact lt_asymm more less
    · exact more.ne same
  · intro item member
    obtain ⟨least,most⟩ := finalScore_mem weights item.scores
    rw [reported item member]
    constructor
    · have low := round6_mono least
      rwa [round6_zero] at low
    · have high := round6_mono most
      rwa [round6_full] at high

/-- In exact arithmetic the ranking is what it is to be, whatever order the candidates come in. -/
theorem rankingExact (candidates : List (MatchCandidate K)) (weights : MatchWeights K)
    (thresholds : Thresholds K) (distinct : (candidates.map MatchCandidate.photoId).Nodup) :
    RanksExactly candidates weights thresholds (rankCandidates candidates weights thresholds) ∧
      ∀ others : List (MatchCandidate K), others.Perm candidates →
        rankCandidates others weights thresholds = rankCandidates candidates weights thresholds :=
  ⟨ranksExactly_rankCandidates distinct,fun _ perm => rankCandidates_congr distinct perm⟩

end ranking

namespace Sample

def equalScores : FeatureScores ℚ := ⟨8 / 10,8 / 10,8 / 10,8 / 10,8 / 10,8 / 10,by decide +kernel⟩

def tied : List (MatchCandidate ℚ) := [⟨2,equalScores⟩,⟨1,equalScores⟩]

end Sample

theorem rankingExact_tied :
    (rankCandidates Sample.tied .default .default).map RankedCandidate.photoId = [1,2] ∧
      RanksExactly Sample.tied .default .default (rankCandidates Sample.tied .default .default) ∧
      ∀ others : List (MatchCandidate ℚ), others.Perm Sample.tied →
        rankCandidates others .default .default = rankCandidates Sample.tied .default .default :=
  ⟨by decide +kernel,rankingExact Sample.tied .default .default (by decide)⟩

end Dalm
