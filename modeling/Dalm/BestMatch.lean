import Dalm.Relational.Alone
import Dalm.Fresh
import Dalm.Ranking
import Dalm.MissedMatches

/-! Orchestration with nobody else at work: the source is matched with the candidate that ranks first,
and stays as it is only when no candidate listed reaches the minima. -/
namespace Dalm
open Relational Txn

section finalize
open SqlMatchFinalizationStore
variable {settings : Settings} {t : Nat} {inputs : Nat → Input} {n : Nat} {w u : BackendWorld}
  {first second : UUID} {now : Time} {a b : Photo} {text : List Char} {opened : Option Time}

theorem SqlMatchFinalizationStore.Ready.swap {db : Db} (ready : Ready db first second now a b) :
    Ready db first second now b a :=
  ⟨⟨ready.ids.symm.imp And.symm And.symm,ready.apart.symm,ready.found.symm⟩,ready.users.symm,
    ready.searching.symm,ready.timely.symm⟩

theorem SqlMatchFinalizationStore.Ready.ordered {db : Db} (ready : Ready db first second now a b) :
    ∃ x y, ((x = a ∧ y = b) ∨ (x = b ∧ y = a)) ∧ Ready db first second now x y ∧
      orderedIds first second = [x.id,y.id] := by
  have different : first ≠ second := by
    rcases ready.ids with ⟨rfl,rfl⟩ | ⟨rfl,rfl⟩
    · exact ready.apart
    · exact ready.apart.symm
  have two : (orderedIds first second).length = 2 := by
    rw [orderedIds,if_neg different,List.length_insertionSort]
    rfl
  obtain ⟨x,y,listed⟩ := List.length_eq_two.mp two
  have pair : [x,y].Sublist (orderedIds first second) := by
    rw [listed]
  obtain ⟨_,same⟩ := orderedIds_pair pair
  have forward : (x = a.id ∧ y = b.id) ∨ (x = b.id ∧ y = a.id) := by
    rcases ready.ids with ⟨rfl,rfl⟩ | ⟨rfl,rfl⟩
    · exact same
    · exact same.symm
  rcases forward with ⟨rfl,rfl⟩ | ⟨rfl,rfl⟩
  · exact ⟨a,b,.inl ⟨rfl,rfl⟩,ready,listed⟩
  · exact ⟨b,a,.inr ⟨rfl,rfl⟩,ready.swap,listed⟩

/-- Two photos joined in a match, and no third one touched. -/
structure JoinedIn (a b : Photo) (text : List Char) (now : Time) (db : Db) (matchId : UUID) (db' : Db) : Prop where
  made : db.matches_.get? matchId = none ∧ db'.matches_.get? matchId = some ⟨matchId,text,now⟩
  first : db'.participants.get? (matchId,a.userId) = some ⟨matchId,a.userId,a.id,none,none⟩
  second : db'.participants.get? (matchId,b.userId) = some ⟨matchId,b.userId,b.id,none,none⟩
  matched : db'.photos.get? a.id = some {a with status := .matched} ∧
    db'.photos.get? b.id = some {b with status := .matched}
  others : ∀ p, p ≠ a.id → p ≠ b.id → db'.photos.get? p = db.photos.get? p

theorem JoinedIn.swap {matchId : UUID} {db db' : Db} (joined : JoinedIn a b text now db matchId db') :
    JoinedIn b a text now db matchId db' :=
  ⟨joined.made,joined.second,joined.first,joined.matched.symm,fun p one two => joined.others p two one⟩

end finalize

section orchestration
open SqlPhotoEmbeddingStore
variable {K : Type} [Field K] [LinearOrder K] [IsStrictOrderedRing K] [FloorRing K] {sqrt : ℚ → K}
  {settings : Settings} {t : Nat} {inputs : Nat → Input} {n : Nat} {w u : BackendWorld} {q : UUID}
  {photo : Photo} {source : PhotoEmbedding} {now : Time}

instance : Std.Total registeredBefore where
  total first second := by
    unfold registeredBefore
    rcases lt_trichotomy first.1.registeredAt second.1.registeredAt with less | same | more
    · exact .inl (.inl less)
    · exact (le_total first.1.id second.1.id).imp (fun le => .inr ⟨same,le⟩) fun le => .inr ⟨same.symm,le⟩
    · exact .inr (.inl more)

instance : IsTrans _ registeredBefore where
  trans first second third := by
    rintro (less | ⟨same,le⟩) (less' | ⟨same',le'⟩)
    · exact .inl (less.trans less')
    · exact .inl (same' ▸ less)
    · exact .inl (same ▸ less')
    · exact .inr ⟨same.trans same',le.trans le'⟩

end orchestration

end Dalm
