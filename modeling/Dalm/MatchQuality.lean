import Dalm.Relational.Warrants
import Dalm.MissedMatches

/-! Every match the deliveries made stands on the embeddings stored: they reach the minima, and the
explanation names what they share most. -/
namespace Dalm
open Relational Txn
variable {K : Type} [Field K] [LinearOrder K] [IsStrictOrderedRing K] {sqrt : ℚ → K}

/-- The embeddings of two photos reach the minima, and the text explains their scores. -/
def Justified (sqrt : ℚ → K) (db : Db) (p q : UUID) (text : List Char) : Prop :=
  ∃ ea eb, db.embeddings.get? p = some ea ∧ db.embeddings.get? q = some eb ∧
    qualifies .default .default (scoreEmbeddings sqrt ea.data eb.data) ∧
    text = strip (explanation (scoreEmbeddings sqrt ea.data eb.data))

theorem Justified.symm {db : Db} {p q : UUID} {text : List Char} (justified : Justified sqrt db p q text) :
    Justified sqrt db q p text := by
  obtain ⟨ea,eb,first,second,reaches,said⟩ := justified
  rw [scoreEmbeddings_comm] at reaches said
  exact ⟨eb,ea,second,first,reaches,said⟩

/-- What is stored stays. -/
def EmbeddingsStay (w w' : BackendWorld) : Prop :=
  ∀ p e, w.db.embeddings.get? p = some e → w'.db.embeddings.get? p = some e

theorem EmbeddingsStay.refl (w : BackendWorld) : EmbeddingsStay w w := fun _ _ stored => stored

theorem EmbeddingsStay.trans (a b c : BackendWorld) (first : EmbeddingsStay a b) (second : EmbeddingsStay b c) :
    EmbeddingsStay a c := fun p e stored => second p e (first p e stored)

theorem Justified.later {w w' : BackendWorld} {p q : UUID} {text : List Char}
    (justified : Justified sqrt w.db p q text) (stay : EmbeddingsStay w w') : Justified sqrt w'.db p q text := by
  obtain ⟨ea,eb,first,second,rest⟩ := justified
  exact ⟨ea,eb,stay _ _ first,stay _ _ second,rest⟩

section programs
variable {t : Nat} {w : BackendWorld} {q p : UUID} {text : List Char} {opened : Option Time}

section finalize
open SqlMatchFinalizationStore
variable {now : Time} {Q : Except Exc UUID → BackendWorld → Prop}

end finalize

section delivery
variable [FloorRing K]

end delivery

end programs

section steps
open SqlMatchFinalizationStore
variable {settings : Settings} {r : Request} {t : Nat} {held : List RowKey} {w : BackendWorld} {db : Db}
  {events : List Event} {m : UUID} {row : Match}

end steps

section runs
variable [FloorRing K] {settings : Settings} {users : Table User.id} {s u : Backend}

/-- A match of two users whose photos have the embeddings it stands on. -/
def MatchJustified (sqrt : ℚ → K) (db : Db) (m : UUID) (text : List Char) : Prop :=
  ∃ (first second : MatchParticipant), first.userId ≠ second.userId ∧
    db.participants.get? (m,first.userId) = some first ∧ db.participants.get? (m,second.userId) = some second ∧
    Justified sqrt db first.photoId second.photoId text

theorem Reachable.embeddingsStay (reachable : Reachable settings sqrt users s) {action : Action Input Exc Request}
    (taken : s.step (program settings sqrt) action = some u) : EmbeddingsStay s.world u.world := by
  rcases reachable.change taken with same | ⟨t,i,session,held,db,events,_,_,_,change,same⟩
  · rw [same]
    exact EmbeddingsStay.refl _
  · rw [same]
    exact fun p e stored => change.embedding reachable.inv stored

theorem MatchJustified.step (reachable : Reachable settings sqrt users s) {action : Action Input Exc Request}
    (taken : s.step (program settings sqrt) action = some u) {m : UUID} {text : List Char}
    (justified : MatchJustified sqrt s.world.db m text) : MatchJustified sqrt u.world.db m text := by
  obtain ⟨first,second,apart,one,two,stands⟩ := justified
  have stands' := stands.later (reachable.embeddingsStay taken)
  rcases reachable.change taken with same | ⟨t,i,session,held,db,events,_,_,_,change,same⟩
  · rw [same]
    exact ⟨first,second,apart,one,two,stands⟩
  · rw [same] at stands' ⊢
    obtain ⟨first',found,_,photo⟩ := change.steady.participant _ _ one
    obtain ⟨second',found',_,photo'⟩ := change.steady.participant _ _ two
    have user : first'.userId = first.userId := congrArg Prod.snd (Table.key_of_get? found)
    have user' : second'.userId = second.userId := congrArg Prod.snd (Table.key_of_get? found')
    refine ⟨first',second',?_,?_,?_,?_⟩
    · rw [user,user']
      exact apart
    · rw [user]
      exact found
    · rw [user']
      exact found'
    · rw [photo,photo']
      exact stands'

end runs

end Dalm
