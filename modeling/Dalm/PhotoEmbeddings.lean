import Dalm.App
import Mathlib.Data.List.Sort

/-! SqlPhotoEmbeddingStore.list_candidates with the query it runs. -/
namespace Dalm
open Relational Txn

namespace SqlPhotoEmbeddingStore

def photoNotFound : Exc := .api ⟨404,.photoNotFound,"사진을 찾을 수 없습니다."⟩

def photoNotSearching : Exc :=
  .api ⟨409,.photoNotSearching,"매칭 탐색 중인 사진이 아닙니다."⟩

structure EmbeddingCandidate where
  photoId : UUID
  userId : UUID
  registeredAt : Time
  embedding : PhotoEmbeddingData

def registeredBefore (first second : Photo × PhotoEmbedding) : Prop :=
  first.1.registeredAt < second.1.registeredAt ∨
    (first.1.registeredAt = second.1.registeredAt ∧ first.1.id ≤ second.1.id)

instance : DecidableRel registeredBefore := fun _ _ => inferInstanceAs (Decidable (_ ∨ _))

/-- The WHERE clause of build_candidate_query. -/
def eligible (db : Db) (sourcePhotoId sourceUserId : UUID) (now : Time) (photo : Photo) : Bool :=
  photo.id ≠ sourcePhotoId ∧ photo.userId ≠ sourceUserId ∧ photo.status = .searching ∧
    photo.deletedAt = none ∧ now - days 7 ≤ photo.registeredAt ∧
    photo.searchExpiresAt.any (now < ·) ∧ ¬ db.blockedBetween sourceUserId photo.userId

/-- The rows of the join, ordered, before LIMIT cuts them. -/
def eligibleRows (sourcePhotoId sourceUserId : UUID) (now : Time) (db : Db) :
    List (Photo × PhotoEmbedding) :=
  ((db.photos.rows.filter (eligible db sourcePhotoId sourceUserId now)).filterMap
    fun photo => (db.embeddings.get? photo.id).map fun embedding => (photo,embedding)).insertionSort
    registeredBefore

def buildCandidateQuery (sourcePhotoId sourceUserId : UUID) (now : Time) (limit : Nat) (db : Db) :
    List (Photo × PhotoEmbedding) :=
  (eligibleRows sourcePhotoId sourceUserId now db).take limit

def isSearchable (now : Time) (photo : Photo) : Bool :=
  photo.status = .searching ∧ photo.searchExpiresAt.any (now < ·)

def listCandidates (sourcePhotoId : UUID) (now : Option Time) (limit : Nat) :
    App (List EmbeddingCandidate) := do
  if ¬ (1 ≤ limit ∧ limit ≤ 500) then
    throw .valueError
  else
    let clock ← supply
    let effectiveNow := now.getD clock.now
    let source ← observe
      (fun db => .sourceRead sourcePhotoId ((db.photos.get? sourcePhotoId).any (isSearchable effectiveNow)))
      (fun db => db.photos.get? sourcePhotoId)
    match source with
    | none => throw photoNotFound
    | some source =>
      if ¬ isSearchable effectiveNow source then
        throw photoNotSearching
      else
        let rows ← observe
          (fun db => .candidatesListed sourcePhotoId
            (eligibleRows sourcePhotoId source.userId effectiveNow db).length)
          (buildCandidateQuery sourcePhotoId source.userId effectiveNow limit)
        return rows.map fun (photo,embedding) =>
          ⟨photo.id,photo.userId,photo.registeredAt,embedding.data⟩

end SqlPhotoEmbeddingStore
end Dalm
