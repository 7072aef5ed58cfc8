import Dalm.Fresh
import Dalm.History
import Dalm.RepeatableDeliveries

/-! No match is missed. Of two photos whose results are delivered, the delivery that commits later lists
the photo of the other one, and tries it. -/
namespace Dalm
open Relational SqlMatchFinalizationStore

/-- No identifier is drawn twice, the clock is never read past the period of a photo that is searching, no
block changes, and no listing is cut by its limit. -/
def undiminished : Discipline Db Input Event where
  input w ids := ids.Fresh w.db ∧ ∀ p photo, w.db.photos.get? p = some photo →
    photo.status = .searching → ¬ isOver ids.now photo
  change w w' := w'.db.blocks = w.db.blocks ∧
    ∀ t q total, w' = w.record t [.candidatesListed q total] → total ≤ 100
  deaths := False

section scores
variable {K : Type} [Field K] [LinearOrder K]

theorem dot_comm (left right : List ℚ) : dot left right = dot right left := by
  induction left generalizing right with
  | nil => cases right <;> rfl
  | cons x left ih =>
    cases right with
    | nil => rfl
    | cons y right =>
      have rest := ih right
      unfold dot at rest ⊢
      simp only [List.zip_cons_cons,List.map_cons,List.sum_cons,rest,mul_comm x y]

variable (sqrt : ℚ → K)

theorem cosine_comm (left right : List ℚ) : cosine sqrt left right = cosine sqrt right left := by
  unfold cosine
  have same : (left.length ≠ right.length ∨ left = []) ↔ (right.length ≠ left.length ∨ right = []) := by
    rcases eq_or_ne left.length right.length with equal | different
    · have empty : left = [] ↔ right = [] := by rw [← List.length_eq_zero_iff,equal,List.length_eq_zero_iff]
      simp [equal,empty]
    · simp [different,different.symm]
  simp only [same,dot_comm left right,mul_comm (sqrt (dot left left))]

variable [IsStrictOrderedRing K]

theorem scoreEmbeddings_comm (source candidate : PhotoEmbeddingData) :
    scoreEmbeddings sqrt source candidate = scoreEmbeddings sqrt candidate source := by
  simp only [scoreEmbeddings,cosine_comm sqrt source.scene,cosine_comm sqrt source.objectAction,
    cosine_comm sqrt source.composition,cosine_comm sqrt source.color,cosine_comm sqrt source.mood]

end scores

section steps
variable {settings : Settings} {r : Request} {t : Nat} {held : List RowKey} {w : BackendWorld}
  {db : Db} {events : List Event} {p q : UUID}

/-- A stored embedding stays as it is. -/
theorem Change.embedding (change : Change settings r t held w db events) (inv : Inv settings w)
    {embedding : PhotoEmbedding} (stored : w.db.embeddings.get? p = some embedding) :
    db.embeddings.get? p = some embedding := by
  cases change with
  | observed | timedOut | deleted | unblocked | postcardRead | account => exact stored
  | @postcardDeleted _ _ _ side => cases side <;> exact stored
  | abandoned | handed | retried | embeddingFailed => simpa using stored
  | @created _ mock _ _ _ _ _ _ _ _ _ written =>
    cases mock with
    | false =>
      obtain ⟨_,_,_,_,rfl⟩ := HomeRepository.createWrites_plain written
      exact stored
    | true =>
      obtain ⟨_,_,_,_,_,_,_,rfl⟩ := HomeRepository.createWrites_mock written
      exact stored
  | @judged _ result _ _ _ _ _ _ _ _ _ _ _ _ _ written =>
    cases verdict : result.status with
    | passed =>
      obtain ⟨_,_,_,_,rfl⟩ := PhotoValidationRepository.resultWrites_passed verdict written
      exact stored
    | rejected =>
      obtain ⟨_,_,rfl⟩ := PhotoValidationRepository.resultWrites_rejected verdict written
      exact stored
  | @validationFailed _ _ _ failedPhoto _ _ _ _ _ _ _ _ _ _ written =>
    by_cases validating : failedPhoto.status = .validating
    · obtain ⟨_,_,rfl⟩ := PhotoValidationRepository.failureWrites_validating validating written
      exact stored
    · obtain ⟨_,rfl⟩ := PhotoValidationRepository.failureWrites_other validating written
      exact stored
  | @embedded _ _ _ job _ _ _ _ _ _ present owned written =>
    have fresh := inv.embeddings.fresh present (by simp [owned.1])
    have same := PhotoEmbeddingJobRepository.resultWrites_fresh fresh written
    subst same
    have other : job.photoId ≠ p := by
      rintro rfl
      cases fresh.symm.trans stored
    exact (Table.get?_insert _ _ fresh p).trans ((if_neg other).trans stored)
  | expired _ _ written =>
    obtain ⟨_,_,rfl⟩ := SqlExpirationStore.expireWrites_eq written
    exact stored
  | matched _ _ _ _ _ _ _ written =>
    obtain ⟨_,_,_,_,_,rfl⟩ := finalizeWrites_eq written
    exact stored
  | blocked _ written =>
    obtain ⟨_,_,rfl⟩ := SafetyRepository.blockWrites_eq written
    exact stored
  | reportedUser _ written =>
    rcases ReportRepository.reportUserWrites_eq written with ⟨_,_,rfl⟩ | ⟨_,_,_,rfl⟩ <;> exact stored
  | @reportedPhoto _ _ own _ _ _ _ _ written =>
    obtain ⟨_,_,rfl⟩ := ReportRepository.reportPhotoWrites_eq written
    cases own <;> exact stored
  | sent _ _ _ _ _ _ written =>
    obtain ⟨_,_,_,rfl⟩ := PostcardRepository.sendWrites_eq written
    exact stored

/-- The photo is there and has its verdict. -/
def Judged (db : Db) (p : UUID) : Prop := ∃ photo, db.photos.get? p = some photo ∧ photo.status ≠ .validating

theorem Inv.judged (inv : Inv settings w) (stored : (w.db.embeddings.get? p).isSome) : Judged w.db p := by
  obtain ⟨e,job,found,rfl⟩ := inv.embeddings.embedded p stored
  obtain ⟨v,row,present,same⟩ := inv.embeddings.validated e job found
  obtain ⟨photo,there⟩ := Option.isSome_iff_exists.mp (inv.validations.photo v row present)
  rw [same] at there
  refine ⟨photo,there,fun validating => ?_⟩
  have key : photo.id = job.photoId := Table.key_of_get? there
  exact unembedded_of_validating inv (key ▸ there) validating job (Table.mem_rows_of_get? found).1 key

end steps

section passages
variable {settings : Settings} {D : Discipline Db Input Event} {w w' : BackendWorld} {p : UUID}

theorem Passage.inv (passage : Passage (protocol settings) D w w') (inv : Inv settings w') : Inv settings w := by
  rcases passage.cases_head with rfl | ⟨_,⟨_,_,_,here,_⟩,_⟩
  · exact inv
  · exact here

theorem Passage.judged (passage : Passage (protocol settings) D w w') (judged : Judged w.db p) : Judged w'.db p := by
  refine passage_preserves (F := fun w => Judged w.db p) passage judged ?_
  rintro r u held a db events _ change ⟨photo,found,verdict⟩
  obtain ⟨photo',after,_,follows⟩ := change.photo found
  refine ⟨photo',after,?_⟩
  rcases follows.status with same | allowed
  · rw [same]
    exact verdict
  · revert verdict allowed
    cases photo.status <;> cases photo'.status <;> simp [PhotoStatus.allowed]

/-- A photo with a verdict that is searching has been searching since: no other status leads there. -/
theorem searching_before (passage : Passage (protocol settings) D w w') (judged : Judged w.db p)
    (searching : hasStatus w'.db p .searching) : hasStatus w.db p .searching := by
  obtain ⟨photo,found,verdict⟩ := judged
  refine ⟨photo,found,?_⟩
  by_contra other
  have left : ∃ photo, w'.db.photos.get? p = some photo ∧ photo.status ≠ .validating ∧
      photo.status ≠ .searching := by
    refine passage_preserves (F := fun w => ∃ photo, w.db.photos.get? p = some photo ∧
      photo.status ≠ .validating ∧ photo.status ≠ .searching) passage ⟨photo,found,verdict,other⟩ ?_
    rintro r u held a db events _ change ⟨photo,found,verdict,other⟩
    obtain ⟨photo',after,_,follows⟩ := change.photo found
    refine ⟨photo',after,?_⟩
    rcases follows.status with same | allowed
    · rw [same]
      exact ⟨verdict,other⟩
    · revert verdict other allowed
      cases photo.status <;> cases photo'.status <;> simp [PhotoStatus.allowed]
  obtain ⟨photo',found',status⟩ := searching
  obtain ⟨photo'',found'',_,not_⟩ := left
  cases found'.symm.trans found''
  exact not_ status

theorem Passage.embedding {embedding : PhotoEmbedding} (passage : Passage (protocol settings) D w w')
    (stored : w.db.embeddings.get? p = some embedding) : w'.db.embeddings.get? p = some embedding := by
  refine passage_preserves (F := fun w => w.db.embeddings.get? p = some embedding) passage stored ?_
  exact fun r u held a db events inv change stored => change.embedding inv stored

theorem Passage.blocks (passage : Passage (protocol settings) undiminished w w') : w'.db.blocks = w.db.blocks := by
  refine passage.preserves (F := fun v => v.db.blocks = w.db.blocks) rfl ?_
  rintro r t held a b _ _ (rfl | allowed) same
  · exact same
  · exact allowed.1.trans same

end passages

section sides
variable {K : Type} [Field K] [LinearOrder K] [IsStrictOrderedRing K] {sqrt : ℚ → K}
  {settings : Settings} {t : Nat} {w w' u : BackendWorld} {p q : UUID} {a b : Photo}
  {ea eb : PhotoEmbedding}

/-- Two photos that are searching and could be matched: of different users, unblocked, and with embeddings
that reach the minima. -/
structure SideBySide (sqrt : ℚ → K) (db : Db) (p q : UUID) (a b : Photo) (ea eb : PhotoEmbedding) : Prop where
  found : db.photos.get? p = some a ∧ db.photos.get? q = some b
  searching : a.status = .searching ∧ b.status = .searching
  users : a.userId ≠ b.userId
  free : ¬ db.blockedBetween a.userId b.userId
  stored : db.embeddings.get? p = some ea ∧ db.embeddings.get? q = some eb
  close : qualifies .default .default (scoreEmbeddings sqrt ea.data eb.data)

theorem blockedBetween_comm (db : Db) (first second : UUID) :
    db.blockedBetween first second = db.blockedBetween second first := by
  rw [Db.blockedBetween_eq,Db.blockedBetween_eq,Bool.or_comm]

theorem SideBySide.symm {db : Db} (side : SideBySide sqrt db p q a b ea eb) :
    SideBySide sqrt db q p b a eb ea where
  found := side.found.symm
  searching := side.searching.symm
  users := side.users.symm
  free := blockedBetween_comm db a.userId b.userId ▸ side.free
  stored := side.stored.symm
  close := scoreEmbeddings_comm sqrt ea.data eb.data ▸ side.close

/-- Two photos with verdicts that end side by side have been searching, and unblocked, since. -/
theorem SideBySide.before (side : SideBySide sqrt u.db p q a b ea eb)
    (passage : Passage (protocol settings) undiminished w u) (first : Judged w.db p) (second : Judged w.db q) :
    ∃ a' b', w.db.photos.get? p = some a' ∧ w.db.photos.get? q = some b' ∧ a'.status = .searching ∧
      b'.status = .searching ∧ a'.userId ≠ b'.userId ∧ ¬ w.db.blockedBetween a'.userId b'.userId := by
  obtain ⟨a',found,one⟩ := searching_before passage first ⟨a,side.found.1,side.searching.1⟩
  obtain ⟨b',found',two⟩ := searching_before passage second ⟨b,side.found.2,side.searching.2⟩
  obtain ⟨_,after,owner,_⟩ := Passage.photo_follows passage found
  obtain ⟨_,after',owner',_⟩ := Passage.photo_follows passage found'
  cases after.symm.trans side.found.1
  cases after'.symm.trans side.found.2
  have unblocked := side.free
  rw [Db.blockedBetween,Passage.blocks passage] at unblocked
  rw [owner,owner'] at unblocked
  exact ⟨a',b',found,found',one,two,fun same => side.users (by rw [owner,owner',same]),unblocked⟩

theorem SideBySide.rivals (side : SideBySide sqrt u.db p q a b ea eb)
    (passage : Passage (protocol settings) undiminished w u) (first : Judged w.db p) (second : Judged w.db q) :
    Rivals q p w.db := by
  obtain ⟨a',b',found,found',_,_,apart,_⟩ := side.before passage first second
  exact ⟨b',a',found',found,apart.symm⟩

section orchestration
variable [FloorRing K]

end orchestration
end sides

section runs
variable {K : Type} [Field K] [LinearOrder K] [IsStrictOrderedRing K] [FloorRing K]
  {settings : Settings} {sqrt : ℚ → K} {users : Table User.id} {s u : Backend} {p q : UUID}

/-- A delivery that began after `s` stored the embedding of the photo, and has ended. -/
def DeliveredSince (s u : Backend) (p : UUID) : Prop := ∃ t id worker embedding x, s.session t = none ∧
  u.session t = some ⟨.embeddingResult id worker embedding,.inr x⟩ ∧ (t,.embeddingStored p) ∈ u.world.log

/-- Such a delivery went on to the matching from a world that tells of the embedding. -/
theorem DeliveredSince.orchestrates (reachable : Reachable settings sqrt users s)
    (run : Reach (program settings sqrt) undiminished s u) (delivered : DeliveredSince s u p) :
    ∃ t v x w', Inv settings v ∧ (t,.embeddingStored p) ∈ v.log ∧ v.log <+: u.world.log ∧
      Orchestrates settings undiminished sqrt t p v x w' ∧ Passage (protocol settings) undiminished w' u.world := by
  obtain ⟨t,id,worker,embedding,_,later,ended,told⟩ := delivered
  obtain ⟨w₀,w₁,y,inv,silent,delivers,_,after⟩ := reachable.outcome run later (fun dead => dead) ended
  have own : ∀ {S : Event → Prop}, Appends t S w₀ u.world → S (.embeddingStored p) := by
    rintro S ⟨more,same,each⟩
    rw [same] at told
    rcases List.mem_append.mp told with before | new
    · exact absurd rfl (silent _ before)
    · exact each _ new rfl
  cases delivers with
  | refused called input looks inv' open_ =>
    have observed := own ((called.trans looks).trans (after.mono fun _ never => never.elim)).appends
    cases observed
  | repeated looks inv' found completed orchestrates =>
    have none_ := own (((StoresNone.of_looks looks).trans orchestrates.onward).trans
      (after.mono fun _ never => never.elim)).appends
    exact absurd rfl (none_ p)
  | @stored v _ job db now x looks inv' found processing passage stored orchestrates =>
    let S : Event → Prop := fun event => ∀ p, event = .embeddingStored p → p = job.photoId
    have committed : Relational.Onward (protocol settings) undiminished t S v
        ((World.mk db v.log).record t [.job .embedding job.id .closed,.embeddingStored job.photoId]) :=
      ⟨passage,.own (by simp [S])⟩
    have onward := (orchestrates.onward.mono (T := S) fun event none_ p same => absurd same (none_ p)).trans
      (after.mono fun _ never => never.elim)
    have whole := (((StoresNone.of_looks looks).mono (T := S) fun event none_ p same => absurd same (none_ p)).trans
      committed).trans onward
    have same : p = job.photoId := own whole.appends p rfl
    subst same
    obtain ⟨more,grown,_⟩ := onward.appends
    exact ⟨t,_,x,w₁,stored,by simp,⟨more,grown.symm⟩,orchestrates,after.passage⟩

end runs

-- Both deliveries start after the two claims, and the second one matches the photos.
namespace Sample

end Sample

end Dalm
