import Dalm.Finalization
import Mathlib.Data.List.TakeWhile

/-! What the delivery of an embedding result comes to in any interleaving: the stretches
in which it only looks, the commits it makes and what it saw at each. -/
namespace Dalm
open Relational Held SqlMatchFinalizationStore
variable {settings : Settings} {D : Discipline Db Input Event} {r : Request} {t : Nat}
  {w w' : BackendWorld} {H : Held Db RowKey}

/-- Session `t` only looked. -/
abbrev Looks (settings : Settings) (D : Discipline Db Input Event) (t : Nat) :
    BackendWorld → BackendWorld → Prop :=
  Onward (protocol settings) D t fun event => event.isObservation

/-- One recorded look at the database. -/
structure Look (D : Discipline Db Input Event) (t : Nat) (w : BackendWorld) (event : Event) : Prop where
  observation : event.isObservation
  allowed : D.allows w (w.record t [event])

theorem Look.looks {event : Event} (look : Look D t w event) (inv : Inv settings w) :
    Looks settings D t w (w.record t [event]) := by
  have change : Change settings (.unblock 0 0) t [] w w.db [event] := .observed look.observation
  exact .own inv change.step look.allowed (by simpa using look.observation)

/-- One finalization attempted for a candidate of photo `q`. -/
inductive Attempt (settings : Settings) (D : Discipline Db Input Event) (t : Nat) (q p : UUID)
    (w : BackendWorld) : Except Exc UUID → BackendWorld → Prop where
  | refused {error : Exc} {clock : Input} {w₀ w' : BackendWorld} (called : Looks settings D t w w₀)
      (input : D.input w₀ clock) (worked : Looks settings D t w₀ w') (inv : Inv settings w')
      (reason : Refused D q p clock.now w₀ w' error) : Attempt settings D t q p w (.error error) w'
  | made {clock ids : Input} {w₀ w' : BackendWorld} {a b : Photo} {explanation : List Char}
      {start : Time} {db : Db} {events : List Event} (called : Looks settings D t w w₀)
      (input : D.input w₀ clock) (worked : Looks settings D t w₀ w') (inv : Inv settings w')
      (ready : Ready w'.db q p clock.now a b) (drawn : D.input w' ids)
      (written : finalizeWrites a b explanation clock.now start ids w'.db = some (db,events))
      (passage : Passage (protocol settings) D w' ((World.mk db w'.log).record t events))
      (after : Inv settings ((World.mk db w'.log).record t events)) :
    Attempt settings D t q p w (.ok (ids.uuid 0)) ((World.mk db w'.log).record t events)

section loop
variable {K : Type} [Field K] [LinearOrder K]

/-- The loop over the ranked candidates. -/
inductive Tries (settings : Settings) (D : Discipline Db Input Event) (t : Nat) (q : UUID) :
    BackendWorld → Bool → List (RankedCandidate K) → Except Exc Orchestrated → BackendWorld →
      Prop where
  | ended {w : BackendWorld} {expired : Bool} :
    Tries settings D t q w expired [] (.ok ⟨none,expired⟩) w
  | matched {w w' : BackendWorld} {expired : Bool} {item : RankedCandidate K}
      {rest : List (RankedCandidate K)} {id : UUID}
      (attempt : Attempt settings D t q item.photoId w (.ok id) w') :
    Tries settings D t q w expired (item :: rest) (.ok ⟨some id,expired⟩) w'
  | failed {w w' : BackendWorld} {expired : Bool} {item : RankedCandidate K}
      {rest : List (RankedCandidate K)} {error : Exc}
      (attempt : Attempt settings D t q item.photoId w (.error error) w')
      (fatal : isPassedOver error = false) :
    Tries settings D t q w expired (item :: rest) (.error error) w'
  | passed {w w' w₁ w₂ : BackendWorld} {expired : Bool} {item : RankedCandidate K}
      {rest : List (RankedCandidate K)} {error : Exc} {x : Except Exc Orchestrated}
      (attempt : Attempt settings D t q item.photoId w (.error error) w')
      (passed : isPassedOver error) (later : Looks settings D t w' w₁) (inv : Inv settings w₁)
      (look : Look D t w₁ (.passedOver q item.photoId))
      (tail : Tries settings D t q (w₁.record t [.passedOver q item.photoId]) true rest x w₂) :
    Tries settings D t q w expired (item :: rest) x w₂

end loop

section orchestration
variable {K : Type} [Field K] [LinearOrder K] [IsStrictOrderedRing K] [FloorRing K]

def listed (q : UUID) (source : Photo) (now : Time) (db : Db) :
    List SqlPhotoEmbeddingStore.EmbeddingCandidate :=
  (SqlPhotoEmbeddingStore.buildCandidateQuery q source.userId now 100 db).map
    fun (photo,embedding) => ⟨photo.id,photo.userId,photo.registeredAt,embedding.data⟩

/-- orchestrate_match for photo `q`. -/
inductive Orchestrates (settings : Settings) (D : Discipline Db Input Event) (sqrt : ℚ → K)
    (t : Nat) (q : UUID) (w : BackendWorld) : Except Exc Orchestrated → BackendWorld → Prop where
  | unembedded {w₁ : BackendWorld} (read : Looks settings D t w w₁) (inv : Inv settings w₁)
      (missing : w₁.db.embeddings.get? q = none) :
    Orchestrates settings D sqrt t q w (.ok ⟨none,false⟩) w₁
  | unavailable {w₁ w₂ w₃ : BackendWorld} {clock : Input} {error : Exc}
      (read : Looks settings D t w w₁) (inv₁ : Inv settings w₁)
      (stored : (w₁.db.embeddings.get? q).isSome) (called : Looks settings D t w₁ w₂)
      (input : D.input w₂ clock) (found : Looks settings D t w₂ w₃) (inv : Inv settings w₃)
      (gone : (w₃.db.photos.get? q).any (SqlPhotoEmbeddingStore.isSearchable clock.now) = false)
      (look : Look D t w₃ (.sourceRead q false)) :
    Orchestrates settings D sqrt t q w (.error error) (w₃.record t [.sourceRead q false])
  | tried {w₁ w₂ w₃ w₄ w₅ : BackendWorld} {clock : Input} {source : PhotoEmbedding} {photo : Photo}
      {x : Except Exc Orchestrated} (read : Looks settings D t w w₁) (inv₁ : Inv settings w₁)
      (stored : w₁.db.embeddings.get? q = some source) (called : Looks settings D t w₁ w₂)
      (input : D.input w₂ clock) (found : Looks settings D t w₂ w₃) (inv₃ : Inv settings w₃)
      (owner : w₃.db.photos.get? q = some photo)
      (searchable : SqlPhotoEmbeddingStore.isSearchable clock.now photo)
      (look₃ : Look D t w₃ (.sourceRead q true))
      (then_ : Looks settings D t (w₃.record t [.sourceRead q true]) w₄) (inv₄ : Inv settings w₄)
      (look₄ : Look D t w₄ (.candidatesListed q
        (SqlPhotoEmbeddingStore.eligibleRows q photo.userId clock.now w₄.db).length))
      (tries : Tries settings D t q (w₄.record t [.candidatesListed q
          (SqlPhotoEmbeddingStore.eligibleRows q photo.userId clock.now w₄.db).length]) false
        (rankedFor sqrt source.data (listed q photo clock.now w₄.db)) x w₅) :
    Orchestrates settings D sqrt t q w x w₅

def answer (job : Job) : Except Exc Orchestrated → Except Exc EmbeddingResultData
  | .error error => .error error
  | .ok result =>
    if result.expired then .error .missingGreenlet
    else .ok ⟨job.id,job.photoId,job.status,result.matchId⟩

/-- The whole delivery of a result for one embedding job. -/
inductive Delivers (settings : Settings) (D : Discipline Db Input Event) (sqrt : ℚ → K)
    (t : Nat) (id : UUID) (w : BackendWorld) : Except Exc EmbeddingResultData → BackendWorld →
      Prop where
  | refused {w₀ w' : BackendWorld} {start : Input} {error : Exc} (called : Looks settings D t w w₀)
      (input : D.input w₀ start) (looks : Looks settings D t w₀ w') (inv : Inv settings w')
      (open_ : ∀ job, w'.db.job? .embedding id = some job → job.status ≠ .completed) :
    Delivers settings D sqrt t id w (.error error) w'
  | repeated {w₁ w₂ : BackendWorld} {job : Job} {x : Except Exc Orchestrated}
      (looks : Looks settings D t w w₁) (inv : Inv settings w₁)
      (found : w₁.db.job? .embedding id = some job) (completed : job.status = .completed)
      (orchestrates : Orchestrates settings D sqrt t job.photoId w₁ x w₂) :
    Delivers settings D sqrt t id w (answer job x) w₂
  | stored {w₁ w₂ : BackendWorld} {job : Job} {db : Db} {now : Time} {x : Except Exc Orchestrated}
      (looks : Looks settings D t w w₁) (inv : Inv settings w₁)
      (found : w₁.db.job? .embedding id = some job) (processing : job.status = .processing)
      (passage : Passage (protocol settings) D w₁ ((World.mk db w₁.log).record t
        [.job .embedding job.id .closed,.embeddingStored job.photoId]))
      (after : Inv settings ((World.mk db w₁.log).record t
        [.job .embedding job.id .closed,.embeddingStored job.photoId]))
      (orchestrates : Orchestrates settings D sqrt t job.photoId ((World.mk db w₁.log).record t
        [.job .embedding job.id .closed,.embeddingStored job.photoId]) x w₂) :
    Delivers settings D sqrt t id w (answer (PhotoEmbeddingJobRepository.complete now job) x) w₂

end orchestration

section onward

/-- Session `t` stored no embedding. -/
abbrev StoresNone (settings : Settings) (D : Discipline Db Input Event) (t : Nat) :
    BackendWorld → BackendWorld → Prop :=
  Onward (protocol settings) D t fun event => ∀ p, event ≠ .embeddingStored p

theorem StoresNone.of_looks (looks : Looks settings D t w w') : StoresNone settings D t w w' := by
  refine looks.mono fun event observation p => ?_
  rintro rfl
  cases observation

theorem Attempt.onward {q p : UUID} {x : Except Exc UUID} (attempt : Attempt settings D t q p w x w') :
    StoresNone settings D t w w' := by
  cases attempt with
  | refused called input worked inv reason => exact StoresNone.of_looks (called.trans worked)
  | made called input worked inv ready drawn written passage after =>
    obtain ⟨rfl,_⟩ := SqlMatchFinalizationStore.finalizeWrites_eq written
    refine (StoresNone.of_looks (called.trans worked)).trans ⟨passage,.own ?_⟩
    intro event member p
    cases List.mem_singleton.mp member
    exact fun same => by cases same

theorem Tries.onward {K : Type} [Field K] [LinearOrder K] {q : UUID} {expired : Bool}
    {items : List (RankedCandidate K)} {x : Except Exc Orchestrated}
    (tries : Tries settings D t q w expired items x w') : StoresNone settings D t w w' := by
  induction tries with
  | ended => exact .refl
  | matched attempt => exact attempt.onward
  | failed attempt fatal => exact attempt.onward
  | passed attempt passed later inv look tail ih =>
    exact (attempt.onward.trans (StoresNone.of_looks (later.trans (look.looks inv)))).trans ih

theorem Orchestrates.onward {K : Type} [Field K] [LinearOrder K] [IsStrictOrderedRing K] [FloorRing K]
    {sqrt : ℚ → K} {q : UUID} {x : Except Exc Orchestrated}
    (orchestrates : Orchestrates settings D sqrt t q w x w') : StoresNone settings D t w w' := by
  cases orchestrates with
  | unembedded read inv missing => exact StoresNone.of_looks read
  | unavailable read inv₁ stored called input found inv gone look =>
    exact StoresNone.of_looks ((read.trans (called.trans found)).trans (look.looks inv))
  | tried read inv₁ stored called input found inv₃ owner searchable look₃ then_ inv₄ look₄ tries =>
    have until₃ := (read.trans (called.trans found)).trans (look₃.looks inv₃)
    exact (StoresNone.of_looks (until₃.trans (then_.trans (look₄.looks inv₄)))).trans tries.onward

end onward

section programs

theorem wp_attempt {α : Type} {program : App α}
    {Q : Except Exc (Except Exc α) → Held Db RowKey → BackendWorld → Prop}
    (pre : wp (protocol settings) D r t program (fun x H w => Q (.ok x) H w) H w) :
    wp (protocol settings) D r t (attempt program) Q H w := by
  unfold attempt
  apply wp_rescue
  apply wp_bind
  refine wp_mono pre fun x H w done => ?_
  cases x <;> exact done

theorem strip_ne_nil {text : List Char} {c : Char} (member : c ∈ text) (visible : isSpace c = false) :
    strip text ≠ [] := by
  have dropped : ∀ {l : List Char}, c ∈ l → c ∈ l.dropWhile isSpace := by
    intro l inside
    rw [← List.takeWhile_append_dropWhile (p := isSpace) (l := l),List.mem_append] at inside
    refine inside.resolve_left fun before => ?_
    have space := List.mem_takeWhile_imp before
    rw [visible] at space
    cases space
  have kept : c ∈ strip text := by
    unfold strip
    rw [List.mem_reverse]
    exact dropped (List.mem_reverse.mpr (dropped member))
  exact List.ne_nil_of_mem kept

variable {K : Type} [Field K] [LinearOrder K]

theorem strip_explanation (scores : FeatureScores K) : strip (explanation scores) ≠ [] := by
  have member : '닮' ∈ explanation scores := by
    unfold explanation
    dsimp only
    rw [List.mem_append]
    exact .inr (by decide)
  exact strip_ne_nil member (by decide)

theorem wp_finalizeMatch {q p : UUID} {text : List Char} {opened : Option Time}
    {Q : Except Exc UUID → Held Db RowKey → BackendWorld → Prop}
    (asked : ∃ id workerId embedding, r = .embeddingResult id workerId embedding)
    (different : q ≠ p) (explained : strip text ≠ [])
    (ends : ∀ x w', Attempt settings D t q p w x w' → Q x [] w') :
    wp (protocol settings) D r t (finalizeMatch q p text none opened) Q H w := by
  unfold finalizeMatch
  rw [if_neg different,if_neg explained]
  apply wp_supply
  intro clock w₀ called input
  have concludes : ∀ text, Concludes settings D t q p text clock.now w₀ Q := by
    refine fun text => ⟨?_,?_⟩
    · intro error w' worked inv reason
      exact ends _ w' (.refused called.onward input worked inv reason)
    · intro a b start ids w' db events worked inv ready drawn written passage after
      exact ends _ _ (.made called.onward input worked inv ready drawn written passage after)
  split
  · exact wp_finalize (.inr asked) (concludes _)
  · refine wp_finalize (.inr asked) ⟨?_,?_⟩
    · intro error w' worked inv reason
      exact (concludes (strip text)).failed error w' worked inv reason.symm
    · intro a b start ids w' db events worked inv ready
      exact (concludes (strip text)).done a b start ids w' db events worked inv ready.symm

theorem wp_tryCandidates {q : UUID} {opened : Option Time} {expired : Bool}
    {items : List (RankedCandidate K)}
    {Q : Except Exc Orchestrated → Held Db RowKey → BackendWorld → Prop}
    (asked : ∃ id workerId embedding, r = .embeddingResult id workerId embedding)
    (others : ∀ item ∈ items, item.photoId ≠ q)
    (ends : ∀ x K w', Tries settings D t q w expired items x w' → Q x K w') :
    wp (protocol settings) D r t (tryCandidates q opened expired items) Q H w := by
  induction items generalizing opened expired H w with
  | nil => exact ends _ _ _ .ended
  | cons item rest ih =>
    unfold tryCandidates
    apply wp_bind
    apply wp_attempt
    refine wp_finalizeMatch asked (others item List.mem_cons_self).symm (strip_explanation _) ?_
    intro x w' attempt
    cases x with
    | ok id => exact ends _ _ _ (.matched attempt)
    | error error =>
      dsimp only
      split
      next passed =>
        apply wp_observe
        intro w₁ later allowed
        have look : Look D t w₁ (.passedOver q item.photoId) := ⟨rfl,allowed⟩
        have change : Change settings r t (keys ([] : Held Db RowKey)) w₁ w₁.db [.passedOver q item.photoId] :=
          .observed rfl
        refine ⟨change.step,ih (fun other member => others other (List.mem_cons_of_mem _ member)) ?_⟩
        exact fun x K w₂ tail => ends x K w₂ (.passed attempt passed later.onward later.inv look tail)
      next fatal => exact ends _ _ _ (.failed attempt (by simpa using fatal))

end programs

section delivery
variable {K : Type} [Field K] [LinearOrder K] [IsStrictOrderedRing K] [FloorRing K] {sqrt : ℚ → K}

theorem mem_eligibleRows {q u : UUID} {now : Time} {db : Db} {entry : Photo × PhotoEmbedding} :
    entry ∈ SqlPhotoEmbeddingStore.eligibleRows q u now db ↔
      db.photos.get? entry.1.id = some entry.1 ∧
      SqlPhotoEmbeddingStore.eligible db q u now entry.1 ∧
      db.embeddings.get? entry.1.id = some entry.2 := by
  simp only [SqlPhotoEmbeddingStore.eligibleRows,List.mem_insertionSort,List.mem_filterMap,
    List.mem_filter,Option.map_eq_some_iff]
  constructor
  · rintro ⟨photo,⟨member,able⟩,embedding,stored,rfl⟩
    exact ⟨Table.mem_rows.mp member,able,stored⟩
  · rintro ⟨found,able,stored⟩
    exact ⟨entry.1,⟨Table.mem_rows.mpr found,able⟩,entry.2,stored,rfl⟩

theorem mem_rankedFor {source : PhotoEmbeddingData}
    {candidates : List SqlPhotoEmbeddingStore.EmbeddingCandidate} {item : RankedCandidate K} :
    item ∈ rankedFor sqrt source candidates ↔ ∃ candidate ∈ candidates,
      qualifies .default .default (scoreEmbeddings sqrt source candidate.embedding) ∧
      item = ⟨candidate.photoId,scoreEmbeddings sqrt source candidate.embedding,
        round6 (finalScore .default (scoreEmbeddings sqrt source candidate.embedding))⟩ := by
  simp only [rankedFor,rankCandidates,List.mem_insertionSort,List.mem_map,List.mem_filter]
  constructor
  · rintro ⟨_,⟨⟨candidate,member,rfl⟩,passes⟩,rfl⟩
    exact ⟨candidate,member,passes,rfl⟩
  · rintro ⟨candidate,member,passes,rfl⟩
    exact ⟨_,⟨⟨candidate,member,rfl⟩,passes⟩,rfl⟩

private theorem others_of_listed {q : UUID} {photo : Photo} {now : Time} {db : Db}
    {source : PhotoEmbeddingData} :
    ∀ item ∈ rankedFor sqrt source (listed q photo now db), item.photoId ≠ q := by
  intro item member
  obtain ⟨candidate,inside,_,rfl⟩ := mem_rankedFor.mp member
  obtain ⟨entry,taken,rfl⟩ := List.mem_map.mp inside
  have able := (mem_eligibleRows.mp (List.mem_of_mem_take taken)).2.1
  exact (of_decide_eq_true able).1

theorem wp_orchestrateMatch {q : UUID} {opened : Option Time}
    {Q : Except Exc Orchestrated → Held Db RowKey → BackendWorld → Prop}
    (asked : ∃ id workerId embedding, r = .embeddingResult id workerId embedding)
    (ends : ∀ x K w', Orchestrates settings D sqrt t q w x w' → Q x K w') :
    wp (protocol settings) D r t (orchestrateMatch sqrt q opened) Q H w := by
  unfold orchestrateMatch
  apply wp_supply
  intro start w₀ later₀ _
  apply wp_query
  intro w₁ later₁
  have read := (later₀.trans later₁).onward (S := fun event => event.isObservation = true)
  split
  next missing => exact ends _ _ _ (.unembedded read later₁.inv missing)
  next source stored =>
    apply wp_bind
    unfold SqlPhotoEmbeddingStore.listCandidates
    rw [if_neg (by decide)]
    simp only [Option.getD_none]
    apply wp_supply
    intro clock w₂ later₂ input
    apply wp_observe
    intro w₃ later₃ allowed₃
    have change₃ : Change settings r t (keys H) w₃ w₃.db
        [.sourceRead q ((w₃.db.photos.get? q).any (SqlPhotoEmbeddingStore.isSearchable clock.now))] :=
      .observed rfl
    refine ⟨change₃.step,?_⟩
    have look₃ : Look D t w₃
        (.sourceRead q ((w₃.db.photos.get? q).any (SqlPhotoEmbeddingStore.isSearchable clock.now))) :=
      ⟨rfl,allowed₃⟩
    cases owner : w₃.db.photos.get? q with
    | none =>
      rw [owner] at look₃
      exact ends _ _ _ (.unavailable read later₁.inv (by rw [stored]; rfl) later₂.onward input
        later₃.onward later₃.inv (by rw [owner]; rfl) look₃)
    | some photo =>
      rw [owner] at look₃
      dsimp only [Option.any_some] at look₃ ⊢
      split
      next closed =>
        rw [Bool.not_eq_true] at closed
        rw [closed] at look₃ ⊢
        exact ends _ _ _ (.unavailable read later₁.inv (by rw [stored]; rfl) later₂.onward input
          later₃.onward later₃.inv (by rw [owner]; exact closed) look₃)
      next searchable =>
        rw [not_not] at searchable
        rw [searchable] at look₃ ⊢
        apply wp_observe
        intro w₄ later₄ allowed₄
        have change₄ : Change settings r t (keys H) w₄ w₄.db [.candidatesListed q
            (SqlPhotoEmbeddingStore.eligibleRows q photo.userId clock.now w₄.db).length] :=
          .observed rfl
        refine ⟨change₄.step,?_⟩
        apply wp_tryCandidates asked
        · exact others_of_listed
        · intro x K w₅ tries
          exact ends x K w₅ (.tried read later₁.inv stored later₂.onward input later₃.onward later₃.inv
            owner searchable look₃ later₄.onward later₄.inv ⟨rfl,allowed₄⟩ tries)

theorem wp_applyPhotoEmbeddingResult {id : UUID} {workerId : String} {embedding : PhotoEmbeddingData}
    {Q : Except Exc EmbeddingResultData → Held Db RowKey → BackendWorld → Prop}
    (asked : r = .embeddingResult id workerId embedding)
    (ends : ∀ x K w', Delivers settings D sqrt t id w x w' → Q x K w') :
    wp (protocol settings) D r t (applyPhotoEmbeddingResult sqrt id workerId embedding) Q [] w := by
  have orchestrated : ∀ {w₁ : BackendWorld} {H : Held Db RowKey} {job : Job} {opened : Option Time},
      (∀ x w₂, Orchestrates settings D sqrt t job.photoId w₁ x w₂ →
        Delivers settings D sqrt t id w (answer job x) w₂) →
      wp (protocol settings) D r t (orchestrateMatch sqrt job.photoId opened >>= fun result =>
        if result.expired then throw .missingGreenlet
        else return ⟨job.id,job.photoId,job.status,result.matchId⟩) Q H w₁ := by
    intro w₁ H job opened delivers
    apply wp_bind
    apply wp_orchestrateMatch ⟨id,workerId,embedding,asked⟩
    intro x K w₂ orchestrates
    have answered := delivers x w₂ orchestrates
    cases x with
    | error error => exact ends _ K w₂ answered
    | ok result =>
      dsimp only [answer] at answered ⊢
      split
      next expired =>
        rw [if_pos expired] at answered
        exact ends _ K w₂ answered
      next fresh =>
        rw [if_neg fresh] at answered
        exact ends _ K w₂ answered
  unfold applyPhotoEmbeddingResult
  apply wp_bind
  unfold PhotoEmbeddingJobRepository.applyResult
  apply wp_supply
  intro start w₀ later₀ input₀
  apply wp_lockedJob
  · intro error K w₁ later₁ open_
    refine ends _ K w₁ (.refused later₀.onward input₀ later₁.onward later₁.inv ?_)
    exact fun job found completed => by cases open_ job found completed
  · intro w₁ job later₁ found mine
    have looks := later₀.onward (S := fun event => event.isObservation = true)
    split
    next completed =>
      apply orchestrated
      intro x w₂ orchestrates
      exact .repeated (looks.trans later₁.onward) later₁.inv found completed orchestrates
    next open_ =>
      have owned := mine.resolve_left (fun both => open_ both.2)
      apply wp_supply
      intro clock w₂ later₂ _
      have looks₂ := later₁.onward.trans (later₂.onward (S := fun event => event.isObservation = true))
      apply wp_commit
      · intro ids w₃ later₃ _ _
        refine ends _ _ w₃ (.refused later₀.onward input₀ (looks₂.trans later₃.onward) later₃.inv ?_)
        intro other present
        have same := ((holds_cons _ _ _).mp later₃.holds).1.symm.trans present
        cases Option.some.inj same
        exact open_
      · intro ids w₃ db events later₃ _ written allowed
        have seen := ((holds_cons _ _ _).mp later₃.holds).1
        have change : Change settings r t [.job .embedding id] w₃ db events :=
          .embedded asked (by simp) seen owned written
        have after := change.inv later₃.inv
        refine ⟨change.step,?_⟩
        obtain ⟨rfl,_⟩ := PhotoEmbeddingJobRepository.resultWrites_eq written
        apply orchestrated
        intro x w₄ orchestrates
        exact .stored (looks.trans (looks₂.trans later₃.onward)) later₃.inv seen owned.1
          (.single ⟨r,t,_,later₃.inv,change.step,allowed⟩) after orchestrates

end delivery

end Dalm
