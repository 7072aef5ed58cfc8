import Dalm.Relational.Waiting
import Dalm.Reachable

/-! Transactions that wait for each other. Finalizations, deletes and validations take a photo last, or
photos by their ids; a postcard takes the photos of its match by registration, and a bulk UPDATE takes
its photos as it meets them. -/
namespace Dalm
open Relational Txn

/-- The order in which rows are taken: queue entries, postcards and reports first, then participants,
then photos by their ids. -/
def RowKey.before : RowKey → RowKey → Prop
  | .photo first,.photo second => first < second
  | .photo _,_ => False
  | .participant _ _,.photo _ => True
  | .participant _ _,_ => False
  | _,.photo _ => True
  | _,.participant _ _ => True
  | _,_ => False

/-- The requests that take photos in another order than that of their ids. -/
def Request.unordered : Request → Bool
  | .send _ | .expireDue _ | .createPhoto _ _ | .todayPhoto _ _ => true
  | _ => false

namespace RowKey

theorem before_irrefl (key : RowKey) : ¬ before key key := by
  cases key <;> simp [before]

theorem before_trans {first second third : RowKey} (one : before first second)
    (two : before second third) : before first third := by
  cases first <;> cases second <;> cases third <;> simp_all only [before]
  exact lt_trans one two

end RowKey

section programs
variable {held : List RowKey}

/-- Rows that come before every photo and every participant. -/
def Low (held : List RowKey) : Prop :=
  ∀ key ∈ held, (∀ id, key.before (.photo id)) ∧ ∀ matchId userId, key.before (.participant matchId userId)

theorem low_nil : Low [] := fun _ member => by cases member

theorem low_job {queue : Queue} {id : UUID} : Low [.job queue id] := by
  simp [Low,RowKey.before]

theorem low_reportEntry {reporterId targetId : UUID} {targetType : ReportTarget} :
    Low [.reportEntry reporterId targetType targetId] := by
  simp [Low,RowKey.before]

variable {α β : Type}

/-- With the rows held, the program takes its rows in the order. -/
abbrev Climbs (p : App α) (held : List RowKey) : Prop := p.climbs RowKey.before (fun _ _ => True) held

/-- What asks for no row may hold any. -/
theorem climbs_onward {p : App α} {f : α → App β}
    (first : Climbs p held) (rest : ∀ value held, Climbs (f value) held) : Climbs (p >>= f) held := by
  refine climbs_bind.mpr (climbs_mono first fun x held _ => ?_)
  cases x with
  | ok value => exact rest value held
  | error error => trivial

theorem climbs_deletePhoto (userId photoId : UUID) : Climbs (HomeRepository.deletePhoto userId photoId) [] := by
  refine ⟨fun _ member => (List.not_mem_nil member).elim,fun photo => ?_,trivial⟩
  simp only [Txn.bind]
  split
  next => trivial
  next photo _ =>
    split
    · trivial
    · split
      · trivial
      · exact fun clock i => ⟨trivial,trivial⟩

theorem climbs_claimNext (queue : Queue) (workerId : String) (leaseSeconds : Int) :
    Climbs (claimNext queue workerId leaseSeconds) [] := by
  refine fun i db => ?_
  change Climbs (skipLockedJob queue _ _ >>= _) []
  refine climbs_bind.mpr (climbs_firstUnlocked fun found held => ?_)
  dsimp only
  split
  next => trivial
  next id job =>
    refine fun db => ?_
    simp only [Txn.bind]
    split
    next => exact fun i => ⟨trivial,trivial⟩
    next => exact fun i => ⟨trivial,trivial⟩

theorem climbs_applyResult (jobId : UUID) (result : PhotoValidationRepository.Result) :
    Climbs (PhotoValidationRepository.applyResult jobId result) [] := by
  refine fun i => ⟨fun _ member => (List.not_mem_nil member).elim,fun validation => ?_,trivial⟩
  change Climbs (if _ then (if _ then _ else _) else if _ then _ else _) _
  split
  · split <;> trivial
  · split
    · trivial
    · refine ⟨fun key member => (low_job key member).1 _,fun photo => ?_,trivial⟩
      change Climbs (if _ then _ else _) _
      split
      · trivial
      · exact fun clock i => ⟨trivial,trivial⟩

theorem climbs_recordFailure (jobId : UUID) (report : FailureReport) (maxAttempts retryBaseSeconds : Int) :
    Climbs (PhotoValidationRepository.recordFailure jobId report maxAttempts retryBaseSeconds) [] := by
  refine fun i => ⟨fun _ member => (List.not_mem_nil member).elim,fun validation => ?_,trivial⟩
  change Climbs (if _ then _ else if _ then _ else if _ then _ else if _ then _ else _) _
  split
  · trivial
  split
  · trivial
  split
  · trivial
  split
  · trivial
  refine fun clock => ?_
  change Climbs (if _ then _ else _) _
  split
  · exact fun i => ⟨trivial,trivial⟩
  · refine ⟨fun key member => (low_job key member).1 _,fun photo => ?_,trivial⟩
    exact fun i => ⟨trivial,trivial⟩

theorem climbs_lockedJob (jobId : UUID) (workerId : String) (completedOk : Bool) :
    (PhotoEmbeddingJobRepository.lockedJob jobId workerId completedOk).climbs RowKey.before
      (fun _ held => Low held) [] := by
  refine ⟨fun _ member => (List.not_mem_nil member).elim,fun job => ?_,low_nil⟩
  simp only [Txn.bind]
  split
  · split <;> exact low_job
  · split <;> exact low_job

theorem climbs_applyEmbedding (jobId : UUID) (workerId : String) (embedding : PhotoEmbeddingData) :
    (PhotoEmbeddingJobRepository.applyResult jobId workerId embedding).climbs RowKey.before
      (fun _ held => Low held) [] := by
  refine fun start => ?_
  change ((PhotoEmbeddingJobRepository.lockedJob jobId workerId true) >>= _).climbs _ _ _
  refine climbs_bind.mpr (climbs_mono (climbs_lockedJob jobId workerId true) fun x held low => ?_)
  cases x with
  | error error => exact low
  | ok job =>
    dsimp only
    split
    · exact low
    · exact fun clock i => ⟨low_nil,low⟩

theorem climbs_embeddingFailure (jobId : UUID) (report : FailureReport)
    (maxAttempts retryBaseSeconds : Int) : Climbs
      (PhotoEmbeddingJobRepository.recordFailure jobId report maxAttempts retryBaseSeconds) [] := by
  refine climbs_bind.mpr (climbs_mono (climbs_lockedJob jobId report.workerId false) fun x held low => ?_)
  cases x with
  | error error => trivial
  | ok job =>
    refine fun clock => ?_
    simp only [Txn.bind]
    split <;> exact fun i => ⟨trivial,trivial⟩

section finalization
open SqlMatchFinalizationStore

theorem orderedIds_sorted (first second : UUID) : (orderedIds first second).Pairwise (· < ·) := by
  have sorted := List.pairwise_insertionSort (· ≤ ·) (if first = second then [first] else [first,second])
  have nodup : (orderedIds first second).Nodup := by
    refine (List.perm_insertionSort _ _).nodup_iff.mpr ?_
    split <;> simp_all
  exact (sorted.and nodup).imp fun each => lt_of_le_of_ne each.1 each.2

theorem climbs_finalizeBody (first second : UUID) (explanation : List Char) (now : Time)
    (opened : Option Time) (low : Low held) : Climbs (finalizeBody first second explanation now opened) held := by
  refine fun clock db => ?_
  change Climbs (lockPhotos _ _ >>= _) held
  refine climbs_bind.mpr (climbs_lockEach ?_ ?_ fun photos held => ?_)
  · exact ((orderedIds_sorted first second).filter _).imp id
  · exact fun id _ key member => (low key member).1 id
  · dsimp only
    split
    next =>
      split
      · trivial
      split
      · trivial
      split
      · trivial
      refine fun db => ?_
      simp only [Txn.bind]
      split
      · trivial
      · exact fun i => ⟨trivial,trivial⟩
    next => trivial

/-- What is held after an attempt that failed. -/
def Freed {α : Type} (x : Except Exc α) (held : List RowKey) : Prop := ∀ error, x = .error error → Low held

theorem climbs_finalize (first second : UUID) (explanation : List Char) (now : Time) (opened : Option Time)
    (low : Low held) : (finalize first second explanation now opened).climbs RowKey.before Freed held := by
  refine climbs_rescue.mpr (climbs_mono (climbs_finalizeBody first second explanation now opened low) ?_)
  intro x held _
  cases x with
  | ok value => exact fun error same => by cases same
  | error error => exact fun _ _ => low_nil

theorem climbs_finalizeMatch (first second : UUID) (explanation : List Char) (now opened : Option Time)
    (low : Low held) : (finalizeMatch first second explanation now opened).climbs RowKey.before Freed held := by
  unfold finalizeMatch
  split
  · exact fun _ _ => low
  split
  · exact fun _ _ => low
  refine fun clock => ?_
  simp only [Txn.bind]
  split <;> exact climbs_finalize _ _ _ _ _ low

variable {K : Type} [Field K] [LinearOrder K]

theorem climbs_tryCandidates (photoId : UUID) (opened : Option Time) (expired : Bool)
    (items : List (RankedCandidate K)) (low : Low held) :
    Climbs (tryCandidates photoId opened expired items) held := by
  induction items generalizing opened expired held with
  | nil => trivial
  | cons item rest ih =>
    unfold tryCandidates attempt
    refine climbs_bind.mpr (climbs_rescue.mpr (climbs_bind.mpr (climbs_mono
      (climbs_finalizeMatch photoId item.photoId (explanation item.scores) none opened low) ?_)))
    intro x held freed
    cases x with
    | ok id => trivial
    | error error =>
      change Climbs (if _ then _ else _) held
      split
      · exact fun db => ih none true (freed error rfl)
      · trivial

variable [IsStrictOrderedRing K] [FloorRing K] (sqrt : ℚ → K)

theorem climbs_orchestrateMatch (photoId : UUID) (opened : Option Time) (low : Low held) :
    Climbs (orchestrateMatch sqrt photoId opened) held := by
  refine fun start db => ?_
  simp only [Txn.bind]
  split
  next => trivial
  next =>
    refine fun clock db => ?_
    simp only [Txn.bind]
    split
    · trivial
    split
    · trivial
    · exact fun db => climbs_tryCandidates photoId _ false _ low

theorem climbs_embeddingResult (jobId : UUID) (workerId : String) (embedding : PhotoEmbeddingData) :
    Climbs (applyPhotoEmbeddingResult sqrt jobId workerId embedding) [] := by
  refine climbs_bind.mpr (climbs_mono (climbs_applyEmbedding jobId workerId embedding) fun x held low => ?_)
  cases x with
  | error error => trivial
  | ok applied =>
    refine climbs_onward (climbs_orchestrateMatch sqrt applied.job.photoId applied.opened low) ?_
    intro result held
    split <;> trivial

end finalization

theorem climbs_flushReport (arguments : ReportRepository.Arguments) (report : Report) :
    (ReportRepository.flushReport arguments report).climbs RowKey.before (fun _ held => Low held) [] := by
  refine ⟨fun _ member => (List.not_mem_nil member).elim,fun entry db => ?_,fun db => ?_⟩
  · simp only [Txn.bind]
    split <;> exact low_reportEntry
  · simp only [Txn.bind]
    split <;> exact low_nil

theorem climbs_createForUser (arguments : ReportRepository.Arguments) :
    Climbs (ReportRepository.createForUser arguments) [] := by
  unfold ReportRepository.createForUser
  split
  · trivial
  refine fun start db => ?_
  simp only [Txn.bind]
  split
  · trivial
  refine climbs_onward (climbs_mono (climbs_flushReport arguments _) fun _ _ _ => trivial) fun _ held => ?_
  exact fun db i => ⟨trivial,trivial⟩

theorem climbs_createForPhoto (arguments : ReportRepository.Arguments) :
    Climbs (ReportRepository.createForPhoto arguments) [] := by
  refine fun start db => ?_
  simp only [Txn.bind]
  split
  · trivial
  refine climbs_bind.mpr (climbs_mono (climbs_flushReport arguments _) fun x held low => ?_)
  cases x with
  | error error => trivial
  | ok flushed =>
    refine fun db => ?_
    simp only [Txn.bind]
    split
    next => exact fun i => ⟨trivial,trivial⟩
    next row _ =>
      exact fun clock => ⟨fun key member => (low key member).2 _ _,
        fun participant i => ⟨trivial,trivial⟩,fun i => ⟨trivial,trivial⟩⟩

theorem climbs_report (arguments : ReportRepository.Arguments) :
    Climbs (ReportRepository.create arguments) [] := by
  unfold ReportRepository.create
  split
  · exact climbs_createForUser arguments
  · exact climbs_createForPhoto arguments
  · trivial

theorem climbs_get (userId postcardId : UUID) : Climbs (PostcardRepository.get userId postcardId) held := by
  refine fun db => ?_
  simp only [Txn.bind]
  split <;> trivial

theorem climbs_markRead (userId postcardId : UUID) :
    Climbs (PostcardRepository.markRead userId postcardId) [] := by
  refine fun db => ?_
  simp only [Txn.bind]
  split
  next => trivial
  next =>
    split
    · exact fun clock => ⟨fun _ member => (List.not_mem_nil member).elim,
        fun postcard i => ⟨climbs_get userId postcardId,trivial⟩,
        fun i => ⟨climbs_get userId postcardId,trivial⟩⟩
    · exact climbs_get userId postcardId

theorem climbs_delete (userId postcardId : UUID) :
    Climbs (PostcardRepository.delete userId postcardId) [] := by
  refine fun db => ?_
  simp only [Txn.bind]
  split
  next => trivial
  next => exact fun clock => ⟨fun _ member => (List.not_mem_nil member).elim,
    fun postcard i => ⟨trivial,trivial⟩,fun i => ⟨trivial,trivial⟩⟩

theorem climbs_photoImage (userId photoId : UUID) : Climbs (getPhotoImage userId photoId) [] := by
  refine fun db => ?_
  simp only [Txn.bind]
  split
  next => trivial
  next photo _ =>
    split
    next => trivial
    next key _ =>
      refine climbs_onward ?_ fun granted held => ?_
      · refine fun db => ?_
        simp only [Txn.bind]
        split
        · trivial
        · exact fun db => trivial
      · split <;> trivial

theorem climbs_block (blockerId blockedId : UUID) : Climbs (SafetyRepository.block blockerId blockedId) [] := by
  unfold SafetyRepository.block
  split
  · trivial
  refine fun start db => ?_
  simp only [Txn.bind]
  split
  · trivial
  · exact fun i => ⟨trivial,trivial⟩

section accounts
open UserRepository

theorem climbs_refresh (userId : UUID) : Climbs (refresh userId) held := by
  refine fun db => ?_
  simp only [Txn.bind]
  split <;> trivial

theorem climbs_createFrom (identity : Identity) : Climbs (createFrom identity) held := by
  refine fun i => ⟨climbs_refresh _,fun db => ?_⟩
  simp only [Txn.bind]
  split <;> trivial

theorem climbs_account (request : AccountRequest) : Climbs (accountProgram request) [] := by
  cases request with
  | login identity =>
    refine fun db => ?_
    simp only [Txn.bind]
    split
    · exact climbs_onward (climbs_createFrom identity) fun _ _ => trivial
    · trivial
  | completeOnboarding userId form =>
    refine climbs_onward ?_ fun _ _ => trivial
    refine fun db => ?_
    simp only [Txn.bind]
    split
    next => trivial
    next =>
      split
      · trivial
      · exact fun i => ⟨climbs_refresh userId,trivial⟩
  | updateProfile userId change =>
    refine climbs_onward ?_ fun _ _ => trivial
    refine fun db => ?_
    simp only [Txn.bind]
    split
    next => trivial
    next =>
      split
      · trivial
      · exact fun i => ⟨climbs_refresh userId,trivial⟩
  | withdraw userId =>
    refine climbs_onward ?_ fun _ _ => trivial
    refine fun db => ?_
    simp only [Txn.bind]
    split
    next => trivial
    next => exact fun clock i => ⟨trivial,trivial⟩

end accounts

section service
variable {K : Type} [Field K] [LinearOrder K] [IsStrictOrderedRing K] [FloorRing K]

/-- Sends and bulk UPDATEs apart, the service takes rows in the order. -/
theorem climbs_program (settings : Settings) (sqrt : ℚ → K) {r : Request} (ordered : r.unordered = false) :
    Climbs (program settings sqrt r) [] := by
  cases r with
  | createPhoto | todayPhoto | expireDue | send => cases ordered
  | photoImage userId photoId => exact climbs_onward (climbs_photoImage userId photoId) fun _ _ => trivial
  | deletePhoto userId photoId => exact climbs_onward (climbs_deletePhoto userId photoId) fun _ _ => trivial
  | claim queue workerId =>
    cases queue <;> exact climbs_onward (climbs_claimNext _ workerId _) fun _ _ => trivial
  | validationResult jobId result => exact climbs_onward (climbs_applyResult jobId result) fun _ _ => trivial
  | validationFailure jobId report =>
    exact climbs_onward (climbs_recordFailure jobId report _ _) fun _ _ => trivial
  | embeddingResult jobId workerId embedding =>
    exact climbs_onward (climbs_embeddingResult sqrt jobId workerId embedding) fun _ _ => trivial
  | embeddingFailure jobId report =>
    exact climbs_onward (climbs_embeddingFailure jobId report _ _) fun _ _ => trivial
  | finalize first second explanation now =>
    exact climbs_onward (climbs_mono (climbs_finalize first second explanation now none low_nil)
      fun _ _ _ => trivial) fun _ _ => trivial
  | block blockerId blockedId => exact climbs_onward (climbs_block blockerId blockedId) fun _ _ => trivial
  | unblock blockerId blockedId => exact fun i => ⟨trivial,trivial⟩
  | report arguments => exact climbs_onward (climbs_report arguments) fun _ _ => trivial
  | postcard userId postcardId => exact climbs_onward (climbs_get userId postcardId) fun _ _ => trivial
  | postcards userId mailbox size cursor => exact fun db => trivial
  | readPostcard userId postcardId => exact climbs_onward (climbs_markRead userId postcardId) fun _ _ => trivial
  | deletePostcard userId postcardId => exact climbs_onward (climbs_delete userId postcardId) fun _ _ => trivial
  | account request => exact climbs_account request

end service

end programs

section runs
variable {K : Type} [Field K] [LinearOrder K] [IsStrictOrderedRing K] [FloorRing K]
  {settings : Settings} {sqrt : ℚ → K} {users : Table User.id} {s : Backend}

/-- No send and no bulk UPDATE waits for a session that waits itself, for a row out of order. -/
def Uncrossed (s : Backend) : Prop :=
  ∀ t r state, s.session t = some ⟨r,state⟩ → r.unordered = true → ¬ s.Crosses RowKey.before t

/-- In a run in which no send and no bulk UPDATE waits out of order for one that waits, no session
comes to wait for itself. -/
theorem noDeadlock (runs : Runs (program settings sqrt) (fun _ _ u => Uncrossed u) (launch users) s) :
    ∀ t, ¬ Relation.TransGen s.Waits t t := by
  refine System.acyclic RowKey.before_irrefl RowKey.before_trans fun t crosses => ?_
  obtain ⟨_,_,_,_,⟨r,p,there,_⟩,_⟩ := id crosses
  cases ordered : r.unordered with
  | false =>
    exact Reach.runs_straight runs (fun _ => rfl) (fun _ => rfl) (climbs_program settings sqrt ordered)
      there crosses
  | true =>
    cases runs with
    | refl => cases there
    | tail _ link =>
      obtain ⟨_,_,uncrossed⟩ := link
      exact uncrossed t r _ there ordered crosses

end runs

namespace Sample

/-- The row a session asks for, and who holds it. -/
def asked (s : Backend) (t : Nat) : Option (RowKey × Option Nat) :=
  match s.session t with
  | some ⟨_,.inl p⟩ => p.awaits.map fun key => (key,s.store.owner key)
  | _ => none

theorem asked_of_asks {s : Backend} {t : Nat} {key : RowKey} (asks : s.Asks t key) :
    asked s t = some (key,s.store.owner key) := by
  obtain ⟨r,p,there,asks⟩ := asks
  unfold asked
  rw [there]
  simp [asks]

theorem waits_of_asked {s : Backend} {t v : Nat} {key : RowKey} (found : asked s t = some (key,some v))
    (other : v ≠ t) : s.Waits t v := by
  unfold asked at found
  split at found
  next r p there =>
    obtain ⟨_,asks,same⟩ := Option.map_eq_some_iff.mp found
    obtain ⟨rfl,owned⟩ := Prod.mk.inj same
    exact ⟨_,⟨r,p,there,asks⟩,owned,other⟩
  next => cases found

/-- Only the first sessions act, and no send or bulk UPDATE of theirs waits. -/
def flowing (action : Action Input Exc Request) (s : Backend) : Bool :=
  decide (Reach.Action.session action < 8) && (List.range 8).all fun t =>
    match s.session t with
    | some ⟨r,_⟩ => !r.unordered || (asked s t).all fun row => row.2 = none ∨ row.2 = some t
    | none => true

theorem uncrossed_of_flowing {s : Backend} (runs : Runs (program settings Rat.sqrt)
      (fun _ action u => flowing action u = true) (launch users) s) :
    Runs (program settings Rat.sqrt) (fun _ _ u => Uncrossed u) (launch users) s := by
  refine Reach.runs_imp runs fun a action b before taken holds t r state there unordered crosses => ?_
  obtain ⟨key,_,v,_,asks,owned,other,_⟩ := crosses
  obtain ⟨_,checks⟩ := (Bool.and_eq_true _ _).mp holds
  have early : t < 8 := by
    by_contra late
    have idle : b.session t = none := Reach.runs_idle (before.tail ⟨action,taken,holds⟩)
      fun _ action _ own same => late (by
        rw [← same]
        exact of_decide_eq_true ((Bool.and_eq_true _ _).mp own).1)
    rw [idle] at there
    cases there
  have flows := List.all_eq_true.mp checks t (List.mem_range.mpr early)
  rw [there] at flows
  simp only [unordered,Bool.not_true,Bool.false_or,asked_of_asks asks,owned,Option.all_some] at flows
  simp [other] at flows

/-- A finalization that waits for the first photo of a send. -/
def queued : List (Action Input Exc Request) :=
  matched ++ session 4 (.send ⟨1,300,"안녕하세요".toList,none⟩) 4 (input 6 400) ++
    session 5 (.finalize 11 12 "닮은 순간".toList 7) 2 (input 7 500)

/-- A match whose photo with the larger id was registered first: a send that holds it, and a
finalization of both photos that holds the other. -/
def entangled : List (Action Input Exc Request) :=
  session 1 (upload 12 2 true) 13 (input 0 100) ++ session 2 (upload 11 1 true) 13 (input 1 200) ++
    session 3 (.finalize 11 12 "닮은 순간".toList 5) 7 (input 5 300) ++
    session 4 (.send ⟨2,300,"안녕하세요".toList,none⟩) 4 (input 6 400) ++
    session 5 (.finalize 11 12 "닮은 순간".toList 7) 3 (input 7 500) ++ [.exec 4 (input 8 600)]

end Sample

theorem noDeadlock_queued : ∃ s : Backend, s.Waits 5 4 ∧ ∀ t, ¬ Relation.TransGen s.Waits t t := by
  obtain ⟨s,runs,waits⟩ := Sample.reachedWhile (fun _ action u => Sample.flowing action u = true)
    (fun _ action u => Sample.flowing action u) (fun _ _ _ _ passes => passes) Sample.queued
    (fun s => decide (Sample.asked s 5 = some (.photo 11,some 4))) (by decide +kernel)
  exact ⟨s,Sample.waits_of_asked (of_decide_eq_true waits) (by decide),
    noDeadlock (Sample.uncrossed_of_flowing runs)⟩

/-- The send waits for the finalization, and the finalization for the send. -/
theorem crossed_deadlock : ¬ ∀ (settings : Settings) (users : Table User.id) (s : Backend),
    Reachable settings Rat.sqrt users s → ∀ t, ¬ Relation.TransGen s.Waits t t := by
  intro claim
  obtain ⟨s,_,reachable,passes⟩ := Sample.reached Sample.entangled (fun s =>
    decide (Sample.asked s 4 = some (.photo 11,some 5)) &&
      decide (Sample.asked s 5 = some (.photo 12,some 4))) (by decide +kernel)
  obtain ⟨one,two⟩ := (Bool.and_eq_true _ _).mp passes
  exact claim _ _ s reachable 4 (.tail (.single (Sample.waits_of_asked (of_decide_eq_true one) (by decide)))
    (Sample.waits_of_asked (of_decide_eq_true two) (by decide)))

end Dalm
