import Dalm.Reachable
import Dalm.Relational.Alone
import Dalm.Relational.Ordered

/-! What an empty claim means. A claim takes the first job that is due, by creation; where the
photo of that one is of no use any more it closes the job and comes back with nothing. -/
namespace Dalm
open Relational Txn

instance : Std.Total claimedBefore where
  total a b := by
    unfold claimedBefore
    rcases lt_trichotomy a.createdAt b.createdAt with before | same | after
    · exact .inl (.inl before)
    · exact (le_total a.id b.id).imp (fun le => .inr ⟨same,le⟩) fun le => .inr ⟨same.symm,le⟩
    · exact .inr (.inl after)

instance : IsTrans _ claimedBefore where
  trans a b c := by
    intro first second
    rcases first with before | ⟨same,le⟩
    · rcases second with before' | ⟨same',_⟩
      · exact .inl (before.trans before')
      · exact .inl (same' ▸ before)
    · rcases second with before' | ⟨same',le'⟩
      · exact .inl (same ▸ before')
      · exact .inr ⟨same.trans same',le.trans le'⟩

theorem claimedBefore_antisymm {a b : Job} (forward : claimedBefore a b) (backward : claimedBefore b a) :
    a.id = b.id := by
  rcases forward with before | ⟨same,le⟩
  · rcases backward with after | ⟨same,_⟩
    · exact absurd after (lt_asymm before)
    · exact absurd same before.ne'
  · rcases backward with after | ⟨_,le'⟩
    · exact absurd same after.ne'
    · exact le_antisymm le le'

section queue
variable {queue : Queue} {leaseSeconds : Int} {now : Time} {workerId : String} {db : Db} {job : Job}

/-- The photo of a job, where it is still of use. -/
def usablePhoto (queue : Queue) (db : Db) (job : Job) : Option Photo :=
  (db.photos.get? job.photoId).filter fun photo =>
    photo.status = queue.usable ∧ photo.storageKey.isSome

/-- The first job that is due, by creation. -/
def firstDue (queue : Queue) (leaseSeconds : Int) (now : Time) (db : Db) : Option Job :=
  (((db.jobs queue).filter (claimable leaseSeconds now)).insertionSort claimedBefore).head?

/-- A job that is due and whose photo is still of use. -/
structure Waiting (queue : Queue) (leaseSeconds : Int) (now : Time) (db : Db) (job : Job) : Prop where
  there : job ∈ db.jobs queue
  due : claimable leaseSeconds now job
  usable : (usablePhoto queue db job).isSome

/-- An answer is empty where no job waits, and else hands out the first job that does. -/
def Serves (queue : Queue) (leaseSeconds : Int) (workerId : String) (now : Time) (db : Db)
    (answer : Except Exc (Option (Job × Photo))) : Prop :=
  ((∀ job, ¬ Waiting queue leaseSeconds now db job) ∧ answer = .ok none) ∨
    ∃ job photo, Waiting queue leaseSeconds now db job ∧ usablePhoto queue db job = some photo ∧
      (∀ other, Waiting queue leaseSeconds now db other → claimedBefore job other) ∧
      answer = .ok (some (handOut workerId now job,photo))

theorem firstDue_none (none_ : firstDue queue leaseSeconds now db = none) :
    ∀ job ∈ db.jobs queue, ¬ claimable leaseSeconds now job :=
  fun job member due => Bool.eq_false_iff.mp (head?_eq_none none_ job member) due

theorem firstDue_some (found : firstDue queue leaseSeconds now db = some job) :
    job ∈ db.jobs queue ∧ claimable leaseSeconds now job ∧
      ∀ other ∈ db.jobs queue, claimable leaseSeconds now other → claimedBefore job other :=
  head?_eq_some found

theorem alone_claimNext (queue : Queue) (workerId : String) (leaseSeconds : Int) (t : Nat)
    (inputs : Nat → Input) (n : Nat) (w : BackendWorld) :
    (alone t inputs (claimNext queue workerId leaseSeconds) n w).result =
      .ok ((firstDue queue leaseSeconds (inputs n).now w.db).bind fun job =>
        (usablePhoto queue w.db job).map fun photo => (handOut workerId (inputs n).now job,photo)) := by
  rw [claimNext,alone_supply,alone_query]
  cases listed : ((w.db.jobs queue).filter (claimable leaseSeconds (inputs n).now)).insertionSort
      claimedBefore with
  | nil =>
    have none_ : firstDue queue leaseSeconds (inputs n).now w.db = none := by
      rw [firstDue,listed]
      rfl
    rw [none_]
    rfl
  | cons job rest =>
    have first : firstDue queue leaseSeconds (inputs n).now w.db = some job := by
      rw [firstDue,listed]
      rfl
    obtain ⟨member,due,_⟩ := firstDue_some first
    have found : (Lockable.view (RowKey.job queue job.id) w.db).filter
        (claimable leaseSeconds (inputs n).now) = some job :=
      Option.filter_eq_some_iff.mpr ⟨Db.job?_of_mem member,due⟩
    rw [List.map_cons,skipLockedJob,alone_firstUnlocked_cons found,first,Option.bind_some]
    dsimp only
    rw [alone_query]
    cases usable : usablePhoto queue w.db job with
    | none =>
      have gone : (w.db.photos.get? job.photoId).filter (fun photo =>
          photo.status = queue.usable ∧ photo.storageKey.isSome) = none := usable
      rw [gone]
      dsimp only
      rw [alone_commitOr]
      rfl
    | some photo =>
      have kept : (w.db.photos.get? job.photoId).filter (fun photo =>
          photo.status = queue.usable ∧ photo.storageKey.isSome) = some photo := usable
      rw [kept]
      dsimp only
      rw [alone_commitOr]
      rfl

/-- A claim that runs alone serves its queue exactly if no job waits or the first job that is due
is one that waits. -/
theorem claimServes (queue : Queue) (workerId : String) (leaseSeconds : Int) (t : Nat)
    (inputs : Nat → Input) (n : Nat) (w : BackendWorld) :
    Serves queue leaseSeconds workerId (inputs n).now w.db
        (alone t inputs (claimNext queue workerId leaseSeconds) n w).result ↔
      (∀ job, ¬ Waiting queue leaseSeconds (inputs n).now w.db job) ∨
        ∃ job, Waiting queue leaseSeconds (inputs n).now w.db job ∧
          ∀ other ∈ w.db.jobs queue, claimable leaseSeconds (inputs n).now other →
            claimedBefore job other := by
  rw [alone_claimNext]
  cases first : firstDue queue leaseSeconds (inputs n).now w.db with
  | none =>
    have idle : ∀ job, ¬ Waiting queue leaseSeconds (inputs n).now w.db job :=
      fun job waiting => firstDue_none first job waiting.there waiting.due
    exact iff_of_true (.inl ⟨idle,rfl⟩) (.inl idle)
  | some job =>
    obtain ⟨member,due,earliest⟩ := firstDue_some first
    rw [Option.bind_some]
    cases usable : usablePhoto queue w.db job with
    | some photo =>
      have waiting : Waiting queue leaseSeconds (inputs n).now w.db job := by
        refine ⟨member,due,?_⟩
        rw [usable]
        rfl
      have before := fun other (waits : Waiting queue leaseSeconds (inputs n).now w.db other) =>
        earliest other waits.there waits.due
      exact iff_of_true (.inr ⟨job,photo,waiting,usable,before,rfl⟩) (.inr ⟨job,waiting,earliest⟩)
    | none =>
      constructor
      · rintro (⟨idle,_⟩ | ⟨other,photo,_,_,_,answered⟩)
        · exact .inl idle
        · cases answered
      · rintro (idle | ⟨other,waiting,before⟩)
        · exact .inl ⟨idle,rfl⟩
        · have same := claimedBefore_antisymm (before job member due)
            (earliest other waiting.there waiting.due)
          have found := Db.job?_of_mem waiting.there
          rw [same] at found
          have equal := Option.some.inj (found.symm.trans (Db.job?_of_mem member))
          have there := waiting.usable
          rw [equal,usable] at there
          cases there

end queue

namespace Sample

/-- An upload that is deleted before its validation, and one that waits. -/
def withdrawnUpload : List (Action Input Exc Request) :=
  uploaded ++ session 2 (.deletePhoto 1 11) 4 (input 1 200) ++
    session 3 (upload 12 2 false) 13 (input 2 300)

end Sample

/-- A validation waits and the claim comes back empty. -/
theorem claim_misses_waiting : ¬ ∀ (settings : Settings) (users : Table User.id) (s : Backend)
    (queue : Queue) (workerId : String) (leaseSeconds : Int) (t : Nat) (inputs : Nat → Input),
    Reachable settings Rat.sqrt users s → Serves queue leaseSeconds workerId (inputs 0).now s.world.db
      (alone t inputs (claimNext queue workerId leaseSeconds) 0 s.world).result := by
  intro serves
  obtain ⟨s,_,reachable,test⟩ := Sample.reached Sample.withdrawnUpload (fun s =>
    ((s.world.db.jobs .validation).any fun job =>
      claimable 300 3 job && (usablePhoto .validation s.world.db job).isSome) &&
    decide ((alone 4 (fun _ => Sample.input 3 400) (claimNext .validation "worker" 300) 0 s.world).result =
      .ok none)) (by decide)
  obtain ⟨waits,empty⟩ := (Bool.and_eq_true _ _).mp test
  obtain ⟨job,member,both⟩ := List.any_eq_true.mp waits
  obtain ⟨due,usable⟩ := (Bool.and_eq_true _ _).mp both
  rcases serves _ _ s .validation "worker" 300 4 (fun _ => Sample.input 3 400) reachable with
    ⟨idle,_⟩ | ⟨_,_,_,_,_,answered⟩
  · exact idle job ⟨member,due,usable⟩
  · cases (of_decide_eq_true empty).symm.trans answered

end Dalm
