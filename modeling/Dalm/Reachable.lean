import Dalm.Deliveries
import Dalm.Turns
import Mathlib.Data.Rat.Floor
import Mathlib.Data.Rat.Sqrt

/-! Every reachable system keeps the invariant, every step of it is a change of the
session that acts or none, and a delivery that ended went one of the known ways. -/
namespace Dalm
open Relational Held

section runs
variable {K : Type} [Field K] [LinearOrder K] [IsStrictOrderedRing K] [FloorRing K]
  {settings : Settings} {sqrt : ℚ → K} {D : Discipline Db Input Event}

/-- What a session that ended leaves to be known. -/
def Outcome (settings : Settings) (D : Discipline Db Input Event) (sqrt : ℚ → K) :
    Request → Nat → Except Exc Response → BackendWorld → Prop
  | .validationResult _ _,_,x,_ =>
      x = .error .integrityError → VerdictRefused settings D
  | .embeddingResult id _ _,t,x,w' => ∃ w₀ w₁ y, Inv settings w₀ ∧ (∀ entry ∈ w₀.log, entry.1 ≠ t) ∧
      Delivers settings D sqrt t id w₀ y w₁ ∧ x = y.map .delivered ∧
      Onward (protocol settings) D t (fun _ => False) w₁ w'
  | _,_,_,_ => True

theorem Outcome.later {r : Request} {t : Nat} {x : Except Exc Response} {w w' : BackendWorld}
    (outcome : Outcome settings D sqrt r t x w) (later : Later (protocol settings) D t [] w w') :
    Outcome settings D sqrt r t x w' := by
  cases r with
  | validationResult job result => exact outcome
  | embeddingResult id worker embedding =>
    obtain ⟨w₀,w₁,y,inv,silent,delivers,same,onward⟩ := outcome
    exact ⟨w₀,w₁,y,inv,silent,delivers,same,onward.trans later.onward⟩
  | _ => trivial

private theorem wp_return {r : Request} {t : Nat} {α : Type} {p : App α} {f : α → Response}
    {w : BackendWorld} (pre : wp (protocol settings) D r t p (fun _ _ _ => True) [] w) :
    wp (protocol settings) D r t (p >>= fun a => return f a) (fun _ _ _ => True) [] w := by
  apply wp_bind
  refine wp_mono pre fun x _ _ _ => ?_
  cases x <;> trivial

theorem meets (settings : Settings) (D : Discipline Db Input Event) (sqrt : ℚ → K) :
    Meets (protocol settings) D (Outcome settings D sqrt) (program settings sqrt) := by
  intro r t w inv silent
  cases r with
  | createPhoto arguments mock => exact wp_return (HomeRepository.wp_createPhoto rfl fun _ _ _ => trivial)
  | todayPhoto user today => exact wp_return (HomeRepository.wp_getTodayPhoto rfl fun _ _ _ => trivial)
  | photoImage user photo => exact wp_return (HomeRepository.wp_getPhotoImage fun _ _ _ => trivial)
  | deletePhoto user photo => exact wp_return (HomeRepository.wp_deletePhoto rfl fun _ _ _ => trivial)
  | claim queue worker => cases queue <;> exact wp_return (wp_claimNext rfl fun _ _ _ => trivial)
  | validationResult job result =>
    apply wp_bind
    apply wp_applyResult rfl
    intro x H w refused
    cases x with
    | ok job => exact fun same => by cases same
    | error error => exact fun same => refused (by cases same; rfl)
  | validationFailure job report => exact wp_return (wp_recordFailure rfl fun _ _ _ => trivial)
  | embeddingResult id worker embedding =>
    apply wp_bind
    apply wp_applyPhotoEmbeddingResult rfl
    intro y K w' delivers
    have outcome : Outcome settings D sqrt (.embeddingResult id worker embedding) t
        (y.map .delivered) w' := ⟨w,w',y,inv,silent,delivers,rfl,.refl⟩
    cases y <;> exact outcome
  | embeddingFailure job report => exact wp_return (wp_recordEmbeddingFailure rfl fun _ _ _ => trivial)
  | expireDue now => exact wp_return (wp_expireDue rfl fun _ _ _ => trivial)
  | finalize first second explanation now =>
    refine wp_return (wp_finalize (.inl ⟨first,second,explanation,rfl⟩) ⟨?_,?_⟩) <;> intros <;> trivial
  | block blocker blocked => exact wp_return (wp_block rfl fun _ _ _ => trivial)
  | unblock blocker blocked => exact wp_return (wp_unblock rfl fun _ _ _ => trivial)
  | report arguments => exact wp_return (wp_createReport rfl fun _ _ _ => trivial)
  | send draft => exact wp_return (wp_send rfl fun _ _ _ => trivial)
  | postcard user postcard => exact wp_return (wp_get fun _ _ _ => trivial)
  | postcards user mailbox size cursor => exact wp_return (wp_list fun _ _ _ => trivial)
  | readPostcard user postcard => exact wp_return (wp_markRead rfl fun _ _ _ => trivial)
  | deletePostcard user postcard => exact wp_return (wp_deletePostcard rfl fun _ _ _ => trivial)
  | account request => exact wp_account rfl fun _ _ _ => trivial

theorem good_of_reach {users : Table User.id} {s : Backend}
    (reach : Reach (program settings sqrt) D (launch users) s) :
    ∃ H, Good (protocol settings) D (Outcome settings D sqrt) s H :=
  reach.good ⟨_,.initial _ (inv_launch settings users)⟩ (meets settings D sqrt)
    fun _ _ _ _ _ outcome later => outcome.later later

/-- Where no session dies, one that ended left its outcome. -/
theorem outcome_of_reach {users : Table User.id} {s : Backend} {t : Nat} {r : Request}
    {x : Except Exc Response} (reach : Reach (program settings sqrt) D (launch users) s)
    (immortal : ¬ D.deaths) (ended : s.session t = some ⟨r,.inr x⟩) :
    Outcome settings D sqrt r t x s.world := by
  obtain ⟨H,good⟩ := good_of_reach reach
  have settled := good.settled t _ ended
  exact settled.resolve_right immortal

/-- The systems any interleaving of any requests leads to. -/
def Reachable (settings : Settings) (sqrt : ℚ → K) (users : Table User.id) (s : Backend) : Prop :=
  Reach (program settings sqrt) Discipline.none (launch users) s

theorem Reachable.inv {users : Table User.id} {s : Backend}
    (reachable : Reachable settings sqrt users s) : Inv settings s.world := by
  obtain ⟨H,good⟩ := good_of_reach reachable
  exact good.inv

/-- A step that changes the world is a change of the session that acts, on rows it holds. -/
theorem Reachable.change {users : Table User.id} {s u : Backend} {action : Action Input Exc Request}
    (reachable : Reachable settings sqrt users s)
    (taken : s.step (program settings sqrt) action = some u) :
    u.world = s.world ∨ ∃ t i session held db events, action = .exec t i ∧
      s.session t = some session ∧ (∀ key ∈ held, s.store.owner key = some t) ∧
      Change settings session.request t held s.world db events ∧
      u.world = (World.mk db s.world.log).record t events := by
  obtain ⟨H,good⟩ := good_of_reach reachable
  refine (good.change taken (Reach.admits_none action)).imp id ?_
  rintro ⟨t,i,session,same,present,db,events,change,written⟩
  exact ⟨t,i,session,_,db,events,same,present,fun key => (good.owner t key).mpr,change,written⟩

/-- From any point on the run may be under another discipline: a session that starts after it and ends
leaves its outcome under that one. -/
theorem Reachable.outcome {users : Table User.id} {s u : Backend} {t : Nat} {r : Request}
    {x : Except Exc Response} (reachable : Reachable settings sqrt users s)
    (run : Reach (program settings sqrt) D s u) (later : s.session t = none) (immortal : ¬ D.deaths)
    (ended : u.session t = some ⟨r,.inr x⟩) : Outcome settings D sqrt r t x u.world := by
  obtain ⟨H,good⟩ := good_of_reach reachable
  have narrowed : Good (protocol settings) D (fun r v x w => s.session v = none →
      Outcome settings D sqrt r v x w) s H := good.narrow (fun _ _ _ => trivial) fun _ _ _ => trivial
  obtain ⟨H',good'⟩ := run.good ⟨H,narrowed⟩
    (fun r v w inv silent => wp_mono (meets settings D sqrt r v w inv silent) fun _ _ _ outcome _ => outcome)
    fun _ _ _ _ _ outcome later absent => (outcome absent).later later
  exact (good'.settled t _ ended).resolve_right immortal later

theorem Reachable.trans {users : Table User.id} {s u : Backend}
    (reachable : Reachable settings sqrt users s) (run : Reach (program settings sqrt) D s u) :
    Reachable settings sqrt users u := Reach.trans reachable run.free

theorem Reachable.preserves {users : Table User.id} {s u : Backend} {F : BackendWorld → Prop}
    (reachable : Reachable settings sqrt users s) (run : Reach (program settings sqrt) D s u)
    (start : F s.world) (each : ∀ r t held a db events, Inv settings a →
      Change settings r t held a db events → D.allows a ((World.mk db a.log).record t events) →
      F a → F ((World.mk db a.log).record t events)) : F u.world := by
  induction run with
  | refl => exact start
  | @step v u action before taken admitted ih =>
    have here := reachable.trans before
    rcases here.change taken with same | ⟨t,i,session,held,db,events,rfl,present,_,change,same⟩
    · rw [same]
      exact ih
    · have allowed := admitted.2
      rw [same] at allowed ⊢
      exact each _ t held _ db events here.inv change allowed ih

theorem Reachable.stays {users : Table User.id} {s u : Backend} {action : Action Input Exc Request}
    (reachable : Reachable settings sqrt users s)
    (taken : s.step (program settings sqrt) action = some u) {p : UUID} {photo : Photo}
    (found : s.world.db.photos.get? p = some photo) :
    ∃ photo', u.world.db.photos.get? p = some photo' ∧ photo.Follows photo' := by
  rcases reachable.change taken with same | ⟨t,i,session,held,db,events,_,_,_,change,same⟩
  · rw [same]
    exact ⟨photo,found,.refl photo⟩
  · obtain ⟨photo',after,_,follows⟩ := change.photo found
    rw [same]
    exact ⟨photo',after,follows⟩

end runs

-- Three users and the sessions they start, for runs on fixed inputs.
namespace Sample

def users : Table User.id :=
  ⟨[⟨1,some "1",none,some "first",none,none,false,.active,none⟩,
    ⟨2,some "2",none,some "second",none,none,false,.active,none⟩,
    ⟨3,some "3",none,some "third",none,none,false,.active,none⟩],by decide⟩

def settings : Settings := ⟨3,30,300⟩

def input (now : Time) (base : Nat) : Input := ⟨now,fun n => Fin.ofNat _ (base + n),[]⟩

/-- Seoul is nine hours ahead. -/
def seoulDate (instant : Time) : Date := (instant + minutes 540) / days 1

/-- A session that starts and takes `n` statements. -/
def session (t : Nat) (r : Request) (n : Nat) (i : Input) : List (Action Input Exc Request) :=
  .start t r :: List.replicate n (.exec t i)

def upload (photo user : UUID) (mock : Bool) : Request :=
  .createPhoto ⟨photo,user,"",toString photo.val,toString photo.val,0⟩ mock

/-- Where the service is after these actions, with the rational square root. -/
def after (actions : List (Action Input Exc Request)) : Option Backend :=
  (launch users).run (program settings Rat.sqrt) actions

theorem reached (actions : List (Action Input Exc Request)) (test : Backend → Bool)
    (passes : (after actions).any test = true) :
    ∃ s, after actions = some s ∧ Reachable settings Rat.sqrt users s ∧ test s = true := by
  obtain ⟨s,ran,passed⟩ := (Option.any_eq_true test (after actions)).mp passes
  exact ⟨s,ran,Reach.of_run ran,passed⟩

/-- The same, when every step passes a check on the way. -/
def afterWhile (check : Backend → Action Input Exc Request → Backend → Bool)
    (actions : List (Action Input Exc Request)) : Option Backend :=
  (launch users).runWhile (program settings Rat.sqrt) check actions

theorem reachedWhile (R : Backend → Action Input Exc Request → Backend → Prop)
    (check : Backend → Action Input Exc Request → Backend → Bool)
    (sound : ∀ s action u, s.step (program settings Rat.sqrt) action = some u →
      check s action u = true → R s action u)
    (actions : List (Action Input Exc Request)) (test : Backend → Bool)
    (passes : (afterWhile check actions).any test = true) :
    ∃ s, Runs (program settings Rat.sqrt) R (launch users) s ∧ test s = true := by
  obtain ⟨s,ran,passed⟩ := (Option.any_eq_true test (afterWhile check actions)).mp passes
  exact ⟨s,Reach.runs_of_runWhile sound ran,passed⟩

theorem continued (R : Backend → Action Input Exc Request → Backend → Prop)
    (check : Backend → Action Input Exc Request → Backend → Bool)
    (sound : ∀ s action u, check s action u = true → R s action u)
    (actions more : List (Action Input Exc Request)) (before after : Backend → Bool)
    (passes : (afterWhile check actions).any (fun s => before s &&
      (s.runWhile (program settings Rat.sqrt) check more).any after) = true) :
    ∃ s u, Runs (program settings Rat.sqrt) R (launch users) s ∧ before s = true ∧
      Runs (program settings Rat.sqrt) R s u ∧ after u = true := by
  obtain ⟨s,runs,passed⟩ := reachedWhile R check (fun s action u _ => sound s action u) actions _ passes
  obtain ⟨first,passed⟩ := (Bool.and_eq_true _ _).mp passed
  obtain ⟨u,ran,second⟩ := (Option.any_eq_true _ _).mp passed
  exact ⟨s,u,runs,first,Reach.runs_of_runWhile (fun s action u _ => sound s action u) ran,second⟩

/-- An upload that waits for its verdict. -/
def uploaded : List (Action Input Exc Request) := session 1 (upload 11 1 false) 13 (input 0 100)

def claimed (t : Nat) (worker : String) (now : Time) : List (Action Input Exc Request) :=
  session t (.claim .validation worker) 6 (input now (100 + 100 * t))

/-- Two mock uploads, and a finalization of their photos up to its commit. -/
def paired : List (Action Input Exc Request) :=
  session 1 (upload 11 1 true) 13 (input 0 100) ++ session 2 (upload 12 2 true) 13 (input 0 200) ++
    session 3 (.finalize 11 12 "닮은 순간".toList 5) 5 (input 5 300)

def matched : List (Action Input Exc Request) := paired ++ List.replicate 2 (.exec 3 (input 5 300))

end Sample

end Dalm
