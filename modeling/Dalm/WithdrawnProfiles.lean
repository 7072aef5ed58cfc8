import Dalm.WithdrawnSessions

/-! Withdrawn users carry no profile, unless a commit overlooks what has changed since its
row was read. That a user has withdrawn is final. -/
namespace Dalm
open Relational UserRepository
variable {T S : Type}

def User.blank (row : User) : Prop :=
  row.nickname = none ∧ row.bio = none ∧ row.profileImageKey = none

def Registry.blank (registry : Registry) : Prop :=
  ∀ id row, registry.users.get? id = some row → row.status = .withdrawn → row.blank

/-- A commit that puts into a withdrawn user's profile what was not loaded, or a
withdrawal that leaves what it has not seen. -/
def UserEvent.overlooks (row : User) : UserEvent → Bool
  | .registered _ => false
  | .onboarded loaded form => row.status = .withdrawn ∧
      (some form.nickname ≠ loaded.nickname ∨ form.bio ≠ none ∧ form.bio ≠ loaded.bio)
  | .profileUpdated loaded edit => row.status = .withdrawn ∧
      (edit.nickname ≠ none ∧ edit.nickname ≠ loaded.nickname ∨
        edit.updateBio ∧ edit.bio ≠ none ∧ edit.bio ≠ loaded.bio)
  | .withdrawn loaded => loaded.nickname = none ∧ row.nickname ≠ none ∨
      loaded.bio = none ∧ row.bio ≠ none ∨
      loaded.profileImageKey = none ∧ row.profileImageKey ≠ none

/-- No commit of the step overlooks the row it finds. -/
def Attentive (s : AuthSystem T S) (action : Action AuthInput Exc (AuthRequest T))
    (u : AuthSystem T S) : Prop :=
  (drawing S).admits s u action ∧ ∀ new, u.world.log = s.world.log ++ new →
    ∀ t event, (t,.user event) ∈ new →
      ∀ row, s.db.registry.users.get? event.user = some row → event.overlooks row = false

section runs
variable (settings : AuthSettings) (jwt : Jwt T) (store : RefreshTokenStore S) (clock : Time)

structure WithdrawnProfiles : Prop where
  blank : ∀ s : AuthSystem T S,
    Runs (authProgram settings jwt store) Attentive (opening store clock) s → s.db.registry.blank
  final : ∀ (s u : AuthSystem T S) id row, AuthReachable settings jwt store clock s →
    Reach (authProgram settings jwt store) (drawing S) s u →
    s.db.registry.users.get? id = some row → row.status = .withdrawn →
      ∃ row', u.db.registry.users.get? id = some row' ∧ row'.status = .withdrawn

end runs

section writes
variable {registry after : Registry} {events : List UserEvent}

theorem flushed_none {α : Type} [DecidableEq α] {loaded new current : Option α}
    (nothing : current = none) (same : new = none ∨ new = loaded) :
    flushed loaded new current = none := by
  unfold flushed
  split
  · exact nothing
  next different => exact same.resolve_right different

theorem flushed_cleared {α : Type} [DecidableEq α] {loaded current : Option α}
    (seen : loaded = none → current = none) : flushed loaded none current = none := by
  unfold flushed
  split
  next same => exact seen same.symm
  next => rfl

theorem Registry.blank.keep (blank : registry.blank) (written : Writes registry after events)
    (attentive : ∀ event ∈ events, ∀ row, registry.users.get? event.user = some row →
      event.overlooks row = false) : after.blank := by
  intro id row' found gone
  rcases written.row found with ⟨_,identity,rfl⟩ | ⟨row,there,rfl | ⟨event,rfl,rewrites⟩⟩
  · cases identity <;> cases gone
  · exact blank id row' there gone
  · have key : row.id = id := Table.key_of_get? there
    have fine := attentive event List.mem_cons_self row (by rw [rewrites.user,key]; exact there)
    have before : row.status = .withdrawn → row.blank := blank id row there
    cases rewrites with
    | onboarded own unfinished =>
      obtain ⟨nickname,bio,image⟩ := before gone
      have same : row.status = .withdrawn := gone
      simp only [UserEvent.overlooks,same,true_and,decide_eq_false_iff_not,not_or,not_and,
        not_not] at fine
      refine ⟨flushed_none nickname (.inr fine.1),flushed_none bio ?_,image⟩
      exact or_iff_not_imp_left.mpr fine.2
    | @profileUpdated loaded edited own finished =>
      obtain ⟨nickname,bio,image⟩ := before gone
      have same : row.status = .withdrawn := gone
      simp only [UserEvent.overlooks,same,true_and,decide_eq_false_iff_not,not_or,not_and,
        not_not] at fine
      refine ⟨?_,?_,image⟩
      · unfold edit
        split
        next given =>
          refine flushed_none nickname (.inr ?_)
          rw [← given]
          exact fine.1 (by simp [given])
        next => exact nickname
      · change (if edited.updateBio then flushed loaded.bio edited.bio row.bio else row.bio) = none
        split
        next updates => exact flushed_none bio (or_iff_not_imp_left.mpr (fine.2 updates))
        next => exact bio
    | withdrawn own staying =>
      simp only [UserEvent.overlooks,decide_eq_false_iff_not,not_or,not_and,not_not] at fine
      exact ⟨flushed_cleared fine.1,flushed_cleared fine.2.1,flushed_cleared fine.2.2⟩

end writes

section steps
variable {settings : AuthSettings} {jwt : Jwt T} {store : RefreshTokenStore S} {clock : Time}
  {laws : store.Lawful settings.refreshTokenTtlSeconds}

theorem AuthChange.registry {r : AuthRequest T} {t : Nat} {w : AuthWorld S} {db : Accounts S}
    {events : List AuthEvent} (change : AuthChange jwt settings store r t w db events) :
    db.registry = w.db.registry ∨ ∃ told, events = told.map .user ∧
      Writes w.db.registry db.registry told := by
  cases change with
  | user written => exact .inr ⟨_,rfl,written⟩
  | _ => exact .inl rfl

theorem AuthReachable.registry (laws : store.Lawful settings.refreshTokenTtlSeconds)
    {s u : AuthSystem T S} (reachable : AuthReachable settings jwt store clock s)
    {action : Action AuthInput Exc (AuthRequest T)}
    (taken : s.step (authProgram settings jwt store) action = some u)
    (admitted : (drawing S).admits s u action) : u.db.registry = s.db.registry ∨ ∃ t told,
      u.world.log = s.world.log ++ told.map (fun event => (t,.user event)) ∧
        Writes s.db.registry u.db.registry told := by
  rcases reachable.change laws taken admitted with same | ⟨t,r,db,events,change,same⟩
  · exact .inl (congrArg (fun w => w.db.registry) same)
  · have after : u.db = db := congrArg World.db same
    rw [after]
    refine change.registry.imp id ?_
    rintro ⟨told,rfl,written⟩
    refine ⟨t,told,?_,written⟩
    rw [same]
    simp

theorem withdrawnProfiles_of_lawful (settings : AuthSettings) (jwt : Jwt T) (clock : Time)
    (laws : store.Lawful settings.refreshTokenTtlSeconds) :
    WithdrawnProfiles settings jwt store clock := by
  constructor
  · intro s runs
    induction runs with
    | refl =>
      intro id row found
      cases found
    | @tail a b before link ih =>
      obtain ⟨action,taken,admitted,attentive⟩ := link
      have reachable : AuthReachable settings jwt store clock a :=
        Reach.of_runs before fun _ _ _ holds => holds.1
      rcases reachable.registry laws taken admitted with same | ⟨t,told,log,written⟩
      · rw [same]
        exact ih
      · refine ih.keep written fun event member => attentive _ log t event ?_
        exact List.mem_map_of_mem member
  · intro s u id row reachable later found gone
    induction later with
    | refl => exact ⟨row,found,gone⟩
    | @step a b action before taken admitted ih =>
      obtain ⟨between,found,gone⟩ := ih
      have reached : AuthReachable settings jwt store clock a := Reach.trans reachable before
      rcases reached.registry laws taken admitted with same | ⟨_,_,_,written⟩
      · rw [same]
        exact ⟨between,found,gone⟩
      · exact written.withdrawn_stays found gone

end steps

/-- Over either store, where no commit overlooks what its row has become, a withdrawn user
has no profile; and no run takes his withdrawal back. -/
theorem withdrawnProfiles (settings : AuthSettings) (jwt : Jwt T) (clock : Time) :
    WithdrawnProfiles settings jwt inMemoryRefreshTokenStore clock ∧
      WithdrawnProfiles settings jwt redisRefreshTokenStore clock :=
  ⟨withdrawnProfiles_of_lawful settings jwt clock (InMemoryRefreshTokenStore.lawful _),
    withdrawnProfiles_of_lawful settings jwt clock (RedisRefreshTokenStore.lawful _)⟩

namespace Sample

def attentive (s u : AuthSystem Payload Redis) : Bool :=
  (u.world.log.drop s.world.log.length).all fun entry => match entry.2 with
    | .user event => (s.db.registry.users.get? event.user).all fun row => !event.overlooks row
    | _ => true

theorem attentive_sound {s u : AuthSystem Payload Redis}
    {action : Action AuthInput Exc (AuthRequest Payload)}
    (passes : (drawsFresh s action && attentive s u) = true) : Attentive s action u := by
  obtain ⟨fresh,passes⟩ := Bool.and_eq_true_iff.mp passes
  refine ⟨admits_of_drawsFresh fresh,?_⟩
  intro new log t event member row found
  rw [attentive,log,List.drop_left] at passes
  have each := List.all_eq_true.mp passes _ member
  simpa [found] using each

def access : Option Payload := some (tokenOf "access" 1800 0 206)

/-- A user with a profile, and an update of it that has read his row. -/
def editing : AuthActions :=
  .start 1 (.loginWithKakao "1") :: statements 1 0 100 8 ++
    .start 2 (.completeOnboarding access ⟨"nickname",none,false,"1","1"⟩) ::
      statements 2 (seconds 1) 200 5 ++
    .start 4 (.updateMyProfile access ⟨some "renamed",none,false⟩) :: statements 4 (seconds 1) 300 2

/-- The update goes on before the withdrawal, or after it. -/
def editedEarly : AuthActions := editing ++ statements 4 (seconds 2) 400 3 ++ withdrawn 3 500

def editedLate : AuthActions := editing ++ withdrawn 3 400 ++ statements 4 (seconds 2) 500 3

end Sample

theorem withdrawnProfiles_early : ∃ s : AuthSystem Payload Redis,
    (∃ row, s.db.registry.users.get? 1 = some row ∧ row.status = .withdrawn) ∧
      s.db.registry.blank := by
  obtain ⟨s,ran,told⟩ := (Option.any_eq_true _ _).mp (show (Sample.authAfter (fun s action u =>
    Sample.drawsFresh s action && Sample.attentive s u) Sample.editedEarly Sample.start).any
      (fun s => (s.db.registry.users.get? 1).any fun row => row.status = .withdrawn) = true by
        decide +kernel)
  obtain ⟨row,found,gone⟩ := (Option.any_eq_true _ _).mp told
  refine ⟨s,⟨row,found,of_decide_eq_true gone⟩,?_⟩
  exact (withdrawnProfiles Sample.authSettings Sample.jwt 0).2.blank s
    (Reach.runs_of_runWhile (fun _ _ _ _ => Sample.attentive_sound) ran)

theorem withdrawn_with_nickname : ¬ ∀ (settings : AuthSettings) (jwt : Jwt Payload) (clock : Time)
    (s : AuthSystem Payload Redis), AuthReachable settings jwt redisRefreshTokenStore clock s →
      s.db.registry.blank := by
  intro claim
  obtain ⟨s,ran,told⟩ := (Option.any_eq_true _ _).mp (show (Sample.authAfter (fun s action _ =>
    Sample.drawsFresh s action) Sample.editedLate Sample.start).any
      (fun s => (s.db.registry.users.get? 1).any fun row =>
        row.status = .withdrawn ∧ row.nickname = some "renamed") = true by decide +kernel)
  obtain ⟨row,found,told⟩ := (Option.any_eq_true _ _).mp told
  obtain ⟨gone,named⟩ := of_decide_eq_true told
  have reachable : AuthReachable Sample.authSettings Sample.jwt redisRefreshTokenStore 0 s :=
    Reach.of_runs (Reach.runs_of_runWhile (fun _ _ _ _ => Sample.admits_of_drawsFresh) ran)
      fun _ _ _ => id
  obtain ⟨nothing,_⟩ := claim _ _ _ s reachable 1 row found gone
  rw [named] at nothing
  cases nothing

end Dalm
