import Dalm.Errors
import Dalm.Relational.Table
import Dalm.Relational.Transaction

/-! UserRepository, over any database that holds the users and their terms. Nobody locks
a user's row between statements, so a flush and its COMMIT are one statement. -/
namespace Dalm
open Relational Txn

structure Registry where
  users : Table User.id
  terms : Table (fun t : UserTerm => (t.userId,t.termType,t.termVersion))

/-- What the login providers know a user by. -/
inductive Identity where
  | kakao (id : String)
  | apple (id : String)
deriving DecidableEq

def Identity.isOf : Identity → User → Bool
  | .kakao id,user => user.kakaoId = some id
  | .apple id,user => user.appleId = some id

structure Onboarding where
  nickname : String
  bio : Option String
  marketingAgreed : Bool
  serviceTermsVersion : String
  privacyPolicyVersion : String
deriving DecidableEq

structure ProfileEdit where
  nickname : Option String
  bio : Option String
  updateBio : Bool
deriving DecidableEq

/-- A commit of a user's row, with the row it was decided on. -/
inductive UserEvent where
  | registered (user : UUID)
  | onboarded (loaded : User) (form : Onboarding)
  | profileUpdated (loaded : User) (edit : ProfileEdit)
  | withdrawn (loaded : User)
deriving DecidableEq

def UserEvent.user : UserEvent → UUID
  | .registered user => user
  | .onboarded loaded _ => loaded.id
  | .profileUpdated loaded _ => loaded.id
  | .withdrawn loaded => loaded.id

class HasUsers (σ : Type) (ι ε : outParam Type) where
  registry : σ → Registry
  withRegistry : σ → Registry → σ
  clock : ι → Time
  drawn : ι → UUID
  told : UserEvent → ε

namespace Registry

/-- The unique columns of users. -/
def compatible (row other : User) : Bool :=
  (row.kakaoId = none ∨ row.kakaoId ≠ other.kakaoId) ∧
    (row.appleId = none ∨ row.appleId ≠ other.appleId) ∧
    (row.nickname = none ∨ row.nickname ≠ other.nickname)

def insertUser (registry : Registry) (row : User) : Option Registry :=
  if registry.users.rows.all (compatible row) then
    (registry.users.insert? row).map fun t => {registry with users := t}
  else none

/-- UPDATE of one user, checked against the others. -/
def updateUser (registry : Registry) (id : UUID) (assign : User → User)
    (keeps : ∀ row, (assign row).id = row.id) : Option Registry :=
  let users := registry.users.modify (fun other => other = id) assign keeps
  if (users.get? id).all fun row => users.rows.all fun other => other.id = id ∨ compatible row other
  then some {registry with users := users}
  else none

def insertTerms (registry : Registry) : List UserTerm → Option Registry
  | [] => some registry
  | term :: rest => do
    let terms ← registry.terms.insert? term
    insertTerms {registry with terms := terms} rest

theorem insertUser_users {registry after : Registry} {row : User}
    (written : registry.insertUser row = some after) :
    ∃ fresh, after.users = registry.users.insert row fresh := by
  unfold insertUser at written
  split at written
  · obtain ⟨users,inserted,rfl⟩ := Option.map_eq_some_iff.mp written
    obtain ⟨fresh,rfl⟩ := Table.insert?_eq_some.mp inserted
    exact ⟨fresh,rfl⟩
  · cases written

theorem updateUser_users {registry after : Registry} {id : UUID} {assign : User → User}
    {keeps : ∀ row, (assign row).id = row.id}
    (written : registry.updateUser id assign keeps = some after) :
    after.users = registry.users.modify (fun other => other = id) assign keeps := by
  simp only [updateUser] at written
  split at written
  · exact congrArg users (Option.some.inj written).symm
  · cases written

theorem insertTerms_users {registry after : Registry} {terms : List UserTerm}
    (written : registry.insertTerms terms = some after) : after.users = registry.users := by
  induction terms generalizing registry with
  | nil => exact congrArg users (Option.some.inj written).symm
  | cons term rest ih =>
    obtain ⟨terms,_,remaining⟩ := Option.bind_eq_some_iff.mp written
    have same := ih remaining
    exact same

end Registry

namespace UserRepository

def userNotFound : Exc := .api ⟨404,.userNotFound,"사용자를 찾을 수 없습니다."⟩

def onboardingAlreadyCompleted : Exc :=
  .api ⟨409,.onboardingAlreadyCompleted,"이미 온보딩을 완료했습니다."⟩

def onboardingRequired : Exc := .api ⟨409,.onboardingRequired,"온보딩을 먼저 완료해주세요."⟩

def nicknameConflict : Exc := .api ⟨409,.nicknameConflict,"이미 사용 중인 닉네임입니다."⟩

/-- What an UPDATE makes of a column: a value equal to the one loaded is not written. -/
def flushed {α : Type} [DecidableEq α] (loaded new current : α) : α :=
  if new = loaded then current else new

def newUser (id : UUID) : Identity → User
  | .kakao kakaoId => ⟨id,some kakaoId,none,none,none,none,false,.active,none⟩
  | .apple appleId => ⟨id,none,some appleId,none,none,none,false,.active,none⟩

def createWrites (id : UUID) (identity : Identity) (registry : Registry) :
    Option (Registry × List UserEvent) := do
  let registry ← registry.insertUser (newUser id identity)
  return (registry,[.registered id])

def terms (userId : UUID) (form : Onboarding) : List UserTerm :=
  [⟨userId,"SERVICE",form.serviceTermsVersion,true⟩,⟨userId,"PRIVACY",form.privacyPolicyVersion,true⟩,
    ⟨userId,"AGE_14","1",true⟩,⟨userId,"MARKETING","1",form.marketingAgreed⟩]

def onboard (user : User) (form : Onboarding) (row : User) : User :=
  {row with
    nickname := flushed user.nickname (some form.nickname) row.nickname
    bio := flushed user.bio form.bio row.bio
    marketingAgreed := flushed user.marketingAgreed form.marketingAgreed row.marketingAgreed}

def onboardingWrites (user : User) (form : Onboarding) (registry : Registry) :
    Option (Registry × List UserEvent) := do
  let registry ← registry.updateUser user.id (onboard user form) (fun _ => rfl)
  let registry ← registry.insertTerms (terms user.id form)
  return (registry,[.onboarded user form])

def edit (user : User) (edit : ProfileEdit) (row : User) : User :=
  {row with
    nickname := match edit.nickname with
      | some nickname => flushed user.nickname (some nickname) row.nickname
      | none => row.nickname
    bio := if edit.updateBio then flushed user.bio edit.bio row.bio else row.bio}

def profileWrites (user : User) (change : ProfileEdit) (registry : Registry) :
    Option (Registry × List UserEvent) := do
  let registry ← registry.updateUser user.id (edit user change) (fun _ => rfl)
  return (registry,[.profileUpdated user change])

def leave (user : User) (now : Time) (row : User) : User :=
  {row with
    status := flushed user.status .withdrawn row.status
    nickname := flushed user.nickname none row.nickname
    bio := flushed user.bio none row.bio
    profileImageKey := flushed user.profileImageKey none row.profileImageKey
    withdrawnAt := flushed user.withdrawnAt (some now) row.withdrawnAt}

def withdrawWrites (user : User) (now : Time) (registry : Registry) :
    Option (Registry × List UserEvent) := do
  let registry ← registry.updateUser user.id (leave user now) (fun _ => rfl)
  return (registry,[.withdrawn user])

section written
variable {registry after : Registry} {events : List UserEvent} {user : User}

theorem createWrites_eq_some {id : UUID} {identity : Identity} :
    createWrites id identity registry = some (after,events) ↔
      registry.insertUser (newUser id identity) = some after ∧ events = [.registered id] := by
  simp [createWrites,Option.bind_eq_some_iff,eq_comm (b := events)]

theorem onboardingWrites_eq_some {form : Onboarding} :
    onboardingWrites user form registry = some (after,events) ↔
      ∃ between, registry.updateUser user.id (onboard user form) (fun _ => rfl) = some between ∧
        between.insertTerms (terms user.id form) = some after ∧ events = [.onboarded user form] := by
  simp [onboardingWrites,Option.bind_eq_some_iff,eq_comm (b := events)]

theorem profileWrites_eq_some {change : ProfileEdit} :
    profileWrites user change registry = some (after,events) ↔
      registry.updateUser user.id (edit user change) (fun _ => rfl) = some after ∧
        events = [.profileUpdated user change] := by
  simp [profileWrites,Option.bind_eq_some_iff,eq_comm (b := events)]

theorem withdrawWrites_eq_some {now : Time} :
    withdrawWrites user now registry = some (after,events) ↔
      registry.updateUser user.id (leave user now) (fun _ => rfl) = some after ∧
        events = [.withdrawn user] := by
  simp [withdrawWrites,Option.bind_eq_some_iff,eq_comm (b := events)]

end written

/-- What a commit of the repository makes of the users: the row it was decided on was
read when its status was not WITHDRAWN. -/
inductive Writes (registry : Registry) : Registry → List UserEvent → Prop where
  | registered {id : UUID} {identity : Identity} {after : Registry} {events : List UserEvent}
      (written : createWrites id identity registry = some (after,events)) :
    Writes registry after events
  | onboarded {user : User} {form : Onboarding} {after : Registry} {events : List UserEvent}
      (unfinished : user.onboardingRequired)
      (written : onboardingWrites user form registry = some (after,events)) :
    Writes registry after events
  | profileUpdated {user : User} {change : ProfileEdit} {after : Registry} {events : List UserEvent}
      (finished : ¬ user.onboardingRequired)
      (written : profileWrites user change registry = some (after,events)) :
    Writes registry after events
  | withdrawn {user : User} {now : Time} {after : Registry} {events : List UserEvent}
      (staying : user.status ≠ .withdrawn)
      (written : withdrawWrites user now registry = some (after,events)) :
    Writes registry after events

/-- What a commit makes of the row it finds. -/
inductive Rewrites (row : User) : UserEvent → User → Prop where
  | onboarded {user : User} {form : Onboarding} (own : user.id = row.id)
      (unfinished : user.onboardingRequired) :
    Rewrites row (.onboarded user form) (onboard user form row)
  | profileUpdated {user : User} {change : ProfileEdit} (own : user.id = row.id)
      (finished : ¬ user.onboardingRequired) :
    Rewrites row (.profileUpdated user change) (edit user change row)
  | withdrawn {user : User} {now : Time} (own : user.id = row.id)
      (staying : user.status ≠ .withdrawn) :
    Rewrites row (.withdrawn user) (leave user now row)

theorem Rewrites.user {row row' : User} {event : UserEvent} (rewrites : Rewrites row event row') :
    event.user = row.id := by
  cases rewrites <;> assumption

theorem Rewrites.withdrawn_stays {row row' : User} {event : UserEvent}
    (rewrites : Rewrites row event row') (gone : row.status = .withdrawn) :
    row'.status = .withdrawn := by
  cases rewrites with
  | onboarded => exact gone
  | profileUpdated => exact gone
  | withdrawn own staying => simp [leave,flushed,Ne.symm staying]

/-- Only a withdrawal takes a nickname away. -/
theorem Rewrites.named {row row' : User} {event : UserEvent} (rewrites : Rewrites row event row')
    (named : row.nickname = none → row.status = .withdrawn) (nameless : row'.nickname = none) :
    row'.status = .withdrawn := by
  cases rewrites with
  | @onboarded user form =>
    have same : flushed user.nickname (some form.nickname) row.nickname = none := nameless
    unfold flushed at same
    split at same
    next => exact named same
    next => cases same
  | @profileUpdated user change =>
    refine named ?_
    cases given : change.nickname with
    | none => simpa [edit,given] using nameless
    | some nickname =>
      have same : flushed user.nickname (some nickname) row.nickname = none := by
        simpa [edit,given] using nameless
      unfold flushed at same
      split at same
      next => exact same
      next => cases same
  | withdrawn own staying => simp [leave,flushed,Ne.symm staying]

theorem Writes.one {registry after : Registry} {events : List UserEvent}
    (written : Writes registry after events) : ∃ event, events = [event] := by
  cases written with
  | registered written =>
    obtain ⟨_,rfl⟩ := createWrites_eq_some.mp written
    exact ⟨_,rfl⟩
  | onboarded _ written =>
    obtain ⟨_,_,_,rfl⟩ := onboardingWrites_eq_some.mp written
    exact ⟨_,rfl⟩
  | profileUpdated _ written =>
    obtain ⟨_,rfl⟩ := profileWrites_eq_some.mp written
    exact ⟨_,rfl⟩
  | withdrawn _ written =>
    obtain ⟨_,rfl⟩ := withdrawWrites_eq_some.mp written
    exact ⟨_,rfl⟩

/-- A commit inserts a user or rewrites one row. -/
theorem Writes.users {registry after : Registry} {events : List UserEvent}
    (written : Writes registry after events) :
    (∃ id identity fresh, after.users = registry.users.insert (newUser id identity) fresh) ∨
      ∃ id event assign keeps, after.users =
        registry.users.modify (fun other => other = id) assign keeps ∧ events = [event] ∧
          ∀ row, id = row.id → Rewrites row event (assign row) := by
  cases written with
  | registered written =>
    obtain ⟨inserted,rfl⟩ := createWrites_eq_some.mp written
    obtain ⟨fresh,same⟩ := Registry.insertUser_users inserted
    exact .inl ⟨_,_,fresh,same⟩
  | onboarded unfinished written =>
    obtain ⟨_,updated,termed,rfl⟩ := onboardingWrites_eq_some.mp written
    have same := (Registry.insertTerms_users termed).trans (Registry.updateUser_users updated)
    exact .inr ⟨_,_,_,_,same,rfl,fun _ own => .onboarded own unfinished⟩
  | profileUpdated finished written =>
    obtain ⟨updated,rfl⟩ := profileWrites_eq_some.mp written
    exact .inr ⟨_,_,_,_,Registry.updateUser_users updated,rfl,
      fun _ own => .profileUpdated own finished⟩
  | withdrawn staying written =>
    obtain ⟨updated,rfl⟩ := withdrawWrites_eq_some.mp written
    exact .inr ⟨_,_,_,_,Registry.updateUser_users updated,rfl,fun _ own => .withdrawn own staying⟩

/-- A row after a commit is a new user's, the one before, or rewritten by the commit. -/
theorem Writes.row {registry after : Registry} {events : List UserEvent}
    (written : Writes registry after events) {k : UUID} {row' : User}
    (found : after.users.get? k = some row') :
    (registry.users.get? k = none ∧ ∃ identity, row' = newUser k identity) ∨
      ∃ row, registry.users.get? k = some row ∧
        (row' = row ∨ ∃ event, events = [event] ∧ Rewrites row event row') := by
  rcases written.users with ⟨id,identity,fresh,same⟩ | ⟨id,event,assign,keeps,same,told,each⟩
  · rw [same] at found
    rcases Table.get?_insert_cases fresh found with ⟨own,rfl⟩ | before
    · have key : id = k := by cases identity <;> exact own
      subst key
      exact .inl ⟨by cases identity <;> exact fresh,identity,rfl⟩
    · exact .inr ⟨row',before,.inl rfl⟩
  · rw [same,Table.get?_modify_eq_some] at found
    obtain ⟨row,there,now⟩ := found
    refine .inr ⟨row,there,?_⟩
    split at now
    next chosen =>
      have own : id = row.id :=
        (of_decide_eq_true chosen).symm.trans (Table.key_of_get? there).symm
      exact .inr ⟨event,told,now ▸ each row own⟩
    next => exact .inl now

theorem Writes.known {registry after : Registry} {events : List UserEvent}
    (written : Writes registry after events) {k : UUID}
    (known : (registry.users.get? k).isSome) : (after.users.get? k).isSome := by
  rcases written.users with ⟨id,identity,fresh,same⟩ | ⟨id,event,assign,keeps,same,_,_⟩
  · obtain ⟨row,there⟩ := Option.isSome_iff_exists.mp known
    rw [same,Table.get?_insert_of_some fresh there]
    rfl
  · rw [same,Table.isSome_get?_modify]
    exact known

theorem Writes.kept {registry after : Registry} {events : List UserEvent}
    (written : Writes registry after events) {k : UUID} {row : User}
    (there : registry.users.get? k = some row) : ∃ row', after.users.get? k = some row' ∧
      (row' = row ∨ ∃ event, events = [event] ∧ Rewrites row event row') := by
  obtain ⟨row',found⟩ := Option.isSome_iff_exists.mp (written.known (by rw [there]; rfl))
  refine ⟨row',found,?_⟩
  rcases written.row found with ⟨nobody,_⟩ | ⟨before,there',follows⟩
  · rw [there] at nobody
    cases nobody
  · cases Option.some.inj (there.symm.trans there')
    exact follows

theorem Writes.withdrawn_stays {registry after : Registry} {events : List UserEvent}
    (written : Writes registry after events) {k : UUID} {row : User}
    (there : registry.users.get? k = some row) (gone : row.status = .withdrawn) :
    ∃ row', after.users.get? k = some row' ∧ row'.status = .withdrawn := by
  obtain ⟨row',found,same | ⟨event,_,rewrites⟩⟩ := written.kept there
  · exact ⟨row',found,same ▸ gone⟩
  · exact ⟨row',found,rewrites.withdrawn_stays gone⟩

section repository
variable {σ κ ι ε : Type} [Lockable σ κ] [HasUsers σ ι ε]

def select {α : Type} (f : Registry → α) : Txn σ κ ι ε Exc α :=
  query fun db => f (HasUsers.registry db)

def written (writes : Registry → Option (Registry × List UserEvent)) (db : σ) :
    Option (σ × List ε) :=
  (writes (HasUsers.registry db)).map fun (registry,events) =>
    (HasUsers.withRegistry db registry,events.map (HasUsers.told σ))

def refresh (userId : UUID) : Txn σ κ ι ε Exc User := do
  match ← select fun registry => registry.users.get? userId with
  | none => throw .noResultFound
  | some user => return user

def getBy (identity : Identity) : Txn σ κ ι ε Exc (Option User) :=
  select fun registry => registry.users.rows.find? identity.isOf

def createFrom (identity : Identity) : Txn σ κ ι ε Exc User :=
  .commit (fun i => written (createWrites (HasUsers.drawn σ i) identity)) fun i done =>
    if done then refresh (HasUsers.drawn σ i)
    else do
      undo
      match ← getBy identity with
      | none => throw .integrityError
      | some existing => return existing

def getByKakaoId (kakaoId : String) : Txn σ κ ι ε Exc (Option User) := getBy (.kakao kakaoId)

def createFromKakao (kakaoId : String) : Txn σ κ ι ε Exc User := createFrom (.kakao kakaoId)

def getByAppleId (appleId : String) : Txn σ κ ι ε Exc (Option User) := getBy (.apple appleId)

def createFromApple (appleId : String) : Txn σ κ ι ε Exc User := createFrom (.apple appleId)

def getById (userId : UUID) : Txn σ κ ι ε Exc (Option User) :=
  select fun registry => registry.users.get? userId

def completeOnboarding (userId : UUID) (form : Onboarding) : Txn σ κ ι ε Exc User := do
  match (← getById userId).filter (fun user => user.status ≠ .withdrawn) with
  | none => throw userNotFound
  | some user =>
    if ¬ user.onboardingRequired then
      throw onboardingAlreadyCompleted
    else
      let _ ← commitOr nicknameConflict fun _ => written (onboardingWrites user form)
      refresh userId

def updateProfile (userId : UUID) (change : ProfileEdit) : Txn σ κ ι ε Exc User := do
  match (← getById userId).filter (fun user => user.status ≠ .withdrawn) with
  | none => throw userNotFound
  | some user =>
    if user.onboardingRequired then
      throw onboardingRequired
    else
      let _ ← commitOr nicknameConflict fun _ => written (profileWrites user change)
      refresh userId

def withdraw (userId : UUID) : Txn σ κ ι ε Exc Unit := do
  match (← getById userId).filter (fun user => user.status ≠ .withdrawn) with
  | none => throw userNotFound
  | some user =>
    let clock ← supply
    let _ ← commitOr .integrityError fun _ =>
      written (withdrawWrites user (HasUsers.clock σ clock))
    return ()

end repository
end UserRepository
end Dalm
