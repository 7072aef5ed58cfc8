import Dalm.Auth
import Dalm.Relational.Commits

/-! What the endpoints of accounts commit, request by request: which of them write the users, whose
row, and what they were decided on. -/
namespace Dalm
open Relational Txn
variable {T S α : Type}

/-- The identity a login is for. -/
def AuthRequest.identity? : AuthRequest T → Option Identity
  | .loginWithKakao kakaoId => some (.kakao kakaoId)
  | .loginWithApple appleId => some (.apple appleId)
  | _ => none

/-- Whose access token it is. -/
def bearer (jwt : Jwt T) (credentials : Option T) : Option UUID :=
  (credentials.bind jwt.payload).bind fun payload => UUID.parse payload.sub

/-- Whose profile a call writes, and the nickname it asks for. -/
def AuthRequest.profile? (jwt : Jwt T) : AuthRequest T → Option (Option UUID × Option String)
  | .completeOnboarding credentials form => some (bearer jwt credentials,some form.nickname)
  | .updateMyProfile credentials change => some (bearer jwt credentials,change.nickname)
  | _ => none

inductive AuthCommit (jwt : Jwt T) :
    AuthRequest T → (AuthInput → Accounts S → Option (Accounts S × List AuthEvent)) → Prop where
  | apart {r : AuthRequest T} {writes : AuthInput → Accounts S → Option (Accounts S × List AuthEvent)}
      (elsewhere : r.profile? jwt = none) (users : ∀ i db db' events, writes i db = some (db',events) →
        db'.registry = db.registry ∧ ∀ e, .user e ∉ events) : AuthCommit jwt r writes
  | created {r : AuthRequest T} {identity : Identity} (asks : r.identity? = some identity) :
    AuthCommit jwt r fun i => UserRepository.written (UserRepository.createWrites i.userId identity)
  | onboarded {credentials : Option T} {form : Onboarding} {user : User}
      (own : bearer jwt credentials = some user.id) (unfinished : user.onboardingRequired) :
    AuthCommit jwt (.completeOnboarding credentials form) fun _ =>
      UserRepository.written (UserRepository.onboardingWrites user form)
  | profileUpdated {credentials : Option T} {change : ProfileEdit} {user : User}
      (own : bearer jwt credentials = some user.id) (finished : ¬ user.onboardingRequired) :
    AuthCommit jwt (.updateMyProfile credentials change) fun _ =>
      UserRepository.written (UserRepository.profileWrites user change)
  | withdrawn {credentials : Option T} {user : User} {now : Time}
      (own : bearer jwt credentials = some user.id) (staying : user.status ≠ .withdrawn) :
    AuthCommit jwt (.withdrawMyAccount credentials) fun _ =>
      UserRepository.written (UserRepository.withdrawWrites user now)

section programs
variable {settings : AuthSettings} {jwt : Jwt T} {store : RefreshTokenStore S} {r : AuthRequest T}
  {C : (AuthInput → Accounts S → Option (Accounts S × List AuthEvent)) → Prop}

namespace TokenService

theorem commits_decode {token : T} {expectedType : String} : (decode jwt token expectedType : Auth S TokenClaims).Commits C
    fun claims => ∃ p, jwt.payload token = some p ∧ claims = ⟨p.sub,p.jti,p.type⟩ := by
  refine commits_bind commits_supply fun clock _ => ?_
  split
  · trivial
  next payload found =>
    split
    · trivial
    · split
      · refine commits_bind commits_supply fun again _ => ?_
        split <;> trivial
      · split
        · trivial
        · exact ⟨payload,found,rfl⟩

theorem commits_command (elsewhere : r.profile? jwt = none) {failure : Exc} {event : Grants.Event TokenId Subject} {run : Time → S → Option S} :
    (command failure event run : Auth S AuthInput).Commits (AuthCommit jwt r) fun _ => True := by
  refine commits_commitOr (.apart elsewhere fun i db db' events written => ?_)
  obtain ⟨tokens,_,same⟩ := Option.map_eq_some_iff.mp written
  cases same
  exact ⟨rfl,by simp⟩

theorem commits_newPair (elsewhere : r.profile? jwt = none) {subject : Subject} :
    (newPair settings jwt subject : Auth S (TokenPair T × TokenId)).Commits (AuthCommit jwt r) fun _ => True := by
  refine ⟨.apart elsewhere fun i db db' events written => ?_,fun _ _ _ _ => trivial⟩
  cases written
  exact ⟨rfl,by simp⟩

theorem commits_issuePair (elsewhere : r.profile? jwt = none) {subject : Subject} :
    (issuePair settings jwt store subject).Commits (AuthCommit jwt r) fun _ => True :=
  commits_bind (commits_newPair elsewhere) fun _ _ => commits_bind (commits_command elsewhere) fun _ => id

theorem commits_rotate (elsewhere : r.profile? jwt = none) {token : T} :
    (rotate settings jwt store token).Commits (AuthCommit jwt r) fun _ => True :=
  commits_bind commits_decode fun _ _ => commits_bind (commits_newPair elsewhere) fun _ _ =>
    commits_bind (commits_command elsewhere) fun _ => id

theorem commits_revoke (elsewhere : r.profile? jwt = none) {token : T} {expectedSubject : Subject} :
    (revoke jwt store token expectedSubject).Commits (AuthCommit jwt r) fun _ => True := by
  refine commits_bind commits_decode fun claims _ => ?_
  split
  · trivial
  · exact commits_bind (commits_command elsewhere) fun _ => id

theorem commits_revokeAll (elsewhere : r.profile? jwt = none) {subject : Subject} :
    (revokeAll store subject : Auth S Unit).Commits (AuthCommit jwt r) fun _ => True :=
  commits_bind (commits_command elsewhere) fun _ => id

end TokenService

theorem commits_requireAccessToken {credentials : Option T} :
    (requireAccessToken jwt credentials : Auth S TokenClaims).Commits C
      fun claims => bearer jwt credentials = UUID.parse claims.subject := by
  cases credentials with
  | none => trivial
  | some token =>
    refine Commits.mono TokenService.commits_decode ?_
    rintro _ ⟨p,found,rfl⟩
    simp [bearer,found]

theorem commits_authenticatedUserId {claims : TokenClaims} :
    (authenticatedUserId claims : Auth S UUID).Commits C fun userId => UUID.parse claims.subject = some userId := by
  unfold authenticatedUserId
  split
  · trivial
  next userId parsed => exact parsed

theorem commits_completeLogin (elsewhere : r.profile? jwt = none) {user : User} {isNewUser : Bool} :
    (AuthService.completeLogin settings jwt store user isNewUser).Commits (AuthCommit jwt r) fun _ => True := by
  unfold AuthService.completeLogin
  split
  · trivial
  · split
    · trivial
    · exact commits_bind (TokenService.commits_issuePair elsewhere) fun _ => id

namespace UserRepository

theorem commits_refresh {userId : UUID} : (refresh userId : Auth S User).Commits C fun _ => True := by
  refine commits_bind (commits_query _) fun found _ => ?_
  split <;> trivial

theorem commits_createFrom {identity : Identity} (asks : r.identity? = some identity) :
    (createFrom identity : Auth S User).Commits (AuthCommit jwt r) fun _ => True := by
  refine ⟨.created asks,fun i done => ?_⟩
  cases done with
  | true => exact commits_refresh
  | false =>
    have undone : (undo : Auth S Unit).Commits (AuthCommit jwt r) fun _ => True := trivial
    refine commits_bind undone fun _ _ => commits_bind (commits_query _) fun found _ => ?_
    split <;> trivial

theorem commits_completeOnboarding {credentials : Option T} {form : Onboarding} {userId : UUID}
    (own : bearer jwt credentials = some userId) : (completeOnboarding userId form : Auth S User).Commits
      (AuthCommit jwt (.completeOnboarding credentials form)) fun _ => True := by
  refine commits_bind (commits_query _) ?_
  rintro found ⟨db,rfl⟩
  split
  · trivial
  next user kept =>
    split
    · trivial
    next unfinished =>
      have same : user.id = userId := Table.key_of_get? (Option.filter_eq_some_iff.mp kept).1
      exact commits_bind (commits_commitOr (.onboarded (same ▸ own) (not_not.mp unfinished))) fun _ _ =>
        commits_refresh

theorem commits_updateProfile {credentials : Option T} {change : ProfileEdit} {userId : UUID}
    (own : bearer jwt credentials = some userId) : (updateProfile userId change : Auth S User).Commits
      (AuthCommit jwt (.updateMyProfile credentials change)) fun _ => True := by
  refine commits_bind (commits_query _) ?_
  rintro found ⟨db,rfl⟩
  split
  · trivial
  next user kept =>
    split
    · trivial
    next finished =>
      have same : user.id = userId := Table.key_of_get? (Option.filter_eq_some_iff.mp kept).1
      exact commits_bind (commits_commitOr (.profileUpdated (same ▸ own) finished)) fun _ _ => commits_refresh

theorem commits_withdraw {credentials : Option T} {userId : UUID} (own : bearer jwt credentials = some userId) :
    (withdraw userId : Auth S Unit).Commits (AuthCommit jwt (.withdrawMyAccount credentials)) fun _ => True := by
  refine commits_bind (commits_query _) ?_
  rintro found ⟨db,rfl⟩
  split
  · trivial
  next user kept =>
    obtain ⟨kept,staying⟩ := Option.filter_eq_some_iff.mp kept
    have same : user.id = userId := Table.key_of_get? kept
    exact commits_bind commits_supply fun clock _ =>
      commits_bind (commits_commitOr (.withdrawn (same ▸ own) (by simpa using staying))) fun _ => id

end UserRepository

theorem commits_login (elsewhere : r.profile? jwt = none) {identity : Identity} (asks : r.identity? = some identity) :
    (AuthService.login settings jwt store (UserRepository.getBy identity)
      (UserRepository.createFrom identity)).Commits (AuthCommit jwt r) fun _ => True := by
  refine commits_bind (commits_query _) fun found _ => ?_
  cases found with
  | none => exact commits_bind (UserRepository.commits_createFrom asks) fun _ _ =>
      commits_completeLogin elsewhere
  | some user => exact commits_completeLogin elsewhere

theorem authProgram_commits (r : AuthRequest T) :
    (authProgram settings jwt store r).Commits (AuthCommit jwt r) fun _ => True := by
  cases r with
  | issuePair => exact commits_bind (TokenService.commits_issuePair rfl) fun _ => id
  | rotate | refresh => exact commits_bind (TokenService.commits_rotate rfl) fun _ => id
  | revoke => exact commits_bind (TokenService.commits_revoke rfl) fun _ => id
  | revokeAll => exact commits_bind (TokenService.commits_revokeAll rfl) fun _ => id
  | loginWithKakao | loginWithApple => exact commits_bind (commits_login rfl rfl) fun _ => id
  | logout =>
    exact commits_bind (commits_bind commits_requireAccessToken fun _ _ => TokenService.commits_revoke rfl) fun _ => id
  | completeOnboarding =>
    exact commits_bind (commits_bind commits_requireAccessToken fun claims given =>
      commits_bind commits_authenticatedUserId fun userId parsed =>
        UserRepository.commits_completeOnboarding (given.trans parsed)) fun _ => id
  | updateMyProfile =>
    exact commits_bind (commits_bind commits_requireAccessToken fun claims given =>
      commits_bind commits_authenticatedUserId fun userId parsed =>
        UserRepository.commits_updateProfile (given.trans parsed)) fun _ => id
  | withdrawMyAccount =>
    exact commits_bind (commits_bind commits_requireAccessToken fun claims given =>
      commits_bind commits_authenticatedUserId fun userId parsed =>
        commits_bind (UserRepository.commits_withdraw (given.trans parsed)) fun _ _ =>
          TokenService.commits_revokeAll rfl) fun _ => id

end programs

/-- What was written of the users. -/
def userEvents (log : List (Nat × AuthEvent)) : List (Nat × UserEvent) :=
  log.filterMap fun entry => match entry.2 with
    | .user event => some (entry.1,event)
    | _ => none

theorem userEvents_append (log more : List (Nat × AuthEvent)) :
    userEvents (log ++ more) = userEvents log ++ userEvents more := List.filterMap_append

theorem userEvents_own (t : Nat) (told : List UserEvent) :
    userEvents ((told.map AuthEvent.user).map fun event => (t,event)) = told.map fun event => (t,event) := by
  simp [userEvents,List.filterMap_map,Function.comp_def]

theorem userEvents_none {t : Nat} {events : List AuthEvent} (apart : ∀ e, .user e ∉ events) :
    userEvents (events.map fun event => (t,event)) = [] := by
  refine List.filterMap_eq_nil_iff.mpr fun entry member => ?_
  obtain ⟨event,among,rfl⟩ := List.mem_map.mp member
  cases event with
  | user e => exact absurd among (apart e)
  | _ => rfl

theorem mem_userEvents {log : List (Nat × AuthEvent)} {t : Nat} {event : UserEvent} :
    (t,event) ∈ userEvents log ↔ (t,.user event) ∈ log := by
  unfold userEvents
  rw [List.mem_filterMap]
  constructor
  · rintro ⟨⟨v,told⟩,member,same⟩
    cases told with
    | user e =>
      cases same
      exact member
    | _ => cases same
  · exact fun member => ⟨_,member,rfl⟩

section changes
variable {settings : AuthSettings} {jwt : Jwt T} {store : RefreshTokenStore S} {clock : Time}
  {r : AuthRequest T} {writes : AuthInput → Accounts S → Option (Accounts S × List AuthEvent)}
  {i : AuthInput} {db db' : Accounts S} {events : List AuthEvent}

theorem UserRepository.written_eq_some {change : Registry → Option (Registry × List UserEvent)}
    (made : UserRepository.written change db = some (db',events)) : ∃ told,
      change db.registry = some (db'.registry,told) ∧ events = told.map .user := by
  obtain ⟨⟨registry,told⟩,outcome,same⟩ := Option.map_eq_some_iff.mp made
  cases same
  exact ⟨told,outcome,rfl⟩

/-- A COMMIT leaves the users alone or is one of the repository. -/
theorem AuthCommit.change (commit : AuthCommit jwt r writes) (made : writes i db = some (db',events)) :
    (db'.registry = db.registry ∧ ∀ e, .user e ∉ events) ∨
      ∃ told, events = told.map .user ∧ UserRepository.Writes db.registry db'.registry told := by
  cases commit with
  | apart _ users => exact .inl (users i db db' events made)
  | created asks =>
    obtain ⟨told,outcome,same⟩ := UserRepository.written_eq_some made
    exact .inr ⟨told,same,.registered outcome⟩
  | onboarded own unfinished =>
    obtain ⟨told,outcome,same⟩ := UserRepository.written_eq_some made
    exact .inr ⟨told,same,.onboarded unfinished outcome⟩
  | profileUpdated own finished =>
    obtain ⟨told,outcome,same⟩ := UserRepository.written_eq_some made
    exact .inr ⟨told,same,.profileUpdated finished outcome⟩
  | withdrawn own staying =>
    obtain ⟨told,outcome,same⟩ := UserRepository.written_eq_some made
    exact .inr ⟨told,same,.withdrawn staying outcome⟩

theorem registry_step {R : AuthSystem T S → Action AuthInput Exc (AuthRequest T) → AuthSystem T S → Prop}
    {s u : AuthSystem T S} {action : Action AuthInput Exc (AuthRequest T)}
    (runs : Runs (authProgram settings jwt store) R (opening store clock) s)
    (taken : s.step (authProgram settings jwt store) action = some u) :
    (u.db.registry = s.db.registry ∧ userEvents u.world.log = userEvents s.world.log) ∨
      ∃ t told, userEvents u.world.log = userEvents s.world.log ++ told.map (fun event => (t,event)) ∧
        UserRepository.Writes s.db.registry u.db.registry told := by
  rcases Reach.committed runs (fun _ => rfl) authProgram_commits taken with
    same | ⟨t,i,r,writes,next,db,events,_,_,commit,made,same⟩
  · exact .inl ⟨congrArg (fun w => w.db.registry) same,congrArg (fun w => userEvents w.log) same⟩
  · have registry : u.db.registry = db.registry := congrArg (fun w => w.db.registry) same
    have log : userEvents u.world.log =
        userEvents s.world.log ++ userEvents (events.map fun event => (t,event)) := by
      rw [same,World.log_record,userEvents_append]
    rw [registry,log]
    rcases commit.change made with ⟨unchanged,apart⟩ | ⟨told,rfl,written⟩
    · exact .inl ⟨unchanged,by rw [userEvents_none apart,List.append_nil]⟩
    · exact .inr ⟨t,told,by rw [userEvents_own],written⟩

end changes
end Dalm
