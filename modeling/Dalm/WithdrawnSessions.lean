import Dalm.RefreshTokens

/-! A withdrawal ends its user's sessions, unless a login that found the user before it
registers its refresh token after it. -/
namespace Dalm
open Relational
variable {T S : Type}

/-- The history with a withdrawal of the user that has revoked all of his tokens. -/
structure Left (user : UUID) (before : List (Nat × AuthEvent)) (t : Nat) (after log : List (Nat × AuthEvent)) :
    Prop where
  log : log = before ++ (t,.grant (.cleared user.str)) :: after
  withdrawn : ∃ loaded, (t,.user (.withdrawn loaded)) ∈ before ∧ loaded.id = user

/-- A step that registers a token of a user whose withdrawal is complete. -/
def RegistersLate (user : UUID) (s u : AuthSystem T S) : Prop :=
  (∃ before t after, Left user before t after s.world.log) ∧
    ∃ new t id, u.world.log = s.world.log ++ new ∧ (t,.grant (.granted id user.str)) ∈ new

section runs
variable (settings : AuthSettings) (jwt : Jwt T) (store : RefreshTokenStore S) (clock : Time)

/-- The runs in which no login of the user comes late. -/
def Punctual (user : UUID) (s : AuthSystem T S) (action : Action AuthInput Exc (AuthRequest T))
    (u : AuthSystem T S) : Prop := (drawing S).admits s u action ∧ ¬ RegistersLate user s u

/-- Session `t` was a withdrawal of the user that returned, and session `v` a refresh with
a token of his that began after it and returned. -/
structure RefreshedAfter (user : UUID) (s u : AuthSystem T S) (t v : Nat) : Prop where
  withdrawal : ∃ access p response, s.session t =
    some ⟨.withdrawMyAccount (some access),.inr (.ok response)⟩ ∧ jwt.payload access = some p ∧
      p.sub = user.str
  later : s.session v = none
  refresh : ∃ token p response, u.session v = some ⟨.refresh token,.inr (.ok response)⟩ ∧
    jwt.payload token = some p ∧ p.sub = user.str

/-- In punctual runs a withdrawal ends the session. -/
def WithdrawalEndsSession : Prop :=
  ∀ user s u t v, Runs (authProgram settings jwt store) (Punctual user) (opening store clock) s →
    Runs (authProgram settings jwt store) (Punctual user) s u → ¬ RefreshedAfter jwt user s u t v

end runs

section ends
variable {settings : AuthSettings} {jwt : Jwt T} {store : RefreshTokenStore S} {clock : Time}
  {user : UUID}

theorem Punctual.reach {a b : AuthSystem T S}
    (runs : Runs (authProgram settings jwt store) (Punctual user) a b) :
    Reach (authProgram settings jwt store) (drawing S) a b :=
  Reach.of_runs runs fun _ _ _ holds => holds.1

/-- One change makes at most one operation of the token store. -/
theorem AuthChange.single {r : AuthRequest T} {t : Nat} {w : AuthWorld S} {db : Accounts S}
    {events : List AuthEvent} {first second : Grants.Event TokenId Subject}
    (change : AuthChange jwt settings store r t w db events) (one : .grant first ∈ events)
    (other : .grant second ∈ events) : first = second := by
  cases change with
  | minted => simp at one
  | user => simp at one
  | _ =>
    cases List.mem_singleton.mp one
    cases List.mem_singleton.mp other
    rfl

/-- No token is granted to the user once a withdrawal of his is complete. -/
def NoneAfter (user : UUID) (log : List (Nat × AuthEvent)) : Prop :=
  ∀ before t after, Left user before t after log →
    ∀ v id, (v,.grant (.granted id user.str)) ∉ after

theorem NoneAfter.step (laws : store.Lawful settings.refreshTokenTtlSeconds) {s u : AuthSystem T S}
    (reachable : AuthReachable settings jwt store clock s)
    {action : Action AuthInput Exc (AuthRequest T)}
    (taken : s.step (authProgram settings jwt store) action = some u)
    (punctual : Punctual user s action u) (none_ : NoneAfter user s.world.log) :
    NoneAfter user u.world.log := by
  rcases reachable.change laws taken punctual.1 with same | ⟨w,r,db,events,change,same⟩
  · rw [same]
    exact none_
  · intro before t after left v id member
    have log : u.world.log = s.world.log ++ events.map fun event => (w,event) := by
      rw [same,World.log_record]
    rcases World.told_cases (log ▸ left.log) with ⟨later,split⟩ | ⟨between,split,new⟩
    · have left' : Left user before t later s.world.log := ⟨split,left.withdrawn⟩
      have rest : after = later ++ events.map fun event => (w,event) := by
        have whole := left.log
        rw [log,split] at whole
        simpa using whole.symm
      rw [rest,List.mem_append] at member
      rcases member with member | member
      · exact none_ before t later left' v id member
      · exact punctual.2 ⟨⟨before,t,later,left'⟩,_,v,id,log,member⟩
    · have cleared : (t,.grant (.cleared user.str)) ∈ events.map fun event => (w,event) := by
        rw [new]
        simp
      have granted : (v,.grant (.granted id user.str)) ∈ events.map fun event => (w,event) := by
        rw [new]
        simp [member]
      obtain ⟨_,one,same⟩ := List.mem_map.mp cleared
      cases same
      obtain ⟨_,other,same⟩ := List.mem_map.mp granted
      cases same
      cases change.single one other

theorem NoneAfter.run (laws : store.Lawful settings.refreshTokenTtlSeconds) {u : AuthSystem T S}
    (runs : Runs (authProgram settings jwt store) (Punctual user) (opening store clock) u) :
    NoneAfter user u.world.log := by
  induction runs with
  | refl =>
    intro before t after left
    have empty : ([] : List (Nat × AuthEvent)) = before ++ (t,.grant (.cleared user.str)) :: after :=
      left.log
    simp at empty
  | tail before link ih =>
    obtain ⟨action,taken,punctual⟩ := link
    exact ih.step laws (Punctual.reach before) taken punctual

theorem withdrawalEndsSession_of_lawful (settings : AuthSettings) (jwt : Jwt T) (clock : Time)
    (laws : store.Lawful settings.refreshTokenTtlSeconds) :
    WithdrawalEndsSession settings jwt store clock := by
  intro user s u t v first second refreshed
  obtain ⟨access,p,response,ended,found,own⟩ := refreshed.withdrawal
  obtain ⟨token,q,answer,ended',found',own'⟩ := refreshed.refresh
  have reachable : AuthReachable settings jwt store clock s := Punctual.reach first
  have reachable' : AuthReachable settings jwt store clock u :=
    Reach.trans reachable (Punctual.reach second)
  obtain ⟨_,p',loaded,before,given,found₂,parsed,member,start⟩ := reachable.outcome laws ended
  cases Option.some.inj given
  cases Option.some.inj (found.symm.trans found₂)
  rw [own,UUID.parse_str] at parsed
  rw [own] at start
  obtain ⟨q',new,found₃,exchanged⟩ := reachable'.outcome laws ended'
  cases Option.some.inj (found'.symm.trans found₃)
  rw [own'] at exchanged
  have long : before ++ [(t,.grant (.cleared user.str))] <+: u.world.log :=
    start.trans (Punctual.reach second).log_grows
  obtain ⟨after,log⟩ := long
  have left : Left user before t after u.world.log :=
    ⟨by simpa using log.symm,loaded,member,(Option.some.inj parsed).symm⟩
  obtain ⟨H,good⟩ := reachable.good laws
  -- Session `v` had written nothing when the withdrawal was complete.
  have late : (v,.grant (.exchanged q.jti new user.str)) ∈ after := by
    rw [left.log,List.append_cons,List.mem_append] at exchanged
    refine exchanged.resolve_left fun early => ?_
    exact good.silent v refreshed.later _ (start.subset early) rfl
  have none_ := NoneAfter.run laws (first.trans second) before t after left
  obtain ⟨K,good'⟩ := reachable'.good laws
  have valid := good'.inv.valid
  rw [left.log,grants_append] at valid
  have ungranted : ∀ id, .granted id user.str ∉ grants after := by
    intro id granted
    obtain ⟨w,granted⟩ := mem_grants.mp granted
    exact none_ w id granted
  exact valid.exchange_cleared ungranted (mem_grants.mpr ⟨v,late⟩)

/-- Over either store, where no login registers its token after a withdrawal of the user
is complete, no refresh that begins after it succeeds. -/
theorem withdrawalEndsSession (settings : AuthSettings) (jwt : Jwt T) (clock : Time) :
    WithdrawalEndsSession settings jwt inMemoryRefreshTokenStore clock ∧
      WithdrawalEndsSession settings jwt redisRefreshTokenStore clock :=
  ⟨withdrawalEndsSession_of_lawful settings jwt clock (InMemoryRefreshTokenStore.lawful _),
    withdrawalEndsSession_of_lawful settings jwt clock (RedisRefreshTokenStore.lawful _)⟩

end ends

namespace Sample

/-- A first login draws its identifiers at the fourth statement, a later one at the second. -/
def loggedIn : AuthActions :=
  .start 1 (.loginWithKakao "1") :: statements 1 0 100 8 ++
    .start 2 (.loginWithKakao "1") :: statements 2 (seconds 1) 200 4

def withdrawn (t : Nat) (first : Nat) : AuthActions :=
  .start t (.withdrawMyAccount (some (tokenOf "access" 1800 0 206))) ::
    statements t (seconds 2) first 6

def refreshed (t : Nat) (first : Nat) : AuthActions :=
  .start t (.refresh (tokenOf "refresh" 2592000 (seconds 1) 403)) ::
    statements t (seconds 3) first 6

/-- A login that found the user registers its token after the withdrawal, or before it. -/
def lateLogin : AuthActions := loggedIn ++ withdrawn 3 300 ++ statements 2 (seconds 2) 400 2

def earlyLogin : AuthActions := loggedIn ++ statements 2 (seconds 2) 400 2 ++ withdrawn 3 300

/-- A step that grants the first user no token, or comes before his withdrawal is complete. -/
def inTime (s u : AuthSystem Payload Redis) : Bool :=
  ¬ (s.world.log.any (fun entry => entry.2 = .grant (.cleared (UUID.str 1))) ∧
    (u.world.log.drop s.world.log.length).any fun entry => match entry.2 with
      | .grant (.granted _ subject) => subject = UUID.str 1
      | _ => false)

theorem not_registersLate {s u : AuthSystem Payload Redis} (passes : inTime s u = true) :
    ¬ RegistersLate 1 s u := by
  rintro ⟨⟨before,t,after,left⟩,new,v,id,log,member⟩
  refine of_decide_eq_true passes ⟨?_,?_⟩
  · rw [List.any_eq_true]
    exact ⟨_,left.log ▸ List.mem_append_right _ List.mem_cons_self,decide_eq_true rfl⟩
  · rw [log,List.drop_left,List.any_eq_true]
    exact ⟨_,member,decide_eq_true rfl⟩

def ownWithdrawal : AuthRequest Payload → Bool
  | .withdrawMyAccount (some access) => access.sub = UUID.str 1
  | _ => false

def ownRefresh : AuthRequest Payload → Bool
  | .refresh token => token.sub = UUID.str 1
  | _ => false

theorem withdrawal_of_returned {s : AuthSystem Payload Redis} {t : Nat}
    (passes : returned s t ownWithdrawal = true) : ∃ access p response, s.session t =
      some ⟨.withdrawMyAccount (some access),.inr (.ok response)⟩ ∧ jwt.payload access = some p ∧
        p.sub = UUID.str 1 := by
  obtain ⟨request,response,asks,present⟩ := of_returned passes
  cases request with
  | withdrawMyAccount credentials =>
    cases credentials with
    | none => cases asks
    | some access => exact ⟨access,access,response,present,rfl,of_decide_eq_true asks⟩
  | _ => cases asks

theorem refresh_of_returned {s : AuthSystem Payload Redis} {t : Nat}
    (passes : returned s t ownRefresh = true) : ∃ token p response, s.session t =
      some ⟨.refresh token,.inr (.ok response)⟩ ∧ jwt.payload token = some p ∧
        p.sub = UUID.str 1 := by
  obtain ⟨request,response,asks,present⟩ := of_returned passes
  cases request with
  | refresh token => exact ⟨token,token,response,present,rfl,of_decide_eq_true asks⟩
  | _ => cases asks

/-- A run in two stretches, with what was found after each. -/
theorem inTwo {R : AuthSystem Payload Redis → Action AuthInput Exc (AuthRequest Payload) →
    AuthSystem Payload Redis → Prop} (check : AuthSystem Payload Redis →
      Action AuthInput Exc (AuthRequest Payload) → AuthSystem Payload Redis → Bool)
    (sound : ∀ s action u, check s action u = true → R s action u) (actions more : AuthActions)
    (first second : AuthSystem Payload Redis → Bool)
    (passes : ((authAfter check actions start).any fun s => first s &&
      (authAfter check more s).any second) = true) : ∃ s u,
        Runs (authProgram authSettings jwt redisRefreshTokenStore) R start s ∧ first s = true ∧
          Runs (authProgram authSettings jwt redisRefreshTokenStore) R s u ∧ second u = true := by
  obtain ⟨s,ran,passes⟩ := (Option.any_eq_true _ _).mp passes
  obtain ⟨found,passes⟩ := Bool.and_eq_true_iff.mp passes
  obtain ⟨u,ran',found'⟩ := (Option.any_eq_true _ _).mp passes
  exact ⟨s,u,Reach.runs_of_runWhile (fun s action u _ => sound s action u) ran,found,
    Reach.runs_of_runWhile (fun s action u _ => sound s action u) ran',found'⟩

end Sample

theorem withdrawalEndsSession_early : ∃ s u : AuthSystem Payload Redis,
    Sample.returned s 3 Sample.ownWithdrawal ∧ (s.session 4).isNone ∧ (u.session 4).isSome ∧
      ¬ RefreshedAfter Sample.jwt 1 s u 3 4 := by
  have sound : ∀ (s : AuthSystem Payload Redis) (action : Action AuthInput Exc (AuthRequest Payload))
      (u : AuthSystem Payload Redis), (Sample.drawsFresh s action && Sample.inTime s u) = true →
        Punctual 1 s action u := by
    intro s action u passes
    obtain ⟨fresh,inTime⟩ := Bool.and_eq_true_iff.mp passes
    exact ⟨Sample.admits_of_drawsFresh fresh,Sample.not_registersLate inTime⟩
  obtain ⟨s,u,first,found,second,later⟩ := Sample.inTwo
    (fun s action u => Sample.drawsFresh s action && Sample.inTime s u) sound Sample.earlyLogin
    (Sample.refreshed 4 500)
    (fun s => Sample.returned s 3 Sample.ownWithdrawal && (s.session 4).isNone)
    (fun u => (u.session 4).isSome) (by decide +kernel)
  obtain ⟨withdrawal,absent⟩ := Bool.and_eq_true_iff.mp found
  exact ⟨s,u,withdrawal,absent,later,
    (withdrawalEndsSession Sample.authSettings Sample.jwt 0).2 1 s u 3 4 first second⟩

theorem refreshed_after_withdrawal : ¬ ∀ (settings : AuthSettings) (jwt : Jwt Payload)
    (clock : Time) (user : UUID) (s u : AuthSystem Payload Redis) (t v : Nat),
      AuthReachable settings jwt redisRefreshTokenStore clock s →
      Reach (authProgram settings jwt redisRefreshTokenStore) (drawing Redis) s u →
        ¬ RefreshedAfter jwt user s u t v := by
  intro claim
  obtain ⟨s,u,first,found,second,refresh⟩ := Sample.inTwo
    (R := fun s action u => (drawing Redis).admits s u action)
    (fun s action _ => Sample.drawsFresh s action) (fun _ _ _ => Sample.admits_of_drawsFresh)
    Sample.lateLogin (Sample.refreshed 4 500)
    (fun s => Sample.returned s 3 Sample.ownWithdrawal && (s.session 4).isNone)
    (fun u => Sample.returned u 4 Sample.ownRefresh) (by decide +kernel)
  obtain ⟨withdrawal,absent⟩ := Bool.and_eq_true_iff.mp found
  refine claim _ _ _ 1 s u 3 4 (Reach.of_runs first fun _ _ _ => id)
    (Reach.of_runs second fun _ _ _ => id) ⟨?_,?_,?_⟩
  · exact Sample.withdrawal_of_returned withdrawal
  · exact Option.isNone_iff_eq_none.mp absent
  · exact Sample.refresh_of_returned refresh

end Dalm
