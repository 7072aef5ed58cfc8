import Dalm.RefreshTokens
import Dalm.Relational.Alone

/-! The two token stores answer alike. What Redis has forgotten no token presented in time
asks for, since a token expires before its key. -/
namespace Dalm
open Relational Txn
variable {T S : Type}

/-- A call of the token service at one instant of both clocks, with the identifiers it
draws. -/
structure TokenCall (T : Type) where
  now : Time
  accessId : UUID
  refreshId : UUID
  request : AuthRequest T

def TokenCall.input (call : TokenCall T) : AuthInput :=
  ⟨call.now,call.now,0,call.accessId,call.refreshId⟩

def AuthRequest.isTokenCall : AuthRequest T → Bool
  | .issuePair _ => true
  | .rotate _ => true
  | .revoke _ _ => true
  | .revokeAll _ => true
  | _ => false

/-- The refresh token a call presents. -/
def AuthRequest.presented? : AuthRequest T → Option T
  | .rotate refreshToken => some refreshToken
  | .revoke refreshToken _ => some refreshToken
  | _ => none

section service
variable (settings : AuthSettings) (jwt : Jwt T) (store : RefreshTokenStore S)

/-- What calls made one after the other answer. -/
def answers : List (TokenCall T) → AuthWorld S → List (Except Exc (AuthResponse T))
  | [],_ => []
  | call :: rest,w =>
    let (answer,after) := once 0 call.input (authProgram settings jwt store call.request) w
    answer :: answers rest after

/-- Calls of the token service in the order of a clock that never goes back. A refresh
identifier is drawn once, and a token that verifies and bears it is the one encoded. -/
structure Sequence (clock : Time) (calls : List (TokenCall T)) : Prop where
  each : ∀ call ∈ calls, call.request.isTokenCall ∧ clock ≤ call.now
  ordered : calls.Pairwise fun first second => first.now ≤ second.now
  fresh : calls.Pairwise fun first second => first.refreshId ≠ second.refreshId
  genuine : calls.Pairwise fun first second => ∀ token ∈ second.request.presented?,
    ∀ p ∈ jwt.payload token, p.jti = first.refreshId.str → ∃ subject, p =
      TokenService.payloadOf subject "refresh" settings.refreshTokenTtlSeconds first.refreshId.str
        first.now

open TokenService

/-- `decode` at one instant. -/
def claimsOf (token : T) (expectedType : String) (now : Time) : Except Exc TokenClaims :=
  match jwt.payload token with
  | none => .error authenticationFailed
  | some payload =>
    if now < seconds payload.iat then .error authenticationFailed
    else if seconds payload.exp ≤ now then
      if payload.type ≠ expectedType then .error authenticationFailed
      else .error (expired expectedType)
    else if payload.type ≠ expectedType then .error authenticationFailed
    else .ok ⟨payload.sub,payload.jti,payload.type⟩

def pairOf (subject : Subject) (i : AuthInput) : TokenPair T :=
  ⟨jwt.encode (payloadOf subject "access" settings.accessTokenTtlSeconds i.accessId.str i.now),
    jwt.encode (payloadOf subject "refresh" settings.refreshTokenTtlSeconds i.refreshId.str i.now),
    settings.accessTokenTtlSeconds⟩

/-- A store operation in a call: its answer, and the accounts it leaves. -/
def settle {α : Type} (failure : Exc) (value : α) (db : Accounts S) (now : Time)
    (outcome : Option S) : Except Exc α × Accounts S :=
  match outcome with
  | some tokens => (.ok value,{db with tokens := tokens,storeClock := now})
  | none => (.error failure,db)

/-- A call of the token service in one piece. -/
def served (i : AuthInput) (db : Accounts S) :
    AuthRequest T → Except Exc (AuthResponse T) × Accounts S
  | .issuePair subject => settle .responseError (.pair (pairOf settings jwt subject i)) db (db.moment i)
      (store.register i.refreshId.str subject settings.refreshTokenTtlSeconds (db.moment i) db.tokens)
  | .rotate token =>
    match claimsOf jwt token "refresh" i.now with
    | .error error => (.error error,db)
    | .ok claims => settle authenticationFailed (.pair (pairOf settings jwt claims.subject i)) db
        (db.moment i) (store.rotate claims.tokenId i.refreshId.str claims.subject
          settings.refreshTokenTtlSeconds (db.moment i) db.tokens)
  | .revoke token expectedSubject =>
    match claimsOf jwt token "refresh" i.now with
    | .error error => (.error error,db)
    | .ok claims =>
      if claims.subject ≠ expectedSubject then (.error authenticationFailed,db)
      else settle authenticationFailed .done db (db.moment i)
        (store.revoke claims.tokenId claims.subject (db.moment i) db.tokens)
  | .revokeAll subject => settle .responseError .done db (db.moment i)
      (some (store.revokeAll subject (db.moment i) db.tokens).1)
  | _ => (.ok .done,db)

end service

section calls
variable {settings : AuthSettings} {jwt : Jwt T} {store : RefreshTokenStore S} {i : AuthInput}
  {w : AuthWorld S}
open TokenService

theorem once_decode (token : T) (expectedType : String) :
    once 0 i (decode jwt token expectedType) w = (claimsOf jwt token expectedType i.now,w) := by
  unfold decode claimsOf
  rw [once_bind,once_supply]
  cases found : jwt.payload token with
  | none => rfl
  | some payload =>
    by_cases early : i.now < seconds payload.iat
    · simp only [if_pos early]
      rfl
    by_cases over_ : seconds payload.exp ≤ i.now
    · simp only [if_neg early,if_pos over_]
      rw [once_bind,once_supply]
      by_cases other : payload.type ≠ expectedType
      · simp only [if_pos other,if_pos (Or.inr other)]
        rfl
      · have neither : ¬ (i.now < seconds payload.iat ∨ payload.type ≠ expectedType) :=
          not_or.mpr ⟨early,other⟩
        simp only [if_neg other,if_neg neither]
        rfl
    · simp only [if_neg early,if_neg over_]
      split <;> rfl

theorem once_newPair (subject : Subject) : once 0 i (newPair settings jwt subject) w =
    (.ok (pairOf settings jwt subject i,i.refreshId.str),
      w.record 0 [.minted i.accessId.str i.refreshId.str]) := rfl

theorem once_command {failure : Exc} {event : Grants.Event TokenId Subject}
    {run : Time → S → Option S} : once 0 i (command failure event run) w =
      match run (w.db.moment i) w.db.tokens with
      | some tokens => (.ok i,(World.mk {w.db with
          tokens := tokens,storeClock := w.db.moment i} w.log).record 0 [.grant event])
      | none => (.error failure,w) := by
  rw [command,once_commitOr]
  cases run (w.db.moment i) w.db.tokens <;> rfl

theorem once_call (settings : AuthSettings) (jwt : Jwt T) (store : RefreshTokenStore S) (request : AuthRequest T) (call : request.isTokenCall) :
    ((once 0 i (authProgram settings jwt store request) w).1,
      (once 0 i (authProgram settings jwt store request) w).2.db) =
        served settings jwt store i w.db request := by
  cases request with
  | issuePair subject =>
    simp only [authProgram,issuePair,once_bind,once_newPair,once_command,served,settle,World.db_record]
    cases store.register i.refreshId.str subject settings.refreshTokenTtlSeconds (w.db.moment i)
      w.db.tokens <;> rfl
  | rotate token =>
    simp only [authProgram,rotate,once_bind,once_decode,served]
    cases claimsOf jwt token "refresh" i.now with
    | error error => rfl
    | ok claims =>
      simp only [once_newPair,once_command,settle,World.db_record]
      cases store.rotate claims.tokenId i.refreshId.str claims.subject
        settings.refreshTokenTtlSeconds (w.db.moment i) w.db.tokens <;> rfl
  | revoke token expected =>
    simp only [authProgram,revoke,once_bind,once_decode,served]
    cases claimsOf jwt token "refresh" i.now with
    | error error => rfl
    | ok claims =>
      by_cases other : claims.subject ≠ expected
      · simp only [if_pos other,once_throw]
      · simp only [if_neg other,once_bind,once_command,settle]
        cases store.revoke claims.tokenId claims.subject (w.db.moment i) w.db.tokens <;> rfl
  | revokeAll subject =>
    simp only [authProgram,revokeAll,once_bind,once_command,served,settle]
    rfl
  | _ => cases call

end calls
section simulation
variable {ttl : Int} {past : List (TokenCall T)} {clock now : Time} {a : Active} {r : Redis}

/-- What Redis gives out the dictionary has, and what the dictionary has Redis keeps for as
long as a token drawn with it can be in time. -/
structure Agrees (ttl : Int) (past : List (TokenCall T)) (clock : Time) (a : Active) (r : Redis) :
    Prop where
  kept : r.Ok ttl clock
  drawn : ∀ id, r.mentions id → ∃ call ∈ past, id = call.refreshId.str
  backed : ∀ id subject m, clock ≤ m → r.get id m = some subject →
    a.active.lookup id = some subject
  lasting : ∀ id subject, a.active.lookup id = some subject → ∃ call ∈ past,
    id = call.refreshId.str ∧ ∀ m, clock ≤ m →
      Redis.milliseconds m ≤ Redis.milliseconds call.now + ttl * 1000 → r.get id m = some subject

theorem Agrees.later (agrees : Agrees ttl past clock a r) (order : clock ≤ now) :
    Agrees ttl past now a r := by
  refine ⟨agrees.kept.later order,agrees.drawn,?_,?_⟩
  · exact fun id subject m after => agrees.backed id subject m (order.trans after)
  · intro id subject held
    obtain ⟨call,member,same,lasts⟩ := agrees.lasting id subject held
    exact ⟨call,member,same,fun m after => lasts m (order.trans after)⟩

theorem Agrees.more (agrees : Agrees ttl past clock a r) (call : TokenCall T) :
    Agrees ttl (past ++ [call]) clock a r := by
  refine ⟨agrees.kept,?_,agrees.backed,?_⟩
  · intro id mention
    obtain ⟨other,member,same⟩ := agrees.drawn id mention
    exact ⟨other,List.mem_append_left _ member,same⟩
  · intro id subject held
    obtain ⟨other,member,rest⟩ := agrees.lasting id subject held
    exact ⟨other,List.mem_append_left _ member,rest⟩

theorem Agrees.register (agrees : Agrees ttl past clock a r) {call : TokenCall T}
    (moment : clock = call.now) (positive : 0 < ttl) (subject : Subject)
    (fresh : ∀ other ∈ past, other.refreshId ≠ call.refreshId) :
    ∃ r', redisRefreshTokenStore.register call.refreshId.str subject ttl clock r = some r' ∧
      Agrees ttl (past ++ [call]) clock ⟨a.active.insert call.refreshId.str subject⟩ r' := by
  obtain ⟨r',done⟩ : ∃ r', RedisRefreshTokenStore.register call.refreshId.str subject ttl clock r =
      some r' := ⟨_,RedisRefreshTokenStore.register_eq_some.mpr ⟨positive,rfl⟩⟩
  have unmentioned : ¬ r.mentions call.refreshId.str := by
    intro mention
    obtain ⟨other,member,same⟩ := agrees.drawn _ mention
    exact fresh other member (UUID.str_injective same).symm
  have own : ∀ m, clock ≤ m → Redis.milliseconds m ≤ Redis.milliseconds call.now + ttl * 1000 →
      r'.get call.refreshId.str m = some subject := by
    intro m _ alive
    refine Redis.get_eq_some.mpr ⟨Redis.milliseconds clock + ttl * 1000,?_,by rwa [moment]⟩
    rw [RedisRefreshTokenStore.lookup_register done,if_pos rfl]
  have others : ∀ {id m}, clock ≤ m → id ≠ call.refreshId.str → r'.get id m = r.get id m :=
    fun order different => (RedisRefreshTokenStore.lawful ttl).register_others order done different
  refine ⟨r',done,RedisRefreshTokenStore.ok_register agrees.kept unmentioned done,?_,?_,?_⟩
  · intro id mention
    rcases (RedisRefreshTokenStore.lawful ttl).register_mentions done mention with before | same
    · obtain ⟨other,member,same⟩ := agrees.drawn id before
      exact ⟨other,List.mem_append_left _ member,same⟩
    · exact ⟨call,by simp,same⟩
  · intro id owner m order held
    rcases eq_or_ne id call.refreshId.str with rfl | different
    · have same := (RedisRefreshTokenStore.lawful ttl).register_own order done held
      simp [same]
    · rw [others order different] at held
      simpa [different] using agrees.backed id owner m order held
  · intro id owner held
    rcases eq_or_ne id call.refreshId.str with rfl | different
    · have same : subject = owner := by simpa using held
      exact ⟨call,by simp,rfl,fun m order alive => same ▸ own m order alive⟩
    · obtain ⟨other,member,same,lasts⟩ := agrees.lasting id owner (by simpa [different] using held)
      refine ⟨other,List.mem_append_left _ member,same,fun m order alive => ?_⟩
      rw [others order different]
      exact lasts m order alive

theorem Agrees.revoke (agrees : Agrees ttl past clock a r) {id : TokenId} {subject : Subject}
    (held : r.get id clock = some subject) : ∃ r',
      redisRefreshTokenStore.revoke id subject clock r = some r' ∧
        Agrees ttl past clock ⟨a.active.erase id⟩ r' := by
  obtain ⟨r',done⟩ : ∃ r', RedisRefreshTokenStore.revoke id subject clock r = some r' :=
    ⟨_,RedisRefreshTokenStore.revoke_eq_some.mpr ⟨held,rfl⟩⟩
  have after : ∀ {j m}, clock ≤ m → r'.get j m = if j = id then none else r.get j m :=
    fun order => (RedisRefreshTokenStore.lawful ttl).revoke_live _ order done
  refine ⟨r',done,(RedisRefreshTokenStore.lawful ttl).revoke_inv agrees.kept done,?_,?_,?_⟩
  · exact fun j mention => agrees.drawn j
      ((RedisRefreshTokenStore.lawful ttl).revoke_mentions done mention)
  · intro j owner m order live
    rw [after order] at live
    split at live
    next => cases live
    next different => simpa [different] using agrees.backed j owner m order live
  · intro j owner held
    rcases eq_or_ne j id with rfl | different
    · simp at held
    · obtain ⟨call,member,same,lasts⟩ := agrees.lasting j owner (by simpa [different] using held)
      refine ⟨call,member,same,fun m order alive => ?_⟩
      rw [after order,if_neg different]
      exact lasts m order alive

theorem Agrees.revokeAll (agrees : Agrees ttl past clock a r) (subject : Subject) :
    Agrees ttl past clock (inMemoryRefreshTokenStore.revokeAll subject clock a).1
      (redisRefreshTokenStore.revokeAll subject clock r).1 := by
  have after : ∀ {j m}, clock ≤ m →
      (redisRefreshTokenStore.revokeAll subject clock r).1.get j m = (r.get j m).filter (· ≠ subject) :=
    fun order => RedisRefreshTokenStore.get_revokeAll agrees.kept order _
  have after' : ∀ j, (inMemoryRefreshTokenStore.revokeAll subject clock a).1.active.lookup j =
      (a.active.lookup j).filter (· ≠ subject) :=
    InMemoryRefreshTokenStore.lookup_revokeAll a subject clock
  refine ⟨RedisRefreshTokenStore.ok_revokeAll agrees.kept,?_,?_,?_⟩
  · exact fun j mention => agrees.drawn j
      ((RedisRefreshTokenStore.lawful ttl).revokeAll_mentions mention)
  · intro j owner m order live
    rw [after order] at live
    obtain ⟨live,other⟩ := Option.filter_eq_some_iff.mp live
    rw [after']
    exact Option.filter_eq_some_iff.mpr ⟨agrees.backed j owner m order live,other⟩
  · intro j owner held
    rw [after'] at held
    obtain ⟨held,other⟩ := Option.filter_eq_some_iff.mp held
    obtain ⟨call,member,same,lasts⟩ := agrees.lasting j owner held
    refine ⟨call,member,same,fun m order alive => ?_⟩
    rw [after order]
    exact Option.filter_eq_some_iff.mpr ⟨lasts m order alive,other⟩

end simulation

section sequence
variable {settings : AuthSettings} {jwt : Jwt T} {past : List (TokenCall T)} {call : TokenCall T}
  {n clock : Time} {a : Accounts Active} {r : Accounts Redis}
open TokenService

/-- A token's whole seconds are over before the milliseconds of its key. -/
theorem milliseconds_inTime {drawn now ttl : Int}
    (inTime : now < (drawn + ttl * 1000000) / 1000000 * 1000000) :
    now / 1000 ≤ drawn / 1000 + ttl * 1000 := by
  omega

/-- A token that is in time asks for nothing Redis has forgotten. -/
theorem Agrees.accepted {a : Active} {r : Redis} {token : T} {claims : TokenClaims}
    (agrees : Agrees settings.refreshTokenTtlSeconds past call.now a r)
    (genuine : ∀ earlier ∈ past, ∀ p ∈ jwt.payload token, p.jti = earlier.refreshId.str →
      ∃ subject, p = payloadOf subject "refresh" settings.refreshTokenTtlSeconds
        earlier.refreshId.str earlier.now)
    (decoded : claimsOf jwt token "refresh" call.now = .ok claims) :
    a.active.lookup claims.tokenId = some claims.subject ↔
      r.get claims.tokenId call.now = some claims.subject := by
  constructor
  · intro held
    obtain ⟨earlier,member,same,lasts⟩ := agrees.lasting _ _ held
    refine lasts call.now (le_refl _) ?_
    unfold claimsOf at decoded
    cases found : jwt.payload token with
    | none => simp [found] at decoded
    | some p =>
      rw [found] at decoded
      simp only at decoded
      split at decoded
      next => cases decoded
      next =>
        split at decoded
        next => split at decoded <;> cases decoded
        next inTime =>
          split at decoded
          next => cases decoded
          next =>
            cases Except.ok.inj decoded
            obtain ⟨subject,rfl⟩ := genuine earlier member p found same
            exact milliseconds_inTime (not_le.mp inTime)
  · exact agrees.backed _ _ _ (le_refl _)

structure Alike (settings : AuthSettings) (past : List (TokenCall T)) (n : Time)
    (a : Accounts Active) (r : Accounts Redis) : Prop where
  clocks : a.storeClock = r.storeClock
  before : a.storeClock ≤ n
  agrees : Agrees settings.refreshTokenTtlSeconds past a.storeClock a.tokens r.tokens

theorem Alike.unchanged (alike : Alike settings past n a r) (order : n ≤ call.now) :
    Alike settings (past ++ [call]) call.now a r :=
  ⟨alike.clocks,alike.before.trans order,alike.agrees.more call⟩

/-- Outcomes that agree are answered alike. -/
theorem Alike.settle {α : Type} {failure : Exc} {value : α} (alike : Alike settings past n a r)
    (order : n ≤ call.now) {outcome : Option Active} {outcome' : Option Redis}
    (both : (outcome = none ∧ outcome' = none) ∨ ∃ tokens tokens', outcome = some tokens ∧
      outcome' = some tokens' ∧ Agrees settings.refreshTokenTtlSeconds (past ++ [call]) call.now
        tokens tokens') :
    (Dalm.settle failure value a call.now outcome).1 =
        (Dalm.settle failure value r call.now outcome').1 ∧
      Alike settings (past ++ [call]) call.now (Dalm.settle failure value a call.now outcome).2
        (Dalm.settle failure value r call.now outcome').2 := by
  rcases both with ⟨rfl,rfl⟩ | ⟨tokens,tokens',rfl,rfl,agrees⟩
  · exact ⟨rfl,alike.unchanged order⟩
  · exact ⟨rfl,rfl,le_refl _,agrees⟩

theorem Alike.served (jwt : Jwt T) (alike : Alike settings past n a r) (positive : 0 < settings.refreshTokenTtlSeconds)
    (order : n ≤ call.now) (isCall : call.request.isTokenCall)
    (fresh : ∀ earlier ∈ past, earlier.refreshId ≠ call.refreshId)
    (genuine : ∀ earlier ∈ past, ∀ token ∈ call.request.presented?, ∀ p ∈ jwt.payload token,
      p.jti = earlier.refreshId.str → ∃ subject, p = payloadOf subject "refresh"
        settings.refreshTokenTtlSeconds earlier.refreshId.str earlier.now) :
    (Dalm.served settings jwt inMemoryRefreshTokenStore call.input a call.request).1 =
        (Dalm.served settings jwt redisRefreshTokenStore call.input r call.request).1 ∧
      Alike settings (past ++ [call]) call.now
        (Dalm.served settings jwt inMemoryRefreshTokenStore call.input a call.request).2
        (Dalm.served settings jwt redisRefreshTokenStore call.input r call.request).2 := by
  have moment : a.moment call.input = call.now := max_eq_right (alike.before.trans order)
  have moment' : r.moment call.input = call.now :=
    max_eq_right (alike.clocks ▸ alike.before.trans order)
  have agrees := alike.agrees.later (alike.before.trans order)
  generalize asked : call.request = request at *
  cases request with
  | issuePair subject =>
    simp only [Dalm.served,moment,moment']
    obtain ⟨tokens',done,after⟩ := agrees.register rfl positive subject fresh
    exact alike.settle order (.inr ⟨_,tokens',rfl,done,after⟩)
  | rotate token =>
    simp only [Dalm.served,moment,moment']
    cases decoded : claimsOf jwt token "refresh" call.input.now with
    | error error => exact ⟨rfl,alike.unchanged order⟩
    | ok claims =>
      have accepted := agrees.accepted (genuine · · token rfl) decoded
      refine alike.settle order ?_
      by_cases held : a.tokens.active.lookup claims.tokenId = some claims.subject
      · obtain ⟨between,revoked,agrees⟩ := agrees.revoke (accepted.mp held)
        obtain ⟨after,registered,agrees⟩ := agrees.register rfl positive claims.subject fresh
        obtain ⟨_,_,revoked',registered',same⟩ :=
          (RedisRefreshTokenStore.lawful _).rotate_accepted call.refreshId.str
            (alike.agrees.later (alike.before.trans order)).kept (accepted.mp held)
        cases Option.some.inj (revoked.symm.trans revoked')
        cases Option.some.inj (registered.symm.trans registered')
        exact .inr ⟨_,after,if_neg (not_not.mpr held),same,agrees⟩
      · exact .inl ⟨if_pos held,(RedisRefreshTokenStore.lawful
          settings.refreshTokenTtlSeconds).rotate_refused _ (mt accepted.mpr held)⟩
  | revoke token expected =>
    simp only [Dalm.served,moment,moment']
    cases decoded : claimsOf jwt token "refresh" call.input.now with
    | error error => exact ⟨rfl,alike.unchanged order⟩
    | ok claims =>
      simp only
      split
      · exact ⟨rfl,alike.unchanged order⟩
      have accepted := agrees.accepted (genuine · · token rfl) decoded
      refine alike.settle order ?_
      by_cases held : a.tokens.active.lookup claims.tokenId = some claims.subject
      · obtain ⟨after,revoked,agrees⟩ := agrees.revoke (accepted.mp held)
        exact .inr ⟨_,after,if_neg (not_not.mpr held),revoked,agrees.more call⟩
      · exact .inl ⟨if_pos held,if_pos (mt accepted.mpr held)⟩
  | revokeAll subject =>
    simp only [Dalm.served,moment,moment']
    exact alike.settle order (.inr ⟨_,_,rfl,rfl,(agrees.revokeAll subject).more call⟩)
  | _ => cases isCall

theorem answers_agree (past : List (TokenCall T)) (positive : 0 < settings.refreshTokenTtlSeconds)
    {calls : List (TokenCall T)} (sequence : Sequence settings jwt clock calls)
    {w : AuthWorld Active} {w' : AuthWorld Redis} (alike : Alike settings past n w.db w'.db)
    (later : ∀ call ∈ calls, n ≤ call.now)
    (joined : ∀ earlier ∈ past, ∀ call ∈ calls, earlier.refreshId ≠ call.refreshId ∧
      ∀ token ∈ call.request.presented?, ∀ p ∈ jwt.payload token, p.jti = earlier.refreshId.str →
        ∃ subject, p = payloadOf subject "refresh" settings.refreshTokenTtlSeconds
          earlier.refreshId.str earlier.now) :
    answers settings jwt inMemoryRefreshTokenStore calls w =
      answers settings jwt redisRefreshTokenStore calls w' := by
  induction calls generalizing past n w w' with
  | nil => rfl
  | cons call rest ih =>
    obtain ⟨isCall,_⟩ := sequence.each call List.mem_cons_self
    obtain ⟨ordered,ordered'⟩ := List.pairwise_cons.mp sequence.ordered
    obtain ⟨fresh,fresh'⟩ := List.pairwise_cons.mp sequence.fresh
    obtain ⟨genuine,genuine'⟩ := List.pairwise_cons.mp sequence.genuine
    obtain ⟨same,after⟩ := alike.served jwt positive (later call List.mem_cons_self) isCall
      (fun earlier member => (joined earlier member call List.mem_cons_self).1)
      (fun earlier member => (joined earlier member call List.mem_cons_self).2)
    have one := once_call settings jwt inMemoryRefreshTokenStore call.request (i := call.input)
      (w := w) isCall
    have other := once_call settings jwt redisRefreshTokenStore call.request (i := call.input)
      (w := w') isCall
    rw [← one,← other] at same after
    unfold answers
    refine congrArg₂ List.cons same (ih _ ?_ after ordered ?_)
    · exact ⟨fun call member => sequence.each call (List.mem_cons_of_mem _ member),ordered',fresh',
        genuine'⟩
    · intro earlier member later inside
      rcases List.mem_append.mp member with member | member
      · exact joined earlier member later (List.mem_cons_of_mem _ inside)
      · cases List.mem_singleton.mp member
        exact ⟨fresh later inside,genuine later inside⟩

end sequence

/-- Whatever calls follow each other, both stores answer them alike. -/
theorem stores_agree (settings : AuthSettings) (jwt : Jwt T)
    (positive : 0 < settings.refreshTokenTtlSeconds) (clock : Time) (calls : List (TokenCall T))
    (sequence : Sequence settings jwt clock calls) :
    answers settings jwt redisRefreshTokenStore calls
        (opening (T := T) redisRefreshTokenStore clock).world =
      answers settings jwt inMemoryRefreshTokenStore calls
        (opening (T := T) inMemoryRefreshTokenStore clock).world := by
  refine (answers_agree [] (n := clock) positive sequence ⟨rfl,le_refl _,?_⟩
    (fun call member => (sequence.each call member).2) (by simp)).symm
  refine ⟨(RedisRefreshTokenStore.lawful _).empty_inv clock,?_,?_,?_⟩
  · exact fun id mention => absurd mention ((RedisRefreshTokenStore.lawful 0).empty_mentions id)
  · intro id subject m _ held
    cases held
  · intro id subject held
    cases held

namespace Sample

def issued : Payload := TokenService.payloadOf "user".toList "refresh" 2592000 (UUID.str 2) 0

/-- A pair is issued and rotated, and its refresh token is presented again. -/
def calls : List (TokenCall Payload) :=
  [⟨0,1,2,.issuePair "user".toList⟩,⟨seconds 5,3,4,.rotate issued⟩,⟨seconds 6,5,6,.rotate issued⟩]

theorem sequence : Sequence authSettings jwt 0 calls := by
  refine ⟨by decide,by decide,by decide,?_⟩
  have first : ∀ token ∈ (AuthRequest.rotate issued).presented?, ∀ p ∈ jwt.payload token,
      p.jti = UUID.str 2 → ∃ subject, p =
        TokenService.payloadOf subject "refresh" 2592000 (UUID.str 2) 0 := by
    intro token presented p found _
    cases presented
    cases found
    exact ⟨"user".toList,rfl⟩
  have second : ∀ token ∈ (AuthRequest.rotate issued).presented?, ∀ p ∈ jwt.payload token,
      p.jti = UUID.str 4 → ∃ subject, p =
        TokenService.payloadOf subject "refresh" 2592000 (UUID.str 4) (seconds 5) := by
    intro token presented p found same
    cases presented
    cases found
    exact absurd (UUID.str_injective same) (by decide)
  refine .cons ?_ (.cons ?_ (.cons ?_ .nil)) <;> simp only [List.forall_mem_cons]
  · exact ⟨first,first,List.forall_mem_nil _⟩
  · exact ⟨second,List.forall_mem_nil _⟩
  · exact List.forall_mem_nil _

end Sample

theorem stores_agree_rotated :
    answers Sample.authSettings Sample.jwt redisRefreshTokenStore Sample.calls
        (opening (T := Payload) redisRefreshTokenStore 0).world =
      answers Sample.authSettings Sample.jwt inMemoryRefreshTokenStore Sample.calls
        (opening (T := Payload) inMemoryRefreshTokenStore 0).world :=
  stores_agree Sample.authSettings Sample.jwt (by decide) 0 Sample.calls Sample.sequence

end Dalm
