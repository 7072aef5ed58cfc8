import Dalm.AuthPrograms

/-! Refresh tokens are used once, and what is revoked stays revoked, in every run of the
accounts over a store that keeps its laws. -/
namespace Dalm
open Relational
variable {T S : Type}

/-- The runs in which identifiers are drawn fresh. -/
def drawing (S : Type) : Discipline (Accounts S) AuthInput AuthEvent :=
  ⟨fun w i => Unminted i.accessId.str i.refreshId.str w.log,fun _ _ => True,True⟩

/-- A rotate or a revoke of the token would be answered True. -/
def RefreshTokenStore.Accepts (store : RefreshTokenStore S) (ttl : Int) (now : Time) (s : S)
    (id : TokenId) (subject : Subject) : Prop :=
  (store.revoke id subject now s).isSome ∨ ∃ new, (store.rotate id new subject ttl now s).isSome

/-- Session `t` was a call that presented the token and was answered. -/
def AcceptedBy (s : AuthSystem T S) (t : Nat) (token : T) : Prop :=
  ∃ request response, s.session t = some ⟨request,.inr (.ok response)⟩ ∧
    (request = .rotate token ∨ request = .refresh token ∨ (∃ subject, request = .revoke token subject) ∨
      ∃ credentials, request = .logout credentials token)

section runs
variable (settings : AuthSettings) (jwt : Jwt T) (store : RefreshTokenStore S) (clock : Time)

/-- What any interleaving of any calls leads to. -/
def AuthReachable (s : AuthSystem T S) : Prop :=
  Reach (authProgram settings jwt store) (drawing S) (opening store clock) s

/-- What holds of the tokens in one state and of the history that led to it. -/
structure TokensUsedOnce (s : AuthSystem T S) : Prop where
  used : (Grants.used (grants s.world.log)).Nodup
  accepted : ∀ t u token token' p p', AcceptedBy s t token → AcceptedBy s u token' →
    jwt.payload token = some p → jwt.payload token' = some p' → p.jti = p'.jti → t = u
  chain : ∀ root first second now subject subject', s.db.storeClock ≤ now →
    Grants.Descends (grants s.world.log) root first →
    Grants.Descends (grants s.world.log) root second →
    store.Accepts settings.refreshTokenTtlSeconds now s.db.tokens first subject →
    store.Accepts settings.refreshTokenTtlSeconds now s.db.tokens second subject' → first = second
  revoked : ∀ before t subject after root id, s.world.log =
      before ++ (t,.grant (.cleared subject)) :: after →
    (root,subject) ∈ Grants.added (grants before) → Grants.Descends (grants s.world.log) root id →
    id ∉ Grants.used (grants after) ∧ ∀ now owner, s.db.storeClock ≤ now →
      ¬ store.Accepts settings.refreshTokenTtlSeconds now s.db.tokens id owner

structure RefreshTokenSafety : Prop where
  once : ∀ s : AuthSystem T S, AuthReachable settings jwt store clock s →
    TokensUsedOnce settings jwt store s
  isolated : ∀ (s u : AuthSystem T S) t i session subject other id now,
    AuthReachable settings jwt store clock s → (drawing S).input s.world i →
    s.step (authProgram settings jwt store) (.exec t i) = some u →
    s.session t = some session → session.request.subject? jwt = some subject → other ≠ subject →
    u.db.storeClock ≤ now →
      (store.Accepts settings.refreshTokenTtlSeconds now s.db.tokens id other ↔
        store.Accepts settings.refreshTokenTtlSeconds now u.db.tokens id other)

end runs

section safety
variable {settings : AuthSettings} {jwt : Jwt T} {store : RefreshTokenStore S} {clock : Time}
  {laws : store.Lawful settings.refreshTokenTtlSeconds}

theorem draws_drawing : Draws (drawing S) := fun _ _ fresh => fresh

theorem authInv_opening (laws : store.Lawful settings.refreshTokenTtlSeconds) :
    AuthInv laws (opening (T := T) store clock).world := by
  refine ⟨laws.empty_inv clock,?_,.nil,?_,?_,?_⟩
  · exact fun id mention => absurd mention (laws.empty_mentions id)
  · intro id subject live
    have nobody : (none : Option Subject) = some subject := (laws.empty_live clock id).symm.trans live
    cases nobody
  · intro t event pair member
    cases member
  · intro t u a b id member
    cases member

theorem AuthReachable.good (laws : store.Lawful settings.refreshTokenTtlSeconds)
    {s : AuthSystem T S} (reachable : AuthReachable settings jwt store clock s) :
    ∃ H, Good (authProtocol jwt settings store laws) (drawing S) (AuthOutcome jwt) s H :=
  Reach.good reachable ⟨_,.initial _ (authInv_opening (T := T) laws)⟩ (authMeets laws draws_drawing)
    fun _ _ _ _ _ outcome later => outcome.later later

theorem AuthReachable.outcome (laws : store.Lawful settings.refreshTokenTtlSeconds)
    {s : AuthSystem T S} (reachable : AuthReachable settings jwt store clock s) {t : Nat}
    {request : AuthRequest T} {response : AuthResponse T}
    (ended : s.session t = some ⟨request,.inr (.ok response)⟩) :
    AuthOutcome jwt request t (.ok response) s.world :=
  Reach.returned reachable ⟨_,.initial _ (authInv_opening (T := T) laws)⟩ (fun _ => rfl)
    (authMeets laws draws_drawing) (fun _ _ _ _ _ outcome later => outcome.later later) ended

/-- A step adds the events of one change to the history, or none. -/
theorem AuthReachable.change (laws : store.Lawful settings.refreshTokenTtlSeconds)
    {s u : AuthSystem T S} (reachable : AuthReachable settings jwt store clock s)
    {action : Action AuthInput Exc (AuthRequest T)}
    (taken : s.step (authProgram settings jwt store) action = some u)
    (admitted : (drawing S).admits s u action) : u.world = s.world ∨ ∃ t r db events,
      AuthChange jwt settings store r t s.world db events ∧
        u.world = (World.mk db s.world.log).record t events := by
  obtain ⟨H,good⟩ := reachable.good laws
  refine (good.change taken admitted).imp id ?_
  rintro ⟨t,i,session,_,_,db,events,change,same⟩
  exact ⟨t,_,db,events,change,same⟩

theorem accepts_iff_live (laws : store.Lawful settings.refreshTokenTtlSeconds) {now : Time} {s : S}
    {id : TokenId} {subject : Subject} :
    store.Accepts settings.refreshTokenTtlSeconds now s id subject ↔
      laws.live now s id = some subject := by
  constructor
  · rintro (revoked | ⟨new,rotated⟩)
    · exact (laws.revoke_answer id subject).mp revoked
    · by_contra refused
      rw [laws.rotate_refused new refused] at rotated
      cases rotated
  · exact fun live => .inl ((laws.revoke_answer id subject).mpr live)

/-- Who used which token. -/
def usedBy (log : List (Nat × AuthEvent)) : List (Nat × TokenId) :=
  log.filterMap fun entry => (entry.2.grant?.bind Grants.Event.used?).map fun id => (entry.1,id)

theorem usedBy_ids (log : List (Nat × AuthEvent)) :
    (usedBy log).map Prod.snd = Grants.used (grants log) := by
  simp only [usedBy,Grants.used,grants,List.map_filterMap,List.filterMap_filterMap]
  congr 1
  funext entry
  cases entry.2.grant? with
  | none => rfl
  | some event => simp [Option.map_map,Function.comp_def]

theorem mem_usedBy {log : List (Nat × AuthEvent)} {t : Nat} {event : Grants.Event TokenId Subject}
    {id : TokenId} (member : (t,.grant event) ∈ log) (uses : event.used? = some id) :
    (t,id) ∈ usedBy log := List.mem_filterMap.mpr ⟨_,member,by simp [AuthEvent.grant?,uses]⟩

theorem AcceptedBy.used (laws : store.Lawful settings.refreshTokenTtlSeconds) {s : AuthSystem T S}
    (reachable : AuthReachable settings jwt store clock s) {t : Nat} {token : T} {p : Payload}
    (accepted : AcceptedBy s t token) (found : jwt.payload token = some p) :
    (t,p.jti) ∈ usedBy s.world.log := by
  obtain ⟨request,response,ended,presented⟩ := accepted
  have outcome := reachable.outcome laws ended
  have own : ∀ {q}, jwt.payload token = some q → q = p := fun same =>
    Option.some.inj (same.symm.trans found)
  rcases presented with rfl | rfl | ⟨_,rfl⟩ | ⟨_,rfl⟩
  · obtain ⟨q,new,same,member⟩ := outcome
    exact own same ▸ mem_usedBy member rfl
  · obtain ⟨q,new,same,member⟩ := outcome
    exact own same ▸ mem_usedBy member rfl
  · obtain ⟨q,same,member⟩ := outcome
    exact own same ▸ mem_usedBy member rfl
  · obtain ⟨q,same,member⟩ := outcome
    exact own same ▸ mem_usedBy member rfl

theorem AuthReachable.usedOnce (laws : store.Lawful settings.refreshTokenTtlSeconds)
    {s : AuthSystem T S} (reachable : AuthReachable settings jwt store clock s) :
    TokensUsedOnce settings jwt store s := by
  obtain ⟨H,good⟩ := reachable.good laws
  have inv : AuthInv laws s.world := good.inv
  have live : ∀ {now id subject}, s.db.storeClock ≤ now →
      store.Accepts settings.refreshTokenTtlSeconds now s.db.tokens id subject →
        Grants.holder (grants s.world.log) id = some subject :=
    fun order accepts => inv.still order ((accepts_iff_live laws).mp accepts)
  refine ⟨inv.valid.used_once,?_,?_,?_⟩
  · intro t u token token' p p' first second found found' same
    have distinct : ((usedBy s.world.log).map Prod.snd).Nodup := by
      rw [usedBy_ids]
      exact inv.valid.used_once
    have entry := List.inj_on_of_nodup_map distinct (first.used laws reachable found)
      (second.used laws reachable found') same
    exact (Prod.mk.inj entry).1
  · intro root first second now subject subject' order one other accepts accepts'
    exact inv.valid.chain one other (by simp [live order accepts]) (by simp [live order accepts'])
  · intro before t subject after root id split was descends
    have split' : grants s.world.log = grants before ++ .cleared subject :: grants after := by
      rw [split,grants_append]
      rfl
    have valid := inv.valid
    rw [split'] at valid descends
    obtain ⟨nobody,unused⟩ := valid.cleared was descends
    refine ⟨unused,fun now owner order accepts => ?_⟩
    have held := live order accepts
    rw [split',nobody] at held
    cases held

section isolation
variable {now : Time} {s s' : S} {id j : TokenId} {subject other : Subject}

theorem register_isolated (laws : store.Lawful settings.refreshTokenTtlSeconds)
    {n : Time} (order : n ≤ now) (fresh : ¬ laws.mentions s id)
    (done : store.register id subject settings.refreshTokenTtlSeconds n s = some s')
    (different : other ≠ subject) :
    laws.live now s j = some other ↔ laws.live now s' j = some other := by
  rcases eq_or_ne j id with rfl | elsewhere
  · constructor
    · exact fun live => absurd (laws.mentioned live) fresh
    · exact fun live => absurd (laws.register_own order done live) different
  · rw [laws.register_others order done elsewhere]

theorem revoke_isolated (laws : store.Lawful settings.refreshTokenTtlSeconds)
    {n : Time} (order : n ≤ now) (done : store.revoke id subject n s = some s')
    (different : other ≠ subject) :
    laws.live now s j = some other ↔ laws.live now s' j = some other := by
  rw [laws.revoke_live j order done]
  split
  next same =>
    subst same
    have accepted := (laws.revoke_answer j subject).mp (by rw [done]; rfl)
    constructor
    · intro live
      have before := laws.fades order live
      rw [accepted] at before
      exact absurd (Option.some.inj before).symm different
    · exact fun live => by cases live
  next => rfl

end isolation

/-- A call changes for nobody but its subject whether a token is accepted. -/
theorem AuthChange.isolated {r : AuthRequest T} {t : Nat} {w : AuthWorld S} {db : Accounts S}
    {events : List AuthEvent} {now : Time} {id : TokenId} {subject other : Subject}
    (change : AuthChange jwt settings store r t w db events) (inv : AuthInv laws w)
    (about : r.subject? jwt = some subject) (different : other ≠ subject)
    (order : db.storeClock ≤ now) :
    laws.live now w.db.tokens id = some other ↔ laws.live now db.tokens id = some other := by
  cases change with
  | minted => rfl
  | granted asked drawn unspent moment done =>
    have same := asked subject about
    subst same
    exact register_isolated laws order (inv.unmentioned drawn unspent) done different
  | @exchanged old new _ _ n _ asked drawn unspent moment done =>
    have same := asked subject about
    subst same
    have kept := laws.later moment inv.kept
    have accepted : laws.live n w.db.tokens old = some subject := by
      by_contra refused
      rw [laws.rotate_refused new refused] at done
      cases done
    obtain ⟨between,after,revoked,registered,same⟩ := laws.rotate_accepted new kept accepted
    cases Option.some.inj (same.symm.trans done)
    have unmentioned : ¬ laws.mentions between new := fun mention =>
      inv.unmentioned drawn unspent (laws.revoke_mentions revoked mention)
    exact (revoke_isolated laws order revoked different).trans
      (register_isolated laws order unmentioned registered different)
  | spent asked moment done =>
    have same := asked subject about
    subst same
    exact revoke_isolated laws order done different
  | cleared asked moment =>
    have same := asked subject about
    subst same
    rw [laws.revokeAll_live _ id order (laws.later moment inv.kept),Option.filter_eq_some_iff]
    simp [different]
  | user => rfl

theorem refreshTokenSafety_of_lawful (settings : AuthSettings) (jwt : Jwt T)
    (laws : store.Lawful settings.refreshTokenTtlSeconds) (clock : Time) :
    RefreshTokenSafety settings jwt store clock := by
  refine ⟨fun s reachable => reachable.usedOnce laws,?_⟩
  intro s u t i session subject other id now reachable input taken present about different order
  obtain ⟨H,good⟩ := reachable.good laws
  rw [accepts_iff_live laws,accepts_iff_live laws]
  rcases good.change taken ⟨input,.inr trivial⟩ with same | ⟨v,j,acting,same,acts,step⟩
  · have unchanged : u.db = s.db := congrArg World.db same
    rw [unchanged]
  · cases same
    cases Option.some.inj (acts.symm.trans present)
    obtain ⟨db,events,change,same⟩ := step
    have after : u.db = db := congrArg World.db same
    rw [after] at order ⊢
    exact change.isolated good.inv about different order

/-- Over either store, whatever calls run together: a refresh token is accepted at most
once, of the tokens one login led to at most one is live, a call leaves the tokens of other
subjects alone, and a revocation of all is final. -/
theorem refreshTokenSafety (settings : AuthSettings) (jwt : Jwt T) (clock : Time) :
    RefreshTokenSafety settings jwt inMemoryRefreshTokenStore clock ∧
      RefreshTokenSafety settings jwt redisRefreshTokenStore clock :=
  ⟨refreshTokenSafety_of_lawful settings jwt (InMemoryRefreshTokenStore.lawful _) clock,
    refreshTokenSafety_of_lawful settings jwt (RedisRefreshTokenStore.lawful _) clock⟩

end safety

namespace Sample

def authSettings : AuthSettings := ⟨1800,2592000⟩

/-- Tokens that are their payloads. -/
def jwt : Jwt Payload := ⟨id,some,fun _ => rfl⟩

abbrev AuthActions := List (Action AuthInput Exc (AuthRequest Payload))

/-- Statement `n` of a run, with identifiers of its own. -/
def authInput (now : Time) (n : Nat) : AuthInput :=
  ⟨now,now,1,Fin.ofNat _ (2 * n),Fin.ofNat _ (2 * n + 1)⟩

/-- The statements of session `t` from number `first` on. -/
def statements (t : Nat) (now : Time) (first count : Nat) : AuthActions :=
  (List.range count).map fun n => .exec t (authInput now (first + n))

def tokenOf (type : String) (ttl : Int) (now : Time) (id : UUID) : Payload :=
  TokenService.payloadOf (UUID.str 1) type ttl (UUID.str id) now

def start : AuthSystem Payload Redis := opening redisRefreshTokenStore 0

/-- Where a run leads whose every step passes a check. -/
def authAfter (check : AuthSystem Payload Redis → Action AuthInput Exc (AuthRequest Payload) →
    AuthSystem Payload Redis → Bool) (actions : AuthActions) (s : AuthSystem Payload Redis) :
    Option (AuthSystem Payload Redis) :=
  s.runWhile (authProgram authSettings jwt redisRefreshTokenStore) check actions

def drawsFresh (s : AuthSystem Payload Redis) : Action AuthInput Exc (AuthRequest Payload) → Bool
  | .exec _ i => i.accessId.str ≠ i.refreshId.str ∧ i.accessId.str ∉ minted s.world.log ∧
      i.refreshId.str ∉ minted s.world.log
  | _ => true

theorem admits_of_drawsFresh {s u : AuthSystem Payload Redis}
    {action : Action AuthInput Exc (AuthRequest Payload)} (passes : drawsFresh s action = true) :
    (drawing Redis).admits s u action := by
  cases action with
  | start => trivial
  | exec t i =>
    have fresh : Unminted i.accessId.str i.refreshId.str s.world.log := by
      simpa [drawsFresh,Unminted] using passes
    exact ⟨fresh,.inr trivial⟩
  | die => trivial

def returned (s : AuthSystem Payload Redis) (t : Nat) (asks : AuthRequest Payload → Bool) : Bool :=
  (s.session t).any fun session => asks session.request && match session.state with
    | .inr (.ok _) => true
    | _ => false

theorem of_returned {s : AuthSystem Payload Redis} {t : Nat} {asks : AuthRequest Payload → Bool}
    (passes : returned s t asks = true) : ∃ request response, asks request = true ∧
      s.session t = some ⟨request,.inr (.ok response)⟩ := by
  obtain ⟨⟨request,state⟩,present,passes⟩ := (Option.any_eq_true _ _).mp passes
  obtain ⟨asks,ended⟩ := Bool.and_eq_true_iff.mp passes
  cases state with
  | inl remaining => cases ended
  | inr result =>
    cases result with
    | error error => cases ended
    | ok response => exact ⟨request,response,asks,present⟩

def presents (token : Payload) : AuthRequest Payload → Bool
  | .refresh presented => presented = token
  | _ => false

theorem acceptedBy_of_returned {s : AuthSystem Payload Redis} {t : Nat} {token : Payload}
    (passes : returned s t (presents token) = true) : AcceptedBy s t token := by
  obtain ⟨request,response,asks,present⟩ := of_returned passes
  cases request with
  | refresh presented => exact ⟨_,response,present,.inr (.inl (of_decide_eq_true asks ▸ rfl))⟩
  | _ => cases asks

/-- What a login at 0 issues, and what the first refresh does. -/
def firstRefresh : Payload := tokenOf "refresh" 2592000 0 207

def secondRefresh : Payload := tokenOf "refresh" 2592000 (seconds 1) 403

/-- A login, a refresh with each of the two tokens, and another with the first. -/
def replayed : AuthActions :=
  .start 1 (.loginWithKakao "1") :: statements 1 0 100 8 ++
    .start 2 (.refresh firstRefresh) :: statements 2 (seconds 1) 200 6 ++
    .start 3 (.refresh secondRefresh) :: statements 3 (seconds 2) 300 6 ++
    .start 4 (.refresh firstRefresh) :: statements 4 (seconds 3) 400 6

end Sample

/-- Two rotations of the tokens of one login are answered, and no other call that presents them is. -/
theorem refreshTokenSafety_rotated : ∃ s : AuthSystem Payload Redis,
    AcceptedBy s 2 Sample.firstRefresh ∧ AcceptedBy s 3 Sample.secondRefresh ∧ (s.session 4).isSome ∧
      (∀ t, AcceptedBy s t Sample.firstRefresh → t = 2) ∧
      (∀ t, AcceptedBy s t Sample.secondRefresh → t = 3) ∧
        TokensUsedOnce Sample.authSettings Sample.jwt redisRefreshTokenStore s := by
  obtain ⟨s,ran,passes⟩ := (Option.any_eq_true _ _).mp (show (Sample.authAfter (fun s action _ =>
    Sample.drawsFresh s action) Sample.replayed Sample.start).any (fun s =>
      (Sample.returned s 2 (Sample.presents Sample.firstRefresh) &&
        Sample.returned s 3 (Sample.presents Sample.secondRefresh)) && (s.session 4).isSome) = true by
          decide +kernel)
  obtain ⟨answered,replay⟩ := Bool.and_eq_true_iff.mp passes
  obtain ⟨first,second⟩ := Bool.and_eq_true_iff.mp answered
  have one := Sample.acceptedBy_of_returned first
  have two := Sample.acceptedBy_of_returned second
  have reachable : AuthReachable Sample.authSettings Sample.jwt redisRefreshTokenStore 0 s :=
    Reach.of_runs (Reach.runs_of_runWhile (fun _ _ _ _ => Sample.admits_of_drawsFresh) ran) fun _ _ _ => id
  have safe := (refreshTokenSafety Sample.authSettings Sample.jwt 0).2.once s reachable
  refine ⟨s,one,two,replay,?_,?_,safe⟩
  · exact fun t again => safe.accepted t 2 _ _ _ _ again one rfl rfl rfl
  · exact fun t again => safe.accepted t 3 _ _ _ _ again two rfl rfl rfl

end Dalm
