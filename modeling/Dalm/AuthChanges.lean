import Dalm.Auth
import Dalm.TokenLaws
import Dalm.UserRules

/-! The accounts as atomic changes, and what holds of the token store and the history in
every world: whoever the store takes a token from holds it by the history. -/
namespace Dalm
open Relational Held
variable {T S : Type} {jwt : Jwt T} {settings : AuthSettings} {store : RefreshTokenStore S}

def AuthEvent.grant? : AuthEvent → Option (Grants.Event TokenId Subject)
  | .grant event => some event
  | _ => none

def grants (log : List (Nat × AuthEvent)) : List (Grants.Event TokenId Subject) :=
  log.filterMap fun entry => entry.2.grant?

def AuthEvent.minted? : AuthEvent → List TokenId
  | .minted accessId refreshId => [accessId,refreshId]
  | _ => []

def minted (log : List (Nat × AuthEvent)) : List TokenId := log.flatMap fun entry => entry.2.minted?

/-- Identifiers nobody has drawn before. -/
def Unminted (accessId refreshId : TokenId) (log : List (Nat × AuthEvent)) : Prop :=
  accessId ≠ refreshId ∧ accessId ∉ minted log ∧ refreshId ∉ minted log

/-- Whose tokens a request is about, as far as it says. -/
def AuthRequest.subject? (jwt : Jwt T) : AuthRequest T → Option Subject
  | .issuePair subject => some subject
  | .rotate refreshToken => (jwt.payload refreshToken).map Payload.sub
  | .revoke refreshToken _ => (jwt.payload refreshToken).map Payload.sub
  | .revokeAll subject => some subject
  | .refresh refreshToken => (jwt.payload refreshToken).map Payload.sub
  | .logout _ refreshToken => (jwt.payload refreshToken).map Payload.sub
  | .withdrawMyAccount credentials => (credentials.bind jwt.payload).map Payload.sub
  | _ => none

/-- The request says nothing of another subject. -/
def AuthRequest.MayConcern (jwt : Jwt T) (r : AuthRequest T) (subject : Subject) : Prop :=
  ∀ other, r.subject? jwt = some other → other = subject

/-- Session `t` has done nothing to the token store yet. -/
def Unspent (t : Nat) (log : List (Nat × AuthEvent)) : Prop :=
  ∀ entry ∈ log, entry.1 = t → entry.2.grant? = none

inductive AuthChange (jwt : Jwt T) (settings : AuthSettings) (store : RefreshTokenStore S)
    (r : AuthRequest T) (t : Nat) (w : AuthWorld S) : Accounts S → List AuthEvent → Prop where
  | minted {accessId refreshId : TokenId} (fresh : Unminted accessId refreshId w.log) :
    AuthChange jwt settings store r t w w.db [.minted accessId refreshId]
  | granted {id accessId : TokenId} {subject : Subject} {now : Time} {tokens : S}
      (asked : r.MayConcern jwt subject) (drawn : (t,.minted accessId id) ∈ w.log)
      (unspent : Unspent t w.log) (moment : w.db.storeClock ≤ now)
      (done : store.register id subject settings.refreshTokenTtlSeconds now w.db.tokens =
        some tokens) :
    AuthChange jwt settings store r t w {w.db with tokens := tokens,storeClock := now}
      [.grant (.granted id subject)]
  | exchanged {old new accessId : TokenId} {subject : Subject} {now : Time} {tokens : S}
      (asked : r.MayConcern jwt subject) (drawn : (t,.minted accessId new) ∈ w.log)
      (unspent : Unspent t w.log) (moment : w.db.storeClock ≤ now)
      (done : store.rotate old new subject settings.refreshTokenTtlSeconds now w.db.tokens =
        some tokens) :
    AuthChange jwt settings store r t w {w.db with tokens := tokens,storeClock := now}
      [.grant (.exchanged old new subject)]
  | spent {id : TokenId} {subject : Subject} {now : Time} {tokens : S}
      (asked : r.MayConcern jwt subject) (moment : w.db.storeClock ≤ now)
      (done : store.revoke id subject now w.db.tokens = some tokens) :
    AuthChange jwt settings store r t w {w.db with tokens := tokens,storeClock := now}
      [.grant (.spent id subject)]
  | cleared {subject : Subject} {now : Time} (asked : r.MayConcern jwt subject)
      (moment : w.db.storeClock ≤ now) :
    AuthChange jwt settings store r t w
      {w.db with tokens := (store.revokeAll subject now w.db.tokens).1,storeClock := now}
      [.grant (.cleared subject)]
  | user {registry : Registry} {events : List UserEvent}
      (written : UserRepository.Writes w.db.registry registry events) :
    AuthChange jwt settings store r t w {w.db with registry := registry} (events.map .user)

@[simp] theorem grants_append (log more : List (Nat × AuthEvent)) :
    grants (log ++ more) = grants log ++ grants more := List.filterMap_append

@[simp] theorem grants_users (t : Nat) (events : List UserEvent) :
    grants ((events.map AuthEvent.user).map fun event => (t,event)) = [] := by
  simp [grants,AuthEvent.grant?]

theorem mem_grants {log : List (Nat × AuthEvent)} {event : Grants.Event TokenId Subject} :
    event ∈ grants log ↔ ∃ t, (t,.grant event) ∈ log := by
  unfold grants
  rw [List.mem_filterMap]
  constructor
  · rintro ⟨⟨t,told⟩,member,same⟩
    cases told with
    | grant other =>
      cases same
      exact ⟨t,member⟩
    | _ => cases same
  · exact fun ⟨t,member⟩ => ⟨_,member,rfl⟩

theorem mem_minted {log : List (Nat × AuthEvent)} {id : TokenId} : id ∈ minted log ↔
    ∃ t a b, (t,.minted a b) ∈ log ∧ (id = a ∨ id = b) := by
  unfold minted
  rw [List.mem_flatMap]
  constructor
  · rintro ⟨⟨t,told⟩,member,inside⟩
    cases told with
    | minted a b => exact ⟨t,a,b,member,by simpa [AuthEvent.minted?] using inside⟩
    | _ => simp [AuthEvent.minted?] at inside
  · exact fun ⟨t,a,b,member,same⟩ => ⟨_,member,by simpa [AuthEvent.minted?] using same⟩

structure AuthInv (laws : store.Lawful settings.refreshTokenTtlSeconds) (w : AuthWorld S) :
    Prop where
  kept : laws.inv w.db.storeClock w.db.tokens
  mentioned : ∀ id, laws.mentions w.db.tokens id →
    id ∈ (Grants.added (grants w.log)).map Prod.fst
  valid : Grants.Valid (grants w.log)
  held : ∀ id subject, laws.live w.db.storeClock w.db.tokens id = some subject →
    Grants.holder (grants w.log) id = some subject
  drawn : ∀ t event pair, (t,.grant event) ∈ w.log → event.added? = some pair →
    ∃ a, (t,.minted a pair.1) ∈ w.log
  once : ∀ t u a b id, (t,.minted a id) ∈ w.log → (u,.minted b id) ∈ w.log → t = u

theorem AuthInv.new {laws : store.Lawful settings.refreshTokenTtlSeconds} {w : AuthWorld S}
    (inv : AuthInv laws w) {t : Nat} {a id : TokenId} (drawn : (t,.minted a id) ∈ w.log)
    (unspent : Unspent t w.log) : id ∉ (Grants.added (grants w.log)).map Prod.fst := by
  intro member
  obtain ⟨pair,added,rfl⟩ := List.mem_map.mp member
  obtain ⟨event,granted,adds⟩ := List.mem_filterMap.mp added
  obtain ⟨u,entry⟩ := mem_grants.mp granted
  obtain ⟨b,theirs⟩ := inv.drawn u event pair entry adds
  have same := inv.once t u a b pair.1 drawn theirs
  have none_ := unspent _ entry same.symm
  cases none_

section keeping
variable {laws : store.Lawful settings.refreshTokenTtlSeconds} {w : AuthWorld S} {t : Nat}

/-- An operation of the store that the history explains keeps the invariant. -/
theorem AuthInv.operation (inv : AuthInv laws w) {event : Grants.Event TokenId Subject} {now : Time}
    {tokens : S} (kept : laws.inv now tokens)
    (mentioned : ∀ id, laws.mentions tokens id → laws.mentions w.db.tokens id ∨
      ∃ subject, event.added? = some (id,subject))
    (fits : Grants.Fits (grants w.log) event)
    (held : ∀ id subject, laws.live now tokens id = some subject →
      Grants.hand (Grants.holder (grants w.log)) event id = some subject)
    (drawn : ∀ pair, event.added? = some pair → ∃ a, (t,.minted a pair.1) ∈ w.log) :
    AuthInv laws ((World.mk {w.db with tokens := tokens,storeClock := now} w.log).record t
      [.grant event]) := by
  have one : grants ((World.mk {w.db with tokens := tokens,storeClock := now} w.log).record t
      [.grant event]).log = grants w.log ++ [event] := by
    simp [grants,AuthEvent.grant?]
  refine ⟨kept,?_,?_,?_,?_,?_⟩
  · intro id mention
    rw [one,Grants.added_append,List.map_append,List.mem_append]
    rcases mentioned id mention with before | ⟨subject,adds⟩
    · exact .inl (inv.mentioned id before)
    · exact .inr (Grants.fst_mem_added (Grants.mem_added List.mem_cons_self adds))
  · rw [one]
    exact inv.valid.snoc fits
  · intro id subject live
    rw [one,Grants.holder_snoc]
    exact held id subject live
  · intro u told pair member adds
    rw [World.log_record,List.mem_append] at member
    rcases member with member | member
    · obtain ⟨a,before⟩ := inv.drawn u told pair member adds
      exact ⟨a,List.mem_append_left _ before⟩
    · simp only [List.map_cons,List.map_nil,List.mem_singleton] at member
      cases member
      obtain ⟨a,before⟩ := drawn pair adds
      exact ⟨a,List.mem_append_left _ before⟩
  · intro u v a b id first second
    simp only [World.log_record,List.map_cons,List.map_nil,List.mem_append,List.mem_singleton,
      Prod.mk.injEq,reduceCtorEq,and_false,or_false] at first second
    exact inv.once u v a b id first second

/-- What a store held for a time it holds by the history, until it is handed on. -/
theorem AuthInv.still (inv : AuthInv laws w) {now : Time} (moment : w.db.storeClock ≤ now)
    {id : TokenId} {subject : Subject} (live : laws.live now w.db.tokens id = some subject) :
    Grants.holder (grants w.log) id = some subject := inv.held id subject (laws.fades moment live)

theorem AuthInv.unmentioned (inv : AuthInv laws w) {a id : TokenId}
    (drawn : (t,.minted a id) ∈ w.log) (unspent : Unspent t w.log) :
    ¬ laws.mentions w.db.tokens id := fun mention => inv.new drawn unspent (inv.mentioned id mention)

/-- A registration after what has been made of the store by the time. -/
theorem AuthInv.registered (inv : AuthInv laws w) {now : Time} (moment : w.db.storeClock ≤ now)
    {a id : TokenId} (drawn : (t,.minted a id) ∈ w.log) (unspent : Unspent t w.log)
    {subject : Subject} {tokens : S}
    (done : store.register id subject settings.refreshTokenTtlSeconds now w.db.tokens = some tokens) :
    AuthInv laws ((World.mk {w.db with tokens := tokens,storeClock := now} w.log).record t
      [.grant (.granted id subject)]) := by
  have kept := laws.later moment inv.kept
  apply inv.operation
  · exact laws.register_inv kept (inv.unmentioned drawn unspent) done
  · intro j mention
    rcases laws.register_mentions done mention with before | rfl
    · exact .inl before
    · exact .inr ⟨subject,rfl⟩
  · exact inv.new drawn unspent
  · intro j owner live
    rcases eq_or_ne j id with rfl | different
    · have own := laws.register_own (le_refl now) done live
      simp [Grants.hand,own]
    · rw [laws.register_others (le_refl now) done different] at live
      simpa [Grants.hand,different] using inv.still moment live
  · intro pair adds
    cases adds
    exact ⟨a,drawn⟩

theorem AuthInv.rotated (inv : AuthInv laws w) {now : Time} (moment : w.db.storeClock ≤ now)
    {a old new : TokenId} (drawn : (t,.minted a new) ∈ w.log) (unspent : Unspent t w.log)
    {subject : Subject} {tokens : S}
    (done : store.rotate old new subject settings.refreshTokenTtlSeconds now w.db.tokens =
      some tokens) :
    AuthInv laws ((World.mk {w.db with tokens := tokens,storeClock := now} w.log).record t
      [.grant (.exchanged old new subject)]) := by
  have kept := laws.later moment inv.kept
  have accepted : laws.live now w.db.tokens old = some subject := by
    by_contra refused
    rw [laws.rotate_refused new refused] at done
    cases done
  obtain ⟨between,after,revoked,registered,same⟩ := laws.rotate_accepted new kept accepted
  cases Option.some.inj (same.symm.trans done)
  have unmentioned : ¬ laws.mentions between new := fun mention =>
    inv.unmentioned drawn unspent (laws.revoke_mentions revoked mention)
  apply inv.operation
  · exact laws.register_inv (laws.revoke_inv kept revoked) unmentioned registered
  · intro j mention
    rcases laws.register_mentions registered mention with before | rfl
    · exact .inl (laws.revoke_mentions revoked before)
    · exact .inr ⟨subject,rfl⟩
  · exact ⟨inv.still moment accepted,inv.new drawn unspent⟩
  · intro j owner live
    rcases eq_or_ne j new with rfl | different
    · have own := laws.register_own (le_refl now) registered live
      simp [Grants.hand,own]
    · rw [laws.register_others (le_refl now) registered different,
        laws.revoke_live j (le_refl now) revoked] at live
      split at live
      next => cases live
      next elsewhere => simpa [Grants.hand,different,elsewhere] using inv.still moment live
  · intro pair adds
    cases adds
    exact ⟨a,drawn⟩

theorem AuthInv.revoked (inv : AuthInv laws w) {now : Time} (moment : w.db.storeClock ≤ now)
    {id : TokenId} {subject : Subject} {tokens : S}
    (done : store.revoke id subject now w.db.tokens = some tokens) :
    AuthInv laws ((World.mk {w.db with tokens := tokens,storeClock := now} w.log).record t
      [.grant (.spent id subject)]) := by
  have accepted := (laws.revoke_answer id subject).mp (by rw [done]; rfl)
  apply inv.operation
  · exact laws.revoke_inv (laws.later moment inv.kept) done
  · exact fun j mention => .inl (laws.revoke_mentions done mention)
  · exact inv.still moment accepted
  · intro j owner live
    rw [laws.revoke_live j (le_refl now) done] at live
    split at live
    next => cases live
    next elsewhere => simpa [Grants.hand,elsewhere] using inv.still moment live
  · intro pair adds
    cases adds

theorem AuthInv.cleared (inv : AuthInv laws w) {now : Time} (moment : w.db.storeClock ≤ now)
    (subject : Subject) :
    AuthInv laws ((World.mk {w.db with
      tokens := (store.revokeAll subject now w.db.tokens).1,storeClock := now} w.log).record t
        [.grant (.cleared subject)]) := by
  have kept := laws.later moment inv.kept
  apply inv.operation
  · exact laws.revokeAll_inv subject kept
  · exact fun j mention => .inl (laws.revokeAll_mentions mention)
  · trivial
  · intro j owner live
    rw [laws.revokeAll_live subject j (le_refl now) kept] at live
    obtain ⟨live,other⟩ := Option.filter_eq_some_iff.mp live
    exact Option.filter_eq_some_iff.mpr ⟨inv.still moment live,other⟩
  · intro pair adds
    cases adds

theorem AuthInv.minted (inv : AuthInv laws w) {accessId refreshId : TokenId}
    (fresh : Unminted accessId refreshId w.log) :
    AuthInv laws (w.record t [.minted accessId refreshId]) := by
  have same : grants (w.record t [.minted accessId refreshId]).log = grants w.log := by
    simp [grants,AuthEvent.grant?]
  refine ⟨inv.kept,by rw [same]; exact inv.mentioned,by rw [same]; exact inv.valid,
    by rw [same]; exact inv.held,?_,?_⟩
  · intro u event pair member adds
    simp only [World.log_record,List.map_cons,List.map_nil,List.mem_append,List.mem_singleton,
      Prod.mk.injEq,reduceCtorEq,and_false,or_false] at member
    obtain ⟨a,before⟩ := inv.drawn u event pair member adds
    exact ⟨a,List.mem_append_left _ before⟩
  · intro u v a b id first second
    have old : ∀ {u a}, (u,.minted a id) ∈ w.log → id ∈ Dalm.minted w.log :=
      fun member => mem_minted.mpr ⟨_,_,_,member,.inr rfl⟩
    simp only [World.log_record,List.map_cons,List.map_nil,List.mem_append,List.mem_singleton,
      Prod.mk.injEq,AuthEvent.minted.injEq] at first second
    rcases first with first | ⟨rfl,_,rfl⟩ <;> rcases second with second | ⟨rfl,_,same⟩
    · exact inv.once u v a b id first second
    · exact absurd (same ▸ old first) fresh.2.2
    · exact absurd (old second) fresh.2.2
    · rfl

theorem AuthInv.users (inv : AuthInv laws w) {registry : Registry} {events : List UserEvent} :
    AuthInv laws ((World.mk {w.db with registry := registry} w.log).record t
      (events.map .user)) := by
  have same : grants ((World.mk {w.db with registry := registry} w.log).record t
      (events.map .user)).log = grants w.log := by
    rw [World.log_record,grants_append,grants_users,List.append_nil]
  have old : ∀ {u told}, (∀ e, told ≠ .user e) → (u,told) ∈ ((World.mk {w.db with
      registry := registry} w.log).record t (events.map .user)).log → (u,told) ∈ w.log := by
    intro u told other member
    rw [World.log_record,List.mem_append] at member
    rcases member with member | member
    · exact member
    · simp only [List.map_map,List.mem_map,Function.comp_apply,Prod.mk.injEq] at member
      obtain ⟨e,_,_,rfl⟩ := member
      exact absurd rfl (other e)
  refine ⟨inv.kept,by rw [same]; exact inv.mentioned,by rw [same]; exact inv.valid,
    by rw [same]; exact inv.held,?_,?_⟩
  · intro u event pair member adds
    obtain ⟨a,before⟩ := inv.drawn u event pair (old (by simp) member) adds
    exact ⟨a,List.mem_append_left _ before⟩
  · intro u v a b id first second
    exact inv.once u v a b id (old (by simp) first) (old (by simp) second)

theorem AuthChange.keep {r : AuthRequest T} {db : Accounts S} {events : List AuthEvent}
    (change : AuthChange jwt settings store r t w db events) (inv : AuthInv laws w) :
    AuthInv laws ((World.mk db w.log).record t events) := by
  cases change with
  | minted fresh => exact inv.minted fresh
  | granted _ drawn unspent moment done => exact inv.registered moment drawn unspent done
  | exchanged _ drawn unspent moment done => exact inv.rotated moment drawn unspent done
  | spent _ moment done => exact inv.revoked moment done
  | cleared _ moment => exact inv.cleared moment _
  | user written => exact inv.users

end keeping

def authProtocol (jwt : Jwt T) (settings : AuthSettings) (store : RefreshTokenStore S)
    (laws : store.Lawful settings.refreshTokenTtlSeconds) :
    Protocol (Accounts S) Empty AuthEvent (AuthRequest T) where
  step r t _ w w' := ∃ db events, AuthChange jwt settings store r t w db events ∧
    w' = (World.mk db w.log).record t events
  inv := AuthInv laws
  records := by
    rintro r t held w w' ⟨db,events,_,rfl⟩
    exact ⟨db,events,rfl⟩
  keep := by
    rintro r t held w w' ⟨db,events,change,rfl⟩ inv
    exact change.keep inv
  frame := by
    intro r t held w w' _ _ key
    exact key.elim

end Dalm
