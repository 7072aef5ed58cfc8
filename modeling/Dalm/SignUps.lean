import Dalm.UniqueUsers
import Dalm.WithdrawnSessions

/-! Sign-ups. A login looks its identity up, inserts a user where there is none, and takes the user of the
login that was faster where the INSERT is refused; it reports a new user for what the lookup said. -/
namespace Dalm
open Relational Txn
variable {T S : Type}

/-- The COMMIT of session `t` that inserted the user. -/
def RegisteredBy (log : List (Nat × AuthEvent)) (t : Nat) (id : UUID) : Prop := (t,.user (.registered id)) ∈ log

/-- A login for the identity is at its INSERT, nothing of it being in the history, and it is refused. -/
def InsertRefused (identity : Identity) (s : AuthSystem T S) (action : Action AuthInput Exc (AuthRequest T)) : Prop :=
  ∃ t i r writes next, action = .exec t i ∧ s.session t = some ⟨r,.inl (.commit writes next)⟩ ∧
    r.identity? = some identity ∧ writes i s.db = none ∧ ∀ event, (t,event) ∉ s.world.log

/-- The login that inserted the user dies. -/
def SignUpDies (identity : Identity) (s : AuthSystem T S) (action : Action AuthInput Exc (AuthRequest T)) : Prop :=
  ∃ t error r state id, action = .die t error ∧ s.session t = some ⟨r,state⟩ ∧ r.identity? = some identity ∧
    RegisteredBy s.world.log t id

/-- The runs in which a login for the identity that finds no user inserts him and goes on; nobody withdraws. -/
structure SignsUpOnce (identity : Identity) (s : AuthSystem T S) (action : Action AuthInput Exc (AuthRequest T))
    (_ : AuthSystem T S) : Prop where
  inserts : ¬ InsertRefused identity s action
  lives : ¬ SignUpDies identity s action
  stays : ∀ t credentials, action ≠ .start t (.withdrawMyAccount credentials)

/-- A login for the identity was answered. -/
def LoggedIn (s : AuthSystem T S) (identity : Identity) (t : Nat) (data : AuthData T) : Prop :=
  ∃ r, r.identity? = some identity ∧ s.session t = some ⟨r,.inr (.ok (.data data))⟩

section claims
variable (settings : AuthSettings) (jwt : Jwt T) (store : RefreshTokenStore S) (clock : Time)

structure SignUps : Prop where
  unique : ∀ s (identity : Identity), Reach (authProgram settings jwt store) Discipline.none (opening store clock) s →
    (s.db.registry.users.rows.filter identity.isOf).length ≤ 1
  returned : ∀ s identity t data,
    Reach (authProgram settings jwt store) Discipline.none (opening store clock) s →
      LoggedIn s identity t data → ∃ row, s.db.registry.users.rows.filter identity.isOf = [row] ∧
        data.user.id = row.id
  once : ∀ s identity t u first second,
    Runs (authProgram settings jwt store) (SignsUpOnce identity) (opening store clock) s →
      LoggedIn s identity t first → LoggedIn s identity u second → first.isNewUser → second.isNewUser → t = u
  reported : ∀ s identity t data,
    Runs (authProgram settings jwt store) (SignsUpOnce identity) (opening store clock) s →
      LoggedIn s identity t data →
        (∀ u r p, s.session u = some ⟨r,.inl p⟩ → r.identity? ≠ some identity) →
          ∃ u first, LoggedIn s identity u first ∧ first.isNewUser

end claims

section identities
variable {identity other : Identity} {row row' : User}

/-- The columns of users that identities are in. -/
def SameIdentity (row row' : User) : Prop := row'.kakaoId = row.kakaoId ∧ row'.appleId = row.appleId

theorem isOf_newUser (id : UUID) : identity.isOf (UserRepository.newUser id identity) := by
  cases identity <;> simp [Identity.isOf,UserRepository.newUser]

theorem isOf_sameIdentity (same : SameIdentity row row') : identity.isOf row' = identity.isOf row := by
  cases identity with
  | kakao id => simp [Identity.isOf,same.1]
  | apple id => simp [Identity.isOf,same.2]

theorem identity_unique {id : UUID} (new : SameIdentity (UserRepository.newUser id other) row)
    (own : identity.isOf row) : identity = other := by
  rw [isOf_sameIdentity new] at own
  cases identity <;> cases other <;> simp_all [Identity.isOf,UserRepository.newUser]

theorem Registry.Apart.same {registry : Registry} (apart : registry.Apart) (first : row ∈ registry.users.rows)
    (second : row' ∈ registry.users.rows) (one : identity.isOf row) (two : identity.isOf row') : row = row' := by
  have key : row.id = row'.id := by
    refine (apart row first row' second).resolve_right fun fits => ?_
    simp only [Registry.compatible,Bool.decide_and,Bool.and_eq_true,decide_eq_true_eq] at fits
    cases identity <;> simp_all [Identity.isOf]
  have found := Table.get?_of_mem second
  rw [← key,Table.get?_of_mem first] at found
  exact Option.some.inj found

theorem Registry.Apart.filter_isOf {registry : Registry} (apart : registry.Apart) (identity : Identity) :
    (registry.users.rows.filter identity.isOf).length ≤ 1 := by
  have distinct : (registry.users.rows.filter identity.isOf).Nodup :=
    (List.Nodup.of_map _ registry.users.distinct).filter _
  cases rows : registry.users.rows.filter identity.isOf with
  | nil => exact Nat.zero_le _
  | cons row rest =>
    cases rest with
    | nil => exact le_refl _
    | cons row' rest =>
      have inside : ∀ {x}, x ∈ row :: row' :: rest → x ∈ registry.users.rows ∧ identity.isOf x :=
        fun member => List.mem_filter.mp (rows ▸ member)
      obtain ⟨first,one⟩ := inside List.mem_cons_self
      obtain ⟨second,two⟩ := inside (List.mem_cons_of_mem _ List.mem_cons_self)
      rw [rows] at distinct
      exact absurd (apart.same first second one two ▸ List.mem_cons_self) (List.nodup_cons.mp distinct).1

end identities

namespace UserRepository
variable {registry after : Registry} {events : List UserEvent} {row row' : User} {event : UserEvent}

/-- An UPDATE of a user keeps his identity, and his status where he does not withdraw. -/
theorem Rewrites.identity (rewrites : Rewrites row event row') : SameIdentity row row' := by
  cases rewrites <;> exact ⟨rfl,rfl⟩

theorem Rewrites.status (rewrites : Rewrites row event row') (stays : ∀ loaded, event ≠ .withdrawn loaded) :
    row'.status = row.status := by
  cases rewrites with
  | onboarded | profileUpdated => rfl
  | withdrawn => exact absurd rfl (stays _)

theorem newUser_id (id : UUID) (identity : Identity) : (newUser id identity).id = id := by
  cases identity <;> rfl

theorem modify_identity {id : UUID} {assign : User → User} {keeps : ∀ row, (assign row).id = row.id}
    {users : Table User.id} (same : users = registry.users.modify (fun other => other = id) assign keeps)
    (own : ∀ row, SameIdentity row (assign row)) :
    ∀ row' ∈ users.rows, ∃ row ∈ registry.users.rows, row.id = row'.id ∧ SameIdentity row row' := by
  intro row' member
  rw [same,Table.rows_modify,List.mem_map] at member
  obtain ⟨row,there,rfl⟩ := member
  refine ⟨row,there,?_⟩
  split
  · exact ⟨(keeps row).symm,own row⟩
  · exact ⟨rfl,rfl,rfl⟩

/-- A COMMIT inserts a user and tells of him, or keeps the identities of all. -/
theorem Writes.registered_cases (made : Writes registry after events) :
    (∃ id, events = [.registered id]) ∨ (∀ id, .registered id ∉ events) ∧ ∀ row' ∈ after.users.rows,
      ∃ row ∈ registry.users.rows, row.id = row'.id ∧ SameIdentity row row' := by
  cases made with
  | registered made =>
    obtain ⟨_,rfl⟩ := UserRepository.createWrites_eq_some.mp made
    exact .inl ⟨_,rfl⟩
  | onboarded _ made =>
    obtain ⟨_,updated,termed,rfl⟩ := UserRepository.onboardingWrites_eq_some.mp made
    exact .inr ⟨by simp,modify_identity
      ((Registry.insertTerms_users termed).trans (Registry.updateUser_users updated)) fun _ => ⟨rfl,rfl⟩⟩
  | profileUpdated _ made =>
    obtain ⟨updated,rfl⟩ := UserRepository.profileWrites_eq_some.mp made
    exact .inr ⟨by simp,modify_identity (Registry.updateUser_users updated) fun _ => ⟨rfl,rfl⟩⟩
  | withdrawn _ made =>
    obtain ⟨updated,rfl⟩ := UserRepository.withdrawWrites_eq_some.mp made
    exact .inr ⟨by simp,modify_identity (Registry.updateUser_users updated) fun _ => ⟨rfl,rfl⟩⟩

end UserRepository

section history
variable {settings : AuthSettings} {jwt : Jwt T} {store : RefreshTokenStore S} {clock : Time}
  {R : AuthSystem T S → Action AuthInput Exc (AuthRequest T) → AuthSystem T S → Prop} {s u : AuthSystem T S}

/-- A COMMIT that tells of a new user is the INSERT of a login. -/
theorem AuthCommit.signsUp {r : AuthRequest T} {writes : AuthInput → Accounts S → Option (Accounts S × List AuthEvent)}
    (commit : AuthCommit jwt r writes) {i : AuthInput} {db db' : Accounts S} {events : List AuthEvent}
    (made : writes i db = some (db',events)) {id : UUID} (told : .user (.registered id) ∈ events) :
    ∃ identity fresh, r.identity? = some identity ∧
      db'.registry.users = db.registry.users.insert (UserRepository.newUser id identity) fresh := by
  cases commit with
  | apart _ users => exact absurd told ((users i db db' events made).2 _)
  | @created _ identity asks =>
    obtain ⟨told',outcome,rfl⟩ := UserRepository.written_eq_some made
    obtain ⟨inserted,rfl⟩ := UserRepository.createWrites_eq_some.mp outcome
    cases List.mem_singleton.mp told
    obtain ⟨fresh,users⟩ := Registry.insertUser_users inserted
    exact ⟨identity,fresh,asks,users⟩
  | onboarded =>
    obtain ⟨told',outcome,rfl⟩ := UserRepository.written_eq_some made
    obtain ⟨_,_,_,rfl⟩ := UserRepository.onboardingWrites_eq_some.mp outcome
    simp at told
  | profileUpdated =>
    obtain ⟨told',outcome,rfl⟩ := UserRepository.written_eq_some made
    obtain ⟨_,rfl⟩ := UserRepository.profileWrites_eq_some.mp outcome
    simp at told
  | withdrawn =>
    obtain ⟨told',outcome,rfl⟩ := UserRepository.written_eq_some made
    obtain ⟨_,rfl⟩ := UserRepository.withdrawWrites_eq_some.mp outcome
    simp at told

/-- Every user was inserted by one login, which was for his identity. -/
structure Registrations (s : AuthSystem T S) : Prop where
  known : ∀ t id, RegisteredBy s.world.log t id → (s.db.registry.users.get? id).isSome
  once : ∀ t u id, RegisteredBy s.world.log t id → RegisteredBy s.world.log u id → t = u
  source : ∀ row ∈ s.db.registry.users.rows, ∃ t r state identity, RegisteredBy s.world.log t row.id ∧
    s.session t = some ⟨r,state⟩ ∧ r.identity? = some identity ∧
      SameIdentity (UserRepository.newUser row.id identity) row

/-- What a step that inserts nobody keeps. -/
theorem Registrations.apart (before : Registrations s)
    {action : Action AuthInput Exc (AuthRequest T)} (taken : s.step (authProgram settings jwt store) action = some u)
    (known : ∀ id, (s.db.registry.users.get? id).isSome → (u.db.registry.users.get? id).isSome)
    (told : ∀ t id, RegisteredBy u.world.log t id ↔ RegisteredBy s.world.log t id)
    (rows : ∀ row' ∈ u.db.registry.users.rows, ∃ row ∈ s.db.registry.users.rows,
      row.id = row'.id ∧ SameIdentity row row') : Registrations u := by
  refine ⟨fun t id own => known id (before.known t id ((told t id).mp own)),
    fun t v id one two => before.once t v id ((told t id).mp one) ((told v id).mp two),fun row' member => ?_⟩
  obtain ⟨row,there,key,same⟩ := rows row' member
  obtain ⟨t,r,state,identity,own,present,asks,new⟩ := before.source row there
  obtain ⟨state',present'⟩ := Reach.request_stays present taken
  rw [key] at own new
  exact ⟨t,r,state',identity,(told t row'.id).mpr own,present',asks,same.1.trans new.1,same.2.trans new.2⟩

theorem registeredBy_append {log more : List (Nat × AuthEvent)} {t : Nat} {id : UUID} :
    RegisteredBy (log ++ more) t id ↔ RegisteredBy log t id ∨ RegisteredBy more t id := List.mem_append

theorem registeredBy_own {t v : Nat} {id : UUID} {events : List AuthEvent} :
    RegisteredBy (events.map fun event => (v,event)) t id ↔ v = t ∧ .user (.registered id) ∈ events := by
  simp [RegisteredBy,and_comm]

theorem registrations_runs (runs : Runs (authProgram settings jwt store) R (opening store clock) s) :
    Registrations s := by
  induction runs with
  | refl => exact ⟨fun _ _ own => (nomatch own),fun _ _ _ own => (nomatch own),fun _ member => (nomatch member)⟩
  | @tail a b before link ih =>
    obtain ⟨action,taken,_⟩ := link
    rcases Reach.committed before (fun _ => rfl) authProgram_commits taken with
      same | ⟨t,i,r,writes,next,db,events,rfl,running,commit,made,same⟩
    · have registry : b.db.registry = a.db.registry := congrArg (fun w => w.db.registry) same
      exact ih.apart taken (by simp [registry]) (by simp [same])
        (fun row member => ⟨row,registry ▸ member,rfl,rfl,rfl⟩)
    have registry : b.db.registry = db.registry := congrArg (fun w => w.db.registry) same
    have told : ∀ v id, RegisteredBy b.world.log v id ↔
        RegisteredBy a.world.log v id ∨ t = v ∧ .user (.registered id) ∈ events := by
      intro v id
      rw [same,World.log_record,registeredBy_append,registeredBy_own]
    rcases commit.change made with ⟨unchanged,apart⟩ | ⟨new,rfl,written⟩
    · exact ih.apart taken (by simp [registry,unchanged]) (by simp [told,apart])
        (fun row member => ⟨row,unchanged ▸ registry ▸ member,rfl,rfl,rfl⟩)
    rcases written.registered_cases with ⟨id,rfl⟩ | ⟨none_,rows⟩
    · obtain ⟨identity,fresh,asks,users⟩ := commit.signsUp made List.mem_cons_self
      have key : (UserRepository.newUser id identity).id = id := UserRepository.newUser_id id identity
      have absent : a.db.registry.users.get? id = none := key ▸ fresh
      have unknown : ∀ v, ¬ RegisteredBy a.world.log v id := by
        intro v own
        have known := ih.known v id own
        rw [absent] at known
        cases known
      have told : ∀ v id', RegisteredBy b.world.log v id' ↔ RegisteredBy a.world.log v id' ∨ t = v ∧ id' = id := by
        simpa using told
      have rows : b.db.registry.users = a.db.registry.users.insert (UserRepository.newUser id identity) fresh :=
        (congrArg Registry.users registry).trans users
      refine ⟨fun v id' own => ?_,fun v v' id' one two => ?_,fun row member => ?_⟩
      · rcases (told v id').mp own with old | ⟨_,rfl⟩
        · exact registry ▸ written.known (ih.known v id' old)
        · rw [rows,Table.get?_insert,if_pos key]
          rfl
      · rcases (told v id').mp one with old | ⟨rfl,rfl⟩ <;> rcases (told v' id').mp two with old' | ⟨rfl,same⟩
        · exact ih.once v v' id' old old'
        · exact absurd (same ▸ old) (unknown v)
        · exact absurd old' (unknown v')
        · rfl
      · rw [rows,Table.rows_insert,List.mem_append,List.mem_singleton] at member
        rcases member with member | rfl
        · obtain ⟨v,r',state,identity',own,present,asks',new⟩ := ih.source row member
          obtain ⟨state',present'⟩ := Reach.request_stays present taken
          exact ⟨v,r',state',identity',(told v row.id).mpr (.inl own),present',asks',new⟩
        · obtain ⟨state',present'⟩ := Reach.request_stays running taken
          exact ⟨t,r,state',identity,(told t _).mpr (.inr ⟨rfl,key⟩),present',asks,by rw [key]; exact ⟨rfl,rfl⟩⟩
    · exact ih.apart taken (fun id known => registry ▸ written.known known) (by simp [told,none_])
        (registry ▸ rows)

end history

/-- Whether the token store registers a token depends on the time to live alone. -/
def RefreshTokenStore.Steady (store : RefreshTokenStore S) (ttl : Int) : Prop :=
  ∀ id id' subject subject' now now' tokens tokens', (store.register id subject ttl now tokens).isSome →
    (store.register id' subject' ttl now' tokens').isSome

def RefreshTokenStore.Registers (store : RefreshTokenStore S) (ttl : Int) : Prop :=
  ∃ id subject now tokens, (store.register id subject ttl now tokens).isSome

theorem InMemoryRefreshTokenStore.steady (ttl : Int) : inMemoryRefreshTokenStore.Steady ttl :=
  fun _ _ _ _ _ _ _ _ _ => rfl

theorem RedisRefreshTokenStore.steady (ttl : Int) : redisRefreshTokenStore.Steady ttl := by
  intro id id' subject subject' now now' tokens tokens' done
  have positive : ¬ ttl ≤ 0 := by
    intro none_
    change (RedisRefreshTokenStore.register id subject ttl now tokens).isSome at done
    simp [RedisRefreshTokenStore.register,Redis.setEx,none_] at done
  change (RedisRefreshTokenStore.register id' subject' ttl now' tokens').isSome
  simp [RedisRefreshTokenStore.register,Redis.setEx,positive]

section conducts
variable {settings : AuthSettings} {jwt : Jwt T} {store : RefreshTokenStore S} {identity : Identity} {t : Nat}
  {timely : Prop} {w w' : AuthWorld S}

/-- What the other sessions leave to a login: the users keep their identity and, where nobody withdraws, stay
active, and the history of the login is its own. -/
structure LeavesLogin (timely : Prop) (t : Nat) (w w' : AuthWorld S) : Prop where
  users : ∀ id row, w.db.registry.users.get? id = some row → ∃ row', w'.db.registry.users.get? id = some row' ∧
    SameIdentity row row' ∧ (timely → row'.status = row.status)
  own : ∀ event, (t,event) ∈ w'.log ↔ (t,event) ∈ w.log

theorem leavesLogin_refl (w : AuthWorld S) : LeavesLogin timely t w w :=
  ⟨fun _ row found => ⟨row,found,⟨rfl,rfl⟩,fun _ => rfl⟩,fun _ => .rfl⟩

theorem leavesLogin_trans (a b c : AuthWorld S) (first : LeavesLogin timely t a b)
    (second : LeavesLogin timely t b c) : LeavesLogin timely t a c := by
  refine ⟨fun id row found => ?_,fun event => (second.own event).trans (first.own event)⟩
  obtain ⟨row',found',same,status⟩ := first.users id row found
  obtain ⟨row'',found'',same',status'⟩ := second.users id row' found'
  exact ⟨row'',found'',⟨same'.1.trans same.1,same'.2.trans same.2⟩,fun holds => (status' holds).trans (status holds)⟩

/-- The run refuses the INSERT of no login. -/
def Inserts (timely : Prop) (t : Nat) (w : AuthWorld S) (written : Option (Accounts S × List AuthEvent)) : Prop :=
  timely → (∀ event, (t,event) ∉ w.log) → written ≠ none

/-- Where a login stands once it has its user: it inserted him or has inserted nobody. -/
structure HasUser (identity : Identity) (timely : Prop) (t : Nat) (user : User) (isNewUser : Bool)
    (w : AuthWorld S) : Prop where
  there : ∃ row, w.db.registry.users.get? user.id = some row ∧ identity.isOf row
  found : isNewUser = false → ∀ id, ¬ RegisteredBy w.log t id
  inserted : timely → isNewUser = true → RegisteredBy w.log t user.id ∧ user.status = .active

/-- What a login ends in. Where the token store registers tokens, one that has inserted its user does not fail. -/
def SignedUp (store : RefreshTokenStore S) (ttl : Int) (identity : Identity) (timely : Prop) (t : Nat) :
    Except Exc (AuthResponse T) → AuthWorld S → Prop
  | .ok (.data data),w => store.Registers ttl ∧
      (∃ row, w.db.registry.users.get? data.user.id = some row ∧ identity.isOf row) ∧
      (data.isNewUser = false → ∀ id, ¬ RegisteredBy w.log t id) ∧
      (timely → data.isNewUser = true → RegisteredBy w.log t data.user.id)
  | .ok _,_ => False
  | .error _,w => timely → store.Registers ttl → ∀ id, ¬ RegisteredBy w.log t id

theorem HasUser.later {user : User} {isNewUser : Bool} (has : HasUser identity timely t user isNewUser w)
    (step : LeavesLogin timely t w w') : HasUser identity timely t user isNewUser w' := by
  obtain ⟨row,there,own⟩ := has.there
  obtain ⟨row',there',same,_⟩ := step.users _ row there
  exact ⟨⟨row',there',(isOf_sameIdentity same).trans own⟩,fun old id told => has.found old id ((step.own _).mp told),
    fun holds new => (has.inserted holds new).imp (step.own _).mpr id⟩

theorem SignedUp.later {ttl : Int} {x : Except Exc (AuthResponse T)}
    (signedUp : SignedUp store ttl identity timely t x w) (step : LeavesLogin timely t w w') :
    SignedUp store ttl identity timely t x w' := by
  cases x with
  | error error => exact fun holds registers id told => signedUp holds registers id ((step.own _).mp told)
  | ok response =>
    cases response with
    | data data =>
      obtain ⟨registers,⟨row,there,own⟩,found,inserted⟩ := signedUp
      obtain ⟨row',there',same,_⟩ := step.users _ row there
      exact ⟨registers,⟨row',there',(isOf_sameIdentity same).trans own⟩,
        fun old id told => found old id ((step.own _).mp told),
        fun holds new => (step.own _).mpr (inserted holds new)⟩
    | _ => exact signedUp

theorem HasUser.record {user : User} {isNewUser : Bool} (has : HasUser identity timely t user isNewUser w)
    {db : Accounts S} (same : db.registry = w.db.registry) {events : List AuthEvent}
    (none_ : ∀ e, .user e ∉ events) :
    HasUser identity timely t user isNewUser ((World.mk db w.log).record t events) := by
  have told : ∀ id, RegisteredBy ((World.mk db w.log).record t events).log t id ↔ RegisteredBy w.log t id := by
    intro id
    rw [World.log_record,registeredBy_append,registeredBy_own]
    simp [none_]
  obtain ⟨row,there,own⟩ := has.there
  exact ⟨⟨row,by rw [World.db_record,same,there],own⟩,fun old id => mt (told id).mp (has.found old id),
    fun holds new => (has.inserted holds new).imp (told _).mpr id⟩

/-- A login that has its user fails only where it found him, or the token store registers nothing. -/
theorem HasUser.failed {user : User} {isNewUser : Bool} {ttl : Int} {error : Exc}
    (has : HasUser identity timely t user isNewUser w)
    (inserted : timely → isNewUser = true → user.status = .active → ¬ store.Registers ttl) :
    SignedUp (T := T) store ttl identity timely t (.error error) w := by
  intro holds registers id told
  cases isNewUser with
  | false => exact has.found rfl id told
  | true => exact inserted holds rfl (has.inserted holds rfl).2 registers

theorem HasUser.answered {user : User} {isNewUser : Bool} {ttl : Int} {data : AuthData T}
    (has : HasUser identity timely t user isNewUser w) (registers : store.Registers ttl)
    (own : data.user.id = user.id) (new : data.isNewUser = isNewUser) :
    SignedUp store ttl identity timely t (.ok (.data data)) w := by
  refine ⟨registers,own ▸ has.there,fun old => has.found (new ▸ old),fun holds reports => ?_⟩
  rw [own]
  exact (has.inserted holds (new ▸ reports)).1

theorem conducts_newPair {subject : Subject} {user : User} {isNewUser : Bool}
    {Q : Except Exc (TokenPair T × TokenId) → AuthWorld S → Prop}
    (has : HasUser identity timely t user isNewUser w)
    (rest : ∀ pair w', HasUser identity timely t user isNewUser w' → Q (.ok pair) w') :
    (TokenService.newPair settings jwt subject).Conducts (LeavesLogin timely t) (Inserts timely t) t Q w := by
  intro i w₁ step₁ _
  refine ⟨fun db events made => ?_,fun none_ => nomatch none_⟩
  cases made
  have drawn : HasUser identity timely t user isNewUser (w₁.record t [.minted i.accessId.str i.refreshId.str]) :=
    (has.later step₁).record (by rfl) (by simp)
  exact conducts_supply fun first w₂ step₂ => conducts_supply fun second w₃ step₃ w₄ step₄ =>
    rest _ w₄ (((drawn.later step₂).later step₃).later step₄)

theorem conducts_issuePair {subject : Subject} {user : User} {isNewUser : Bool}
    {Q : Except Exc (TokenPair T) → AuthWorld S → Prop} (steady : store.Steady settings.refreshTokenTtlSeconds)
    (has : HasUser identity timely t user isNewUser w)
    (failed : ∀ error w', HasUser identity timely t user isNewUser w' →
      ¬ store.Registers settings.refreshTokenTtlSeconds → Q (.error error) w')
    (done : ∀ pair w', HasUser identity timely t user isNewUser w' →
      store.Registers settings.refreshTokenTtlSeconds → Q (.ok pair) w') :
    (TokenService.issuePair settings jwt store subject).Conducts (LeavesLogin timely t) (Inserts timely t) t Q w := by
  refine conducts_bind leavesLogin_refl (conducts_newPair has ?_)
  rintro ⟨pair,refreshId⟩ w₁ has₁
  change (TokenService.command _ _ _ >>= fun _ => (pure pair : Auth S (TokenPair T))).Conducts _ _ t Q w₁
  refine conducts_commitOr (fun i w₂ db events step₂ _ made => ?_) fun i w₂ w₃ step₂ step₃ _ none_ => ?_
  · obtain ⟨tokens,registered,same⟩ := Option.map_eq_some_iff.mp made
    cases same
    have has₂ : HasUser identity timely t user isNewUser ((World.mk
        {w₂.db with tokens := tokens,storeClock := w₂.db.moment i} w₂.log).record t
          [.grant (.granted refreshId subject)]) := (has₁.later step₂).record (by rfl) (by simp)
    exact fun w₃ step₃ => done pair w₃ (has₂.later step₃) ⟨_,_,_,_,by rw [registered]; rfl⟩
  · refine failed _ w₃ ((has₁.later step₂).later step₃) fun ⟨id,subject',now,tokens,registers⟩ => ?_
    have registered := steady id refreshId subject' subject now (w₂.db.moment i) tokens w₂.db.tokens registers
    rw [Option.map_eq_none_iff.mp none_] at registered
    cases registered

theorem conducts_completeLogin {user : User} {isNewUser : Bool} {Q : Except Exc (AuthData T) → AuthWorld S → Prop}
    (steady : store.Steady settings.refreshTokenTtlSeconds) (has : HasUser identity timely t user isNewUser w)
    (failed : ∀ error w', SignedUp (T := T) store settings.refreshTokenTtlSeconds identity timely t (.error error) w' →
      Q (.error error) w')
    (done : ∀ data w', SignedUp store settings.refreshTokenTtlSeconds identity timely t (.ok (.data data)) w' →
      Q (.ok data) w') : (AuthService.completeLogin settings jwt store user isNewUser).Conducts
        (LeavesLogin timely t) (Inserts timely t) t Q w := by
  unfold AuthService.completeLogin
  split
  next restricted =>
    refine fun w' step => failed _ w' ((has.later step).failed fun _ _ active => ?_)
    cases restricted.symm.trans active
  · split
    next withdrawn =>
      refine fun w' step => failed _ w' ((has.later step).failed fun _ _ active => ?_)
      cases withdrawn.symm.trans active
    · refine conducts_bind leavesLogin_refl (conducts_issuePair steady has ?_ ?_)
      · exact fun error w' has' refuses => failed error w' (has'.failed fun _ _ _ => refuses)
      · exact fun pair w' has' registers w'' step => done _ w'' ((has'.later step).answered registers rfl rfl)

theorem conducts_createFrom {Q : Except Exc User → AuthWorld S → Prop} (silent : ∀ event, (t,event) ∉ w.log)
    (failed : ∀ error w', (timely → ∀ id, ¬ RegisteredBy w'.log t id) → Q (.error error) w')
    (done : ∀ user w', HasUser identity timely t user true w' → Q (.ok user) w') :
    (UserRepository.createFrom identity : Auth S User).Conducts (LeavesLogin timely t) (Inserts timely t) t Q w := by
  intro i w₁ step₁ allows
  have silent₁ : ∀ event, (t,event) ∉ w₁.log := fun event own => silent event ((step₁.own event).mp own)
  refine ⟨fun db events made => ?_,fun none_ => ?_⟩
  · obtain ⟨told,outcome,rfl⟩ := UserRepository.written_eq_some made
    obtain ⟨inserted,rfl⟩ := UserRepository.createWrites_eq_some.mp outcome
    obtain ⟨fresh,users⟩ := Registry.insertUser_users inserted
    have there : db.registry.users.get? i.userId = some (UserRepository.newUser i.userId identity) := by
      rw [users,Table.get?_insert]
      exact if_pos (UserRepository.newUser_id i.userId identity)
    refine conducts_query fun w₂ step₂ => ?_
    obtain ⟨row,found,same,status⟩ := step₂.users _ _ there
    have key : row.id = i.userId := Table.key_of_get? found
    have has : HasUser identity timely t row true w₂ := by
      refine ⟨⟨row,key ▸ found,(isOf_sameIdentity same).trans (isOf_newUser _)⟩,fun old => (nomatch old),fun holds _ => ?_⟩
      refine ⟨(step₂.own _).mpr (List.mem_append_right _ ?_),(status holds).trans (by cases identity <;> rfl)⟩
      rw [key]
      exact List.mem_cons_self
    split
    next missing => cases found.symm.trans missing
    next user same =>
      cases Option.some.inj (found.symm.trans same)
      exact fun w₃ step₃ => done row w₃ (has.later step₃)
  · have late : ¬ timely := fun holds => allows holds silent₁ none_
    refine fun w₂ step₂ => conducts_query fun w₃ step₃ => ?_
    split
    · exact fun w₄ _ => failed _ w₄ fun holds => absurd holds late
    next existing found =>
      have member := List.mem_of_find?_eq_some found
      have has : HasUser identity timely t existing true w₃ :=
        ⟨⟨existing,Table.get?_of_mem member,List.find?_some found⟩,fun old => (nomatch old),
          fun holds => absurd holds late⟩
      exact fun w₄ step₄ => done existing w₄ (has.later step₄)

theorem conducts_login (steady : store.Steady settings.refreshTokenTtlSeconds) (silent : ∀ event, (t,event) ∉ w.log) :
    (AuthService.login settings jwt store (UserRepository.getBy identity) (UserRepository.createFrom identity) >>=
      fun data => (pure (.data data) : Auth S (AuthResponse T))).Conducts (LeavesLogin timely t) (Inserts timely t) t
        (SignedUp store settings.refreshTokenTtlSeconds identity timely t) w := by
  refine conducts_bind leavesLogin_refl (conducts_query fun w₁ step₁ => ?_)
  have silent₁ : ∀ event, (t,event) ∉ w₁.log := fun event own => silent event ((step₁.own event).mp own)
  split
  next =>
    refine conducts_bind leavesLogin_refl (conducts_createFrom silent₁ ?_ ?_)
    · exact fun error w₂ none_ holds _ => none_ holds
    · intro user w₂ has
      refine conducts_completeLogin steady has ?_ ?_
      · exact fun _ _ failed => failed
      · exact fun data w' answered w'' step => answered.later step
  next user found =>
    have member := List.mem_of_find?_eq_some found
    have has : HasUser identity timely t user false w₁ :=
      ⟨⟨user,Table.get?_of_mem member,List.find?_some found⟩,fun _ _ => silent₁ _,fun _ new => (nomatch new)⟩
    refine conducts_completeLogin steady has ?_ ?_
    · exact fun _ _ failed => failed
    · exact fun data w' answered w'' step => answered.later step

end conducts

section runs
variable {settings : AuthSettings} {jwt : Jwt T} {store : RefreshTokenStore S} {clock : Time} {identity : Identity}
  {R : AuthSystem T S → Action AuthInput Exc (AuthRequest T) → AuthSystem T S → Prop} {s : AuthSystem T S} {t : Nat}
  {timely : Prop}

/-- Only a withdrawal tells of one. -/
theorem AuthCommit.withdraws {r : AuthRequest T} {writes : AuthInput → Accounts S → Option (Accounts S × List AuthEvent)}
    (commit : AuthCommit jwt r writes) {i : AuthInput} {db db' : Accounts S} {events : List AuthEvent}
    (made : writes i db = some (db',events)) {loaded : User} (told : .user (.withdrawn loaded) ∈ events) :
    ∃ credentials, r = .withdrawMyAccount credentials := by
  cases commit with
  | apart _ users => exact absurd told ((users i db db' events made).2 _)
  | created =>
    obtain ⟨told',outcome,rfl⟩ := UserRepository.written_eq_some made
    obtain ⟨_,rfl⟩ := UserRepository.createWrites_eq_some.mp outcome
    simp at told
  | onboarded =>
    obtain ⟨told',outcome,rfl⟩ := UserRepository.written_eq_some made
    obtain ⟨_,_,_,rfl⟩ := UserRepository.onboardingWrites_eq_some.mp outcome
    simp at told
  | profileUpdated =>
    obtain ⟨told',outcome,rfl⟩ := UserRepository.written_eq_some made
    obtain ⟨_,rfl⟩ := UserRepository.profileWrites_eq_some.mp outcome
    simp at told
  | withdrawn => exact ⟨_,rfl⟩

theorem leavesLogin_step {a b : AuthSystem T S} {action : Action AuthInput Exc (AuthRequest T)}
    (runs : Runs (authProgram settings jwt store) R (opening store clock) a)
    (taken : a.step (authProgram settings jwt store) action = some b) (other : Reach.Action.session action ≠ t)
    (stays : timely → ∀ v r state, a.session v = some ⟨r,state⟩ → ∀ credentials, r ≠ .withdrawMyAccount credentials) :
    LeavesLogin timely t a.world b.world := by
  rcases Reach.committed runs (fun _ => rfl) authProgram_commits taken with
    same | ⟨v,i,r,writes,next,db,events,rfl,running,commit,made,same⟩
  · rw [same]
    exact leavesLogin_refl _
  rw [same]
  constructor
  · intro id row found
    rcases commit.change made with ⟨unchanged,_⟩ | ⟨told,rfl,written⟩
    · exact ⟨row,by rw [World.db_record,unchanged]; exact found,⟨rfl,rfl⟩,fun _ => rfl⟩
    · obtain ⟨row',found',rewritten⟩ := written.kept found
      refine ⟨row',found',?_⟩
      rcases rewritten with rfl | ⟨event,rfl,rewrites⟩
      · exact ⟨⟨rfl,rfl⟩,fun _ => rfl⟩
      · refine ⟨rewrites.identity,fun holds => rewrites.status fun loaded same => ?_⟩
        obtain ⟨credentials,asks⟩ := commit.withdraws made (by rw [same]; exact List.mem_cons_self)
        exact stays holds v r _ running credentials asks
  · intro event
    have apart : (t,event) ∉ events.map fun event => (v,event) := by
      rintro member
      obtain ⟨_,_,same⟩ := List.mem_map.mp member
      exact other (congrArg Prod.fst same)
    rw [World.log_record,List.mem_append,or_iff_left apart]

theorem authProgram_conducts (timely : Prop) (steady : store.Steady settings.refreshTokenTtlSeconds)
    {r : AuthRequest T} (asks : r.identity? = some identity) {w : AuthWorld S} (silent : ∀ event, (t,event) ∉ w.log) :
    (authProgram settings jwt store r).Conducts (LeavesLogin timely t) (Inserts timely t) t
      (SignedUp store settings.refreshTokenTtlSeconds identity timely t) w := by
  cases r with
  | loginWithKakao kakaoId =>
    cases asks
    exact conducts_login steady silent
  | loginWithApple appleId =>
    cases asks
    exact conducts_login steady silent
  | _ => cases asks

theorem signedUp_runs (timely : Prop) (steady : store.Steady settings.refreshTokenTtlSeconds)
    (runs : Runs (authProgram settings jwt store) R (opening store clock) s)
    (holds : timely → ∀ a action b, R a action b → SignsUpOnce identity a action b) {r : AuthRequest T}
    (asks : r.identity? = some identity) {x : Except Exc (AuthResponse T)} (ended : s.session t = some ⟨r,.inr x⟩) :
    SignedUp store settings.refreshTokenTtlSeconds identity timely t x s.world := by
  refine Reach.conducting (Q := SignedUp store settings.refreshTokenTtlSeconds identity timely t) runs (fun _ => rfl)
    leavesLogin_refl leavesLogin_trans (fun a before absent => authProgram_conducts timely steady asks fun event own =>
      (Reach.of_runs before fun _ action _ _ => Reach.admits_none action).unheard rfl absent _ own rfl)
    ?_ ?_ ?_ (fun x a b signedUp step => signedUp.later step) ended
  · intro a i b writes next before step running timely silent none_
    exact (holds timely _ _ _ step).inserts ⟨t,i,r,writes,next,rfl,running,asks,none_,silent⟩
  · intro a action b before taken step other
    refine leavesLogin_step before taken other fun timely v r' state present credentials => ?_
    exact Reach.requested (P := fun r => r ≠ .withdrawMyAccount credentials) before (fun _ => rfl)
      (fun a v r b step same => (holds timely _ _ _ step).stays v credentials (same ▸ rfl)) present
  · intro a error b p running same step timely _ id told
    rw [same] at told
    exact (holds timely _ _ _ step).lives ⟨t,error,r,_,id,rfl,running,asks,told⟩

theorem signUps_of_steady (settings : AuthSettings) (jwt : Jwt T) (clock : Time)
    (steady : store.Steady settings.refreshTokenTtlSeconds) : SignUps settings jwt store clock := by
  constructor
  · exact fun s identity reach => (apart_runs reach.runs_admitted).filter_isOf identity
  · rintro s identity t data reach ⟨r,asks,ended⟩
    have runs := reach.runs_admitted
    obtain ⟨_,⟨row,there,own⟩,_,_⟩ := signedUp_runs False steady runs (fun never => never.elim) asks ended
    obtain ⟨member,key⟩ := Table.mem_rows_of_get? there
    have inside : row ∈ s.db.registry.users.rows.filter identity.isOf := List.mem_filter.mpr ⟨member,own⟩
    obtain ⟨one,same⟩ := List.length_eq_one_iff.mp (Nat.le_antisymm ((apart_runs runs).filter_isOf identity)
      (List.length_pos_of_mem inside))
    rw [same] at inside
    exact ⟨one,same,key.symm.trans (congrArg User.id (List.mem_singleton.mp inside))⟩
  · rintro s identity t u first second runs ⟨r,asks,ended⟩ ⟨r',asks',ended'⟩ new new'
    obtain ⟨_,⟨row,there,own⟩,_,inserted⟩ := signedUp_runs True steady runs (fun _ _ _ _ => id) asks ended
    obtain ⟨_,⟨row',there',own'⟩,_,inserted'⟩ :=
      signedUp_runs True steady runs (fun _ _ _ _ => id) asks' ended'
    obtain ⟨member,key⟩ := Table.mem_rows_of_get? there
    obtain ⟨member',key'⟩ := Table.mem_rows_of_get? there'
    cases (apart_runs runs).same member member' own own'
    refine (registrations_runs runs).once t u row.id ?_ ?_
    · rw [key]
      exact inserted trivial new
    · rw [key']
      exact inserted' trivial new'
  · rintro s identity t data runs ⟨r,asks,ended⟩ all_ended
    obtain ⟨registers,⟨row,there,own⟩,_,_⟩ :=
      signedUp_runs True steady runs (fun _ _ _ _ => id) asks ended
    obtain ⟨member,key⟩ := Table.mem_rows_of_get? there
    obtain ⟨u,r',state,identity',told,present,asks',new⟩ := (registrations_runs runs).source row member
    cases identity_unique new own
    cases state with
    | inl p => exact absurd asks' (all_ended u r' p present)
    | inr x =>
      have signedUp := signedUp_runs True steady runs (fun _ _ _ _ => id) asks' present
      cases x with
      | error error => exact absurd told (signedUp trivial registers row.id)
      | ok response =>
        cases response with
        | data first =>
          refine ⟨u,first,⟨r',asks',present⟩,?_⟩
          by_contra old
          exact signedUp.2.2.1 (by simpa using old) row.id told
        | _ => exact signedUp.elim

/-- Over either store. -/
theorem signUps (settings : AuthSettings) (jwt : Jwt T) (clock : Time) :
    SignUps settings jwt inMemoryRefreshTokenStore clock ∧ SignUps settings jwt redisRefreshTokenStore clock :=
  ⟨signUps_of_steady settings jwt clock (InMemoryRefreshTokenStore.steady _),
    signUps_of_steady settings jwt clock (RedisRefreshTokenStore.steady _)⟩

end runs

namespace Sample

/-- Two first logins, the second of which looks its identity up before the first inserts the user. -/
def signUpTwice : AuthActions :=
  .start 1 (.loginWithKakao "1") :: statements 1 0 100 1 ++ .start 2 (.loginWithKakao "1") :: statements 2 0 200 1 ++
    statements 1 0 300 7 ++ statements 2 0 400 8

/-- Two logins, the second of which looks the identity up once the first has inserted the user. -/
def signUpOnce : AuthActions :=
  .start 1 (.loginWithKakao "1") :: statements 1 0 100 2 ++ .start 2 (.loginWithKakao "1") :: statements 2 0 200 6 ++
    statements 1 0 300 6

/-- A step of the first sessions in which nobody dies or withdraws and no INSERT for the identity is refused. -/
def signsUp (identity : Identity) (s : AuthSystem Payload Redis)
    (action : Action AuthInput Exc (AuthRequest Payload)) : Bool :=
  decide (Reach.Action.session action < 3) && match action with
    | .exec t i => match s.session t with
      | some ⟨r,.inl (.commit writes _)⟩ => r.identity? ≠ some identity ∨ (writes i s.db).isSome
      | _ => true
    | .start _ (.withdrawMyAccount _) | .die _ _ => false
    | .start _ _ => true

theorem signsUpOnce_of_signsUp {identity : Identity} {s u : AuthSystem Payload Redis}
    {action : Action AuthInput Exc (AuthRequest Payload)} (passes : signsUp identity s action = true) :
    SignsUpOnce identity s action u := by
  obtain ⟨_,passes⟩ := Bool.and_eq_true_iff.mp passes
  constructor
  · rintro ⟨t,i,r,writes,next,rfl,running,asks,refused,_⟩
    simp only [running] at passes
    rcases of_decide_eq_true passes with other | made
    · exact other asks
    · simp [refused] at made
  · rintro ⟨t,error,r,state,id,rfl,_⟩
    cases passes
  · rintro t credentials rfl
    cases passes

/-- Sessions 1 and 2 were answered, and no other has begun. -/
theorem ended_of_signsUp {identity : Identity} {s : AuthSystem Payload Redis}
    (runs : Runs (authProgram authSettings jwt redisRefreshTokenStore)
      (fun s action _ => signsUp identity s action = true) (opening redisRefreshTokenStore 0) s)
    (ended : (List.range 3).all (fun t => (s.session t).all fun session => session.state.isRight) = true) :
    ∀ t r p, s.session t ≠ some ⟨r,.inl p⟩ := by
  intro t r p present
  by_cases early : t < 3
  · have right := List.all_eq_true.mp ended t (List.mem_range.mpr early)
    rw [present] at right
    cases right
  · have idle : s.session t = none := Reach.runs_idle runs fun a action b passes same =>
      early (same ▸ of_decide_eq_true (Bool.and_eq_true_iff.mp passes).1)
    cases idle.symm.trans present

/-- Whether session `t` was a login for the identity, and what it reported. -/
def reports (s : AuthSystem Payload Redis) (identity : Identity) (t : Nat) (new : Bool) : Bool :=
  match s.session t with
  | some ⟨r,.inr (.ok (.data data))⟩ => r.identity? = some identity ∧ data.isNewUser = new
  | _ => false

theorem of_reports {s : AuthSystem Payload Redis} {identity : Identity} {t : Nat} {new : Bool}
    (passes : reports s identity t new = true) : ∃ data, LoggedIn s identity t data ∧ data.isNewUser = new := by
  unfold reports at passes
  split at passes
  next r data present =>
    obtain ⟨asks,same⟩ := of_decide_eq_true passes
    exact ⟨data,⟨r,asks,present⟩,same⟩
  next => cases passes

end Sample

/-- Of two logins that overlap the one that inserted the user reports a new one, and no other does. -/
theorem signUps_once : ∃ (s : AuthSystem Payload Redis) (first second : AuthData Payload),
    LoggedIn s (.kakao "1") 1 first ∧ first.isNewUser ∧ LoggedIn s (.kakao "1") 2 second ∧ ¬ second.isNewUser ∧
      (∀ t data, LoggedIn s (.kakao "1") t data → data.isNewUser → t = 1) ∧
        ∃ t data, LoggedIn s (.kakao "1") t data ∧ data.isNewUser := by
  obtain ⟨s,ran,passes⟩ := (Option.any_eq_true _ _).mp (show (Sample.authAfter (fun s action _ =>
    Sample.signsUp (.kakao "1") s action) Sample.signUpOnce Sample.start).any (fun s =>
      (Sample.reports s (.kakao "1") 1 true && Sample.reports s (.kakao "1") 2 false) &&
        (List.range 3).all fun t => (s.session t).all fun session => session.state.isRight) = true by
          decide +kernel)
  obtain ⟨answered,ended⟩ := Bool.and_eq_true_iff.mp passes
  obtain ⟨one,two⟩ := Bool.and_eq_true_iff.mp answered
  obtain ⟨first,logged,new⟩ := Sample.of_reports one
  obtain ⟨second,logged',old⟩ := Sample.of_reports two
  have checked := Reach.runs_of_runWhile (R := fun s action _ => Sample.signsUp (.kakao "1") s action = true)
    (fun _ _ _ _ passes => passes) ran
  have runs : Runs (authProgram Sample.authSettings Sample.jwt redisRefreshTokenStore)
      (SignsUpOnce (.kakao "1")) (opening redisRefreshTokenStore 0) s :=
    Reach.runs_imp checked fun _ _ _ _ _ passes => Sample.signsUpOnce_of_signsUp passes
  have signUps := (signUps Sample.authSettings Sample.jwt 0).2
  refine ⟨s,first,second,logged,new,logged',by simp [old],?_,?_⟩
  · exact fun t data again new' => signUps.once s _ t 1 data first runs again logged new' new
  · exact signUps.reported s _ 2 second runs logged' fun t r p present =>
      absurd present (Sample.ended_of_signsUp checked ended t r p)

/-- Two first logins that overlap both report a new user. -/
theorem signUps_overlapping : ¬ ∀ (settings : AuthSettings) (jwt : Jwt Payload) (clock : Time)
    (s : AuthSystem Payload Redis) (identity : Identity) (t u : Nat) (first second : AuthData Payload),
      AuthReachable settings jwt redisRefreshTokenStore clock s → LoggedIn s identity t first →
        LoggedIn s identity u second → first.isNewUser → second.isNewUser → t = u := by
  intro claim
  obtain ⟨s,ran,passes⟩ := (Option.any_eq_true _ _).mp (show (Sample.authAfter (fun s action _ =>
    Sample.drawsFresh s action) Sample.signUpTwice Sample.start).any (fun s =>
      Sample.reports s (.kakao "1") 1 true && Sample.reports s (.kakao "1") 2 true) = true by decide +kernel)
  obtain ⟨one,two⟩ := Bool.and_eq_true_iff.mp passes
  obtain ⟨first,answered,new⟩ := Sample.of_reports one
  obtain ⟨second,answered',new'⟩ := Sample.of_reports two
  have reachable : AuthReachable Sample.authSettings Sample.jwt redisRefreshTokenStore 0 s :=
    Reach.of_runs (Reach.runs_of_runWhile (fun _ _ _ _ => Sample.admits_of_drawsFresh) ran) fun _ _ _ => id
  cases claim _ _ _ s _ 1 2 first second reachable answered answered' new new'

end Dalm
