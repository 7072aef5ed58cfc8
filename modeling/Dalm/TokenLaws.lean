import Dalm.TokenStore

/-! What both stores promise the token service. At any time a store holds at most one
owner for a token; time only takes tokens away, and an operation gives or takes just the
tokens it names. -/
namespace Dalm

structure RefreshTokenStore.Lawful {S : Type} (store : RefreshTokenStore S) (ttl : Int) where
  live : Time → S → TokenId → Option Subject
  mentions : S → TokenId → Prop
  inv : Time → S → Prop
  empty_inv : ∀ n, inv n store.empty
  empty_live : ∀ n id, live n store.empty id = none
  empty_mentions : ∀ id, ¬ mentions store.empty id
  later : ∀ {n m s}, n ≤ m → inv n s → inv m s
  fades : ∀ {n m s id sub}, n ≤ m → live m s id = some sub → live n s id = some sub
  mentioned : ∀ {n s id sub}, live n s id = some sub → mentions s id
  register_inv : ∀ {n s s' id sub}, inv n s → ¬ mentions s id →
    store.register id sub ttl n s = some s' → inv n s'
  register_mentions : ∀ {n s s' id sub j}, store.register id sub ttl n s = some s' →
    mentions s' j → mentions s j ∨ j = id
  register_others : ∀ {n m s s' id sub j}, n ≤ m → store.register id sub ttl n s = some s' →
    j ≠ id → live m s' j = live m s j
  register_own : ∀ {n m s s' id sub x}, n ≤ m → store.register id sub ttl n s = some s' →
    live m s' id = some x → x = sub
  rotate_refused : ∀ {n s old sub} new, live n s old ≠ some sub →
    store.rotate old new sub ttl n s = none
  rotate_accepted : ∀ {n s old sub} new, inv n s → live n s old = some sub → ∃ s' s'',
    store.revoke old sub n s = some s' ∧ store.register new sub ttl n s' = some s'' ∧
      store.rotate old new sub ttl n s = some s''
  revoke_answer : ∀ {n s} id sub, (store.revoke id sub n s).isSome ↔ live n s id = some sub
  revoke_inv : ∀ {n s s' id sub}, inv n s → store.revoke id sub n s = some s' → inv n s'
  revoke_mentions : ∀ {n s s' id sub j}, store.revoke id sub n s = some s' → mentions s' j →
    mentions s j
  revoke_live : ∀ {n m s s' id sub} j, n ≤ m → store.revoke id sub n s = some s' →
    live m s' j = if j = id then none else live m s j
  revokeAll_inv : ∀ {n s} sub, inv n s → inv n (store.revokeAll sub n s).1
  revokeAll_mentions : ∀ {n s sub j}, mentions (store.revokeAll sub n s).1 j → mentions s j
  revokeAll_live : ∀ {n m s} sub j, n ≤ m → inv n s →
    live m (store.revokeAll sub n s).1 j = (live m s j).filter (· ≠ sub)

theorem lookup_eraseAll {κ υ : Type} [DecidableEq κ] (keys : List κ) (table : AList fun _ : κ => υ)
    (k : κ) : (keys.foldl (fun table key => table.erase key) table).lookup k =
      if k ∈ keys then none else table.lookup k := by
  induction keys generalizing table with
  | nil => simp
  | cons key rest ih =>
    rw [List.foldl_cons,ih]
    rcases eq_or_ne k key with rfl | different
    · simp
    · simp [different,AList.lookup_erase_ne different]

namespace InMemoryRefreshTokenStore

theorem mem_owned {s : Active} {subject : Subject} {id : TokenId} :
    id ∈ (s.active.entries.filter fun entry => entry.2 = subject).map Sigma.fst ↔
      s.active.lookup id = some subject := by
  rw [← Option.mem_def,AList.mem_lookup_iff]
  simp

theorem revoke_eq_some {s s' : Active} {id : TokenId} {subject : Subject} (now : Time) :
    revoke id subject now s = some s' ↔
      s.active.lookup id = some subject ∧ ⟨s.active.erase id⟩ = s' := by
  unfold revoke
  split
  next refused => simp [refused]
  next held => simp [not_not.mp held]

theorem lookup_revokeAll (s : Active) (subject : Subject) (now : Time) (id : TokenId) :
    (revokeAll subject now s).1.active.lookup id = (s.active.lookup id).filter (· ≠ subject) := by
  refine (lookup_eraseAll _ _ _).trans ?_
  simp only [mem_owned]
  cases held : s.active.lookup id with
  | none => simp
  | some owner => by_cases same : owner = subject <;> simp [same,Option.filter]

def lawful (ttl : Int) : inMemoryRefreshTokenStore.Lawful ttl where
  live _ s := s.active.lookup
  mentions s id := (s.active.lookup id).isSome
  inv _ _ := True
  empty_inv _ := trivial
  empty_live _ _ := rfl
  empty_mentions _ := by simp [inMemoryRefreshTokenStore]
  later _ _ := trivial
  fades _ held := held
  mentioned held := by simp [held]
  register_inv _ _ _ := trivial
  register_mentions := by
    intro n s s' id sub j done mentioned
    cases Option.some.inj done
    rcases eq_or_ne j id with same | different
    · exact .inr same
    · exact .inl (by simpa [different] using mentioned)
  register_others := by
    intro n m s s' id sub j _ done different
    cases Option.some.inj done
    exact AList.lookup_insert_ne different
  register_own := by
    intro n m s s' id sub x _ done held
    cases Option.some.inj done
    simpa [eq_comm] using held
  rotate_refused := by
    intro n s old sub new refused
    simp [inMemoryRefreshTokenStore,rotate,refused]
  rotate_accepted := by
    intro n s old sub new _ held
    exact ⟨⟨s.active.erase old⟩,_,(revoke_eq_some n).mpr ⟨held,rfl⟩,rfl,
      by simp [inMemoryRefreshTokenStore,rotate,held]⟩
  revoke_answer := by
    intro n s id sub
    by_cases held : s.active.lookup id = some sub <;> simp [inMemoryRefreshTokenStore,revoke,held]
  revoke_inv _ _ := trivial
  revoke_mentions := by
    intro n s s' id sub j done mentioned
    obtain ⟨held,rfl⟩ := (revoke_eq_some n).mp done
    rcases eq_or_ne j id with rfl | apart
    · simp [held]
    · simpa [apart] using mentioned
  revoke_live := by
    intro n m s s' id sub j _ done
    obtain ⟨held,rfl⟩ := (revoke_eq_some n).mp done
    rcases eq_or_ne j id with rfl | apart
    · simp
    · simp [apart]
  revokeAll_inv _ _ := trivial
  revokeAll_mentions := by
    intro n s sub j mentioned
    obtain ⟨owner,held⟩ := Option.isSome_iff_exists.mp mentioned
    have before := (lookup_revokeAll s sub n j).symm.trans held
    exact Option.isSome_iff_exists.mpr ⟨owner,(Option.filter_eq_some_iff.mp before).1⟩
  revokeAll_live := by
    intro n m s sub j _ _
    exact lookup_revokeAll s sub n j

end InMemoryRefreshTokenStore

namespace Redis
variable {r : Redis} {subject other : Subject} {id : TokenId} {now : Time}

@[simp] theorem tokens_sadd : (r.sadd subject id now).tokens = r.tokens := by
  unfold sadd
  split <;> rfl

@[simp] theorem tokens_srem : (r.srem subject id now).tokens = r.tokens := by
  unfold srem
  split
  next =>
    split <;> rfl
  next => rfl

@[simp] theorem tokens_expire (seconds : Int) :
    (r.expire subject seconds now).tokens = r.tokens := by
  unfold expire
  split
  next =>
    split <;> rfl
  next => rfl

theorem lookup_of_live {value : List TokenId × Option Int} (found : r.subject? subject now = some value) :
    r.subjects.lookup subject = some value ∧ value.2.all (milliseconds now ≤ ·) :=
  Option.filter_eq_some_iff.mp found

theorem lookup_sadd (r : Redis) (subject other : Subject) (id : TokenId) (now : Time) : ∃ expiry : Option Int,
    expiry.all (milliseconds now ≤ ·) ∧ (r.sadd subject id now).subjects.lookup other =
      if other = subject then some ((r.smembers subject now).insert id,expiry)
      else r.subjects.lookup other := by
  unfold sadd smembers
  cases found : r.subject? subject now with
  | none =>
    refine ⟨none,rfl,?_⟩
    rcases eq_or_ne other subject with rfl | different
    · simp
    · simp [different]
  | some value =>
    obtain ⟨members,expiry⟩ := value
    refine ⟨expiry,(lookup_of_live found).2,?_⟩
    rcases eq_or_ne other subject with rfl | different
    · simp
    · simp [different]

theorem subject?_sadd (r : Redis) (subject : Subject) (id : TokenId) (now : Time) : ∃ expiry : Option Int, (r.sadd subject id now).subject? subject now =
    some ((r.smembers subject now).insert id,expiry) := by
  obtain ⟨expiry,alive,same⟩ := lookup_sadd r subject subject id now
  refine ⟨expiry,?_⟩
  rw [if_pos rfl] at same
  rw [subject?,same,Option.filter_some,if_pos alive]

/-- SADD and EXPIRE with a positive time to live. -/
theorem lookup_added {seconds : Int} (positive : 0 < seconds) :
    ((r.sadd subject id now).expire subject seconds now).subjects.lookup other =
      if other = subject then
        some ((r.smembers subject now).insert id,some (milliseconds now + seconds * 1000))
      else r.subjects.lookup other := by
  obtain ⟨expiry,found⟩ := subject?_sadd r subject id now
  obtain ⟨_,_,same⟩ := lookup_sadd r subject other id now
  unfold expire
  rw [found]
  simp only [if_neg (not_le.mpr positive)]
  rcases eq_or_ne other subject with rfl | different
  · simp
  · simpa [different] using same

theorem lookup_srem : (r.srem subject id now).subjects.lookup other =
    if other = subject then
      match r.subject? subject now with
      | some (members,expiry) =>
        if members.filter (· ≠ id) = [] then none else some (members.filter (· ≠ id),expiry)
      | none => r.subjects.lookup subject
    else r.subjects.lookup other := by
  unfold srem
  cases found : r.subject? subject now with
  | none => rcases eq_or_ne other subject with rfl | different <;> simp [*]
  | some value =>
    obtain ⟨members,expiry⟩ := value
    simp only
    rcases eq_or_ne other subject with rfl | different
    · rw [if_pos rfl]
      split <;> simp
    · rw [if_neg different]
      split <;> simp [different]

theorem milliseconds_mono {n m : Time} (order : n ≤ m) : milliseconds n ≤ milliseconds m :=
  Int.ediv_le_ediv (by decide) order

theorem get_eq_some : r.get id now = some subject ↔
    ∃ expiry, r.tokens.lookup id = some (subject,expiry) ∧ milliseconds now ≤ expiry := by
  unfold get
  simp only [Option.map_eq_some_iff,Option.filter_eq_some_iff,decide_eq_true_eq]
  constructor
  · rintro ⟨⟨owner,expiry⟩,⟨found,alive⟩,rfl⟩
    exact ⟨expiry,found,alive⟩
  · rintro ⟨expiry,found,alive⟩
    exact ⟨(subject,expiry),⟨found,alive⟩,rfl⟩

theorem mem_smembers {members : List TokenId} {expiry : Int}
    (found : r.subjects.lookup subject = some (members,some expiry))
    (alive : milliseconds now ≤ expiry) : r.smembers subject now = members := by
  simp [smembers,subject?,found,Option.filter_some,alive]

theorem of_mem_smembers (member : id ∈ r.smembers subject now) :
    ∃ members expiry, r.subjects.lookup subject = some (members,expiry) ∧ id ∈ members := by
  unfold smembers at member
  cases found : r.subject? subject now with
  | none => simp [found] at member
  | some value =>
    obtain ⟨members,expiry⟩ := value
    exact ⟨members,expiry,(lookup_of_live found).1,by simpa [found] using member⟩

def mentions (r : Redis) (id : TokenId) : Prop :=
  (r.tokens.lookup id).isSome ∨
    ∃ subject members expiry, r.subjects.lookup subject = some (members,expiry) ∧ id ∈ members

/-- Every live token of the subject is in its set, and the set outlives it. -/
def Covers (subject : Subject) (now : Time) (r : Redis) : Prop :=
  ∀ id expiry, r.tokens.lookup id = some (subject,expiry) → milliseconds now ≤ expiry →
    ∃ members until', r.subjects.lookup subject = some (members,some until') ∧ id ∈ members ∧
      expiry ≤ until'

/-- Every token that is live is in its subject's set, and the set outlives it. -/
structure Ok (ttl : Int) (now : Time) (r : Redis) : Prop where
  bounded : ∀ id subject expiry, r.tokens.lookup id = some (subject,expiry) →
    expiry ≤ milliseconds now + ttl * 1000
  positive : ∀ id, (r.tokens.lookup id).isSome → 0 < ttl
  listed : ∀ id subject expiry, r.tokens.lookup id = some (subject,expiry) →
    milliseconds now ≤ expiry → ∃ members until', r.subjects.lookup subject =
      some (members,some until') ∧ id ∈ members ∧ expiry ≤ until'
  own : ∀ subject members expiry, r.subjects.lookup subject = some (members,expiry) →
    ∀ id ∈ members, ∀ other until', r.tokens.lookup id = some (other,until') → other = subject

theorem Covers.later {n m : Time} (covers : r.Covers subject n) (order : n ≤ m) : r.Covers subject m := by
  have passed := milliseconds_mono order
  exact fun id expiry found alive => covers id expiry found (passed.trans alive)

theorem Ok.covers {ttl : Int} (ok : r.Ok ttl now) (subject : Subject) : r.Covers subject now :=
  fun id => ok.listed id subject

theorem Ok.later {ttl : Int} {n m : Time} (ok : r.Ok ttl n) (order : n ≤ m) : r.Ok ttl m := by
  refine ⟨?_,ok.positive,fun id subject => (ok.covers subject).later order id,ok.own⟩
  intro id subject expiry found
  have passed := milliseconds_mono order
  have := ok.bounded id subject expiry found
  omega

end Redis

namespace RedisRefreshTokenStore
open Redis
variable {r r' : Redis} {subject other : Subject} {id : TokenId} {now : Time} {ttl : Int}

theorem register_eq_some : register id subject ttl now r = some r' ↔ 0 < ttl ∧
    (({r with tokens := r.tokens.insert id (subject,milliseconds now + ttl * 1000)}.sadd subject id
      now).expire subject ttl now) = r' := by
  unfold register setEx
  split
  next negative => simp [not_lt.mpr negative]
  next positive => simp [not_le.mp positive]

theorem lookup_register (done : register id subject ttl now r = some r') (j : TokenId) :
    r'.tokens.lookup j = if j = id then some (subject,milliseconds now + ttl * 1000)
      else r.tokens.lookup j := by
  obtain ⟨_,rfl⟩ := register_eq_some.mp done
  rcases eq_or_ne j id with rfl | different
  · simp
  · simp [different]

theorem subjects_register (done : register id subject ttl now r = some r') :
    r'.subjects.lookup other = if other = subject then
        some ((r.smembers subject now).insert id,some (milliseconds now + ttl * 1000))
      else r.subjects.lookup other := by
  obtain ⟨positive,rfl⟩ := register_eq_some.mp done
  exact lookup_added positive

/-- A registration keeps the tokens covered whose set it does not let end before them. -/
theorem covers_register (covers : r.Covers other now)
    (lasts : subject = other → ∀ j expiry, j ≠ id → r.tokens.lookup j = some (other,expiry) →
      milliseconds now ≤ expiry → expiry ≤ milliseconds now + ttl * 1000)
    (done : register id subject ttl now r = some r') : r'.Covers other now := by
  intro j expiry found alive
  rw [lookup_register done] at found
  split at found
  next same =>
    obtain ⟨rfl,rfl⟩ := Prod.mk.inj (Option.some.inj found)
    refine ⟨_,_,by rw [subjects_register done,if_pos rfl],?_,le_rfl⟩
    rw [same]
    exact List.mem_insert_self
  next different =>
    obtain ⟨members,until',listed,member,order⟩ := covers j expiry found alive
    rcases eq_or_ne other subject with rfl | elsewhere
    · refine ⟨_,_,by rw [subjects_register done,if_pos rfl],?_,lasts rfl j expiry different found alive⟩
      rw [mem_smembers listed (alive.trans order)]
      exact List.mem_insert_of_mem member
    · exact ⟨members,until',by rw [subjects_register done,if_neg elsewhere,listed],member,order⟩

theorem ok_register (ok : r.Ok ttl now) (fresh : ¬ r.mentions id)
    (done : register id subject ttl now r = some r') : r'.Ok ttl now := by
  obtain ⟨positive,_⟩ := register_eq_some.mp done
  refine ⟨?_,fun _ _ => positive,fun j owner => ?_,?_⟩
  · intro j owner expiry found
    rw [lookup_register done] at found
    split at found
    next =>
      obtain ⟨_,rfl⟩ := Prod.mk.inj (Option.some.inj found)
      rfl
    next => exact ok.bounded j owner expiry found
  · exact covers_register (ok.covers owner) (fun _ j expiry _ found _ => ok.bounded j owner expiry found) done j
  · intro owner members expiry listed j member other until' found
    rw [subjects_register done] at listed
    rw [lookup_register done] at found
    split at found
    next same =>
      obtain ⟨rfl,_⟩ := Prod.mk.inj (Option.some.inj found)
      split at listed
      next same => exact same.symm
      next => exact absurd (.inr ⟨_,_,_,listed,same ▸ member⟩) fresh
    next different =>
      split at listed
      next same =>
        obtain ⟨rfl,_⟩ := Prod.mk.inj (Option.some.inj listed)
        have before := (List.mem_insert_iff.mp member).resolve_left different
        obtain ⟨members,expiry,listed,member⟩ := of_mem_smembers before
        rw [same]
        exact ok.own _ members expiry listed j member other until' found
      next => exact ok.own owner members expiry listed j member other until' found

theorem revoke_eq_some : revoke id subject now r = some r' ↔
    r.get id now = some subject ∧ (r.del id).srem subject id now = r' := by
  unfold revoke
  split
  next refused => simp [refused]
  next held => simp [not_not.mp held]

/-- A token other than the one removed is as it was. -/
theorem lookup_del_srem (j : TokenId) : ((r.del id).srem subject id now).tokens.lookup j =
    if j = id then none else r.tokens.lookup j := by
  rw [tokens_srem]
  rcases eq_or_ne j id with rfl | different
  · simp [del]
  · simp [del,different]

theorem member_before {owner : Subject} {members : List TokenId} {expiry : Option Int} {j : TokenId}
    (listed : ((r.del id).srem subject id now).subjects.lookup owner = some (members,expiry))
    (member : j ∈ members) :
    ∃ members expiry, r.subjects.lookup owner = some (members,expiry) ∧ j ∈ members := by
  rw [lookup_srem] at listed
  split at listed
  next same =>
    subst same
    split at listed
    next members' expiry' live =>
      split at listed
      next => cases listed
      next =>
        obtain ⟨rfl,rfl⟩ := Prod.mk.inj (Option.some.inj listed)
        exact ⟨members',expiry',(lookup_of_live live).1,(List.mem_filter.mp member).1⟩
    next => exact ⟨members,expiry,listed,member⟩
  next => exact ⟨members,expiry,listed,member⟩

theorem lookup_before {j : TokenId} {value : Subject × Int}
    (found : ((r.del id).srem subject id now).tokens.lookup j = some value) :
    j ≠ id ∧ r.tokens.lookup j = some value := by
  rw [lookup_del_srem] at found
  split at found
  next => cases found
  next different => exact ⟨different,found⟩

/-- A token that is removed takes only itself out of a set. -/
theorem covers_revoke (covers : r.Covers other now) : ((r.del id).srem subject id now).Covers other now := by
  intro j expiry found alive
  obtain ⟨different,found⟩ := lookup_before found
  obtain ⟨members,until',listed,member,order⟩ := covers j expiry found alive
  rw [lookup_srem]
  rcases eq_or_ne other subject with rfl | elsewhere
  · have live : (r.del id).subject? other now = some (members,some until') := by
      simp [subject?,del,listed,Option.filter_some,alive.trans order]
    have still : j ∈ members.filter (· ≠ id) := List.mem_filter.mpr ⟨member,by simpa using different⟩
    refine ⟨members.filter (· ≠ id),until',?_,still,order⟩
    simp only [if_pos,live,if_neg (List.ne_nil_of_mem still)]
  · exact ⟨members,until',by rw [if_neg elsewhere]; exact listed,member,order⟩

theorem ok_revoke (ok : r.Ok ttl now) : ((r.del id).srem subject id now).Ok ttl now := by
  refine ⟨?_,?_,fun j owner => covers_revoke (ok.covers owner) j,?_⟩
  · exact fun j owner expiry found => ok.bounded j owner expiry (lookup_before found).2
  · intro j found
    obtain ⟨value,found⟩ := Option.isSome_iff_exists.mp found
    exact ok.positive j (by simp [(lookup_before found).2])
  · intro owner members expiry listed j member other until' found
    obtain ⟨_,found⟩ := lookup_before found
    have before := member_before listed member
    obtain ⟨members,expiry,listed,member⟩ := before
    exact ok.own owner members expiry listed j member other until' found

theorem tokens_delAll (keys : List TokenId) (r : Redis) :
    (keys.foldl (fun r key => r.del key) r).tokens =
      keys.foldl (fun table key => table.erase key) r.tokens := by
  induction keys generalizing r with
  | nil => rfl
  | cons key rest ih => exact ih (r.del key)

theorem subjects_delAll (keys : List TokenId) (r : Redis) :
    (keys.foldl (fun r key => r.del key) r).subjects = r.subjects := by
  induction keys generalizing r with
  | nil => rfl
  | cons key rest ih => exact ih (r.del key)

theorem lookup_revokeAll (j : TokenId) : (revokeAll subject now r).1.tokens.lookup j =
    if j ∈ r.smembers subject now then none else r.tokens.lookup j := by
  unfold revokeAll delSubject
  simp only [tokens_delAll,lookup_eraseAll]
  split <;> rfl

theorem subjects_revokeAll : (revokeAll subject now r).1.subjects.lookup other =
    if other = subject then none else r.subjects.lookup other := by
  unfold revokeAll delSubject
  simp only [subjects_delAll]
  rcases eq_or_ne other subject with rfl | different
  · simp
  · simp [different]

/-- The set names every live token of the subject and no token of another. -/
theorem get_revokeAll {m : Time} (ok : r.Ok ttl now) (order : now ≤ m) (j : TokenId) :
    (revokeAll subject now r).1.get j m = (r.get j m).filter (· ≠ subject) := by
  have passed := milliseconds_mono order
  unfold Redis.get
  rw [lookup_revokeAll]
  cases found : r.tokens.lookup j with
  | none => simp
  | some value =>
    obtain ⟨owner,expiry⟩ := value
    by_cases alive : milliseconds m ≤ expiry
    · rcases eq_or_ne owner subject with rfl | different
      · obtain ⟨members,until',listed,member,bound⟩ := ok.listed j owner expiry found (by omega)
        rw [mem_smembers listed (by omega)]
        simp [member,Option.filter_some,alive]
      · have outside : j ∉ r.smembers subject now := by
          intro member
          obtain ⟨members,until',listed,member⟩ := of_mem_smembers member
          exact different (ok.own subject members until' listed j member owner expiry found)
        simp [outside,Option.filter_some,alive,different]
    · split <;> simp [Option.filter_some,alive]

theorem lookup_left {j : TokenId} {value : Subject × Int}
    (found : (revokeAll subject now r).1.tokens.lookup j = some value) :
    j ∉ r.smembers subject now ∧ r.tokens.lookup j = some value := by
  rw [lookup_revokeAll] at found
  split at found
  next => cases found
  next outside => exact ⟨outside,found⟩

theorem covers_revokeAll (covers : r.Covers other now) : (revokeAll subject now r).1.Covers other now := by
  intro j expiry found alive
  obtain ⟨outside,found⟩ := lookup_left found
  obtain ⟨members,until',listed,member,order⟩ := covers j expiry found alive
  have elsewhere : other ≠ subject := by
    rintro rfl
    exact outside (by rwa [mem_smembers listed (alive.trans order)])
  exact ⟨members,until',by rw [subjects_revokeAll,if_neg elsewhere,listed],member,order⟩

theorem ok_revokeAll (ok : r.Ok ttl now) : (revokeAll subject now r).1.Ok ttl now := by
  refine ⟨?_,?_,fun j owner => covers_revokeAll (ok.covers owner) j,?_⟩
  · exact fun j owner expiry found => ok.bounded j owner expiry (lookup_left found).2
  · intro j found
    obtain ⟨value,found⟩ := Option.isSome_iff_exists.mp found
    exact ok.positive j (by simp [(lookup_left found).2])
  · intro owner members expiry listed j member other until' found
    rw [subjects_revokeAll] at listed
    split at listed
    next => cases listed
    next => exact ok.own owner members expiry listed j member other until' (lookup_left found).2

theorem tokens_of_get (held : r.get id now = some subject) : (r.tokens.lookup id).isSome := by
  obtain ⟨expiry,found,_⟩ := get_eq_some.mp held
  simp [found]

theorem rotate_accepted {new : TokenId} (positive : 0 < ttl) (held : r.get id now = some subject) :
    rotate id new subject ttl now r =
      register new subject ttl now ((r.del id).srem subject id now) := by
  unfold rotate register setEx
  simp only [if_neg (not_le.mpr positive),if_neg (not_not.mpr held),Option.bind_eq_bind,
    Option.bind_some,Option.pure_def,Option.some.injEq]
  congr 2
  unfold srem
  cases found : r.subject? subject now with
  | none =>
    simp only [subject?,del] at *
    simp [found]
  | some value =>
    obtain ⟨members,expiry⟩ := value
    simp only [subject?,del] at *
    simp only [found]
    split <;> simp

def lawful (ttl : Int) : redisRefreshTokenStore.Lawful ttl where
  live m r id := r.get id m
  mentions := mentions
  inv n r := r.Ok ttl n
  empty_inv n := by
    refine ⟨?_,?_,?_,?_⟩ <;> intros <;> simp_all [redisRefreshTokenStore]
  empty_live _ _ := rfl
  empty_mentions id := by
    rintro (seen | ⟨_,_,_,listed,_⟩)
    · cases seen
    · cases listed
  later order ok := ok.later order
  fades := by
    intro n m r id sub order held
    obtain ⟨expiry,found,alive⟩ := get_eq_some.mp held
    exact get_eq_some.mpr ⟨expiry,found,(milliseconds_mono order).trans alive⟩
  mentioned held := .inl (tokens_of_get held)
  register_inv ok fresh done := ok_register ok fresh done
  register_mentions := by
    intro n r r' id sub j done mentioned
    rcases eq_or_ne j id with same | different
    · exact .inr same
    left
    rcases mentioned with seen | ⟨owner,members,expiry,listed,member⟩
    · rw [lookup_register done,if_neg different] at seen
      exact .inl seen
    · rw [subjects_register done] at listed
      split at listed
      next same =>
        obtain ⟨rfl,_⟩ := Prod.mk.inj (Option.some.inj listed)
        have before := (List.mem_insert_iff.mp member).resolve_left different
        exact .inr ⟨_,of_mem_smembers before⟩
      next => exact .inr ⟨owner,members,expiry,listed,member⟩
  register_others := by
    intro n m r r' id sub j _ done different
    unfold Redis.get
    rw [lookup_register done,if_neg different]
  register_own := by
    intro n m r r' id sub x _ done held
    obtain ⟨expiry,found,_⟩ := get_eq_some.mp held
    rw [lookup_register done,if_pos rfl] at found
    exact (Prod.mk.inj (Option.some.inj found)).1.symm
  rotate_refused := by
    intro n r old sub new refused
    simp [redisRefreshTokenStore,rotate,refused]
  rotate_accepted := by
    intro n r old sub new ok held
    have positive := ok.positive old (tokens_of_get held)
    exact ⟨_,_,revoke_eq_some.mpr ⟨held,rfl⟩,register_eq_some.mpr ⟨positive,rfl⟩,
      (rotate_accepted positive held).trans (register_eq_some.mpr ⟨positive,rfl⟩)⟩
  revoke_answer := by
    intro n r id sub
    by_cases held : r.get id n = some sub <;> simp [redisRefreshTokenStore,revoke,held]
  revoke_inv := by
    intro n r r' id sub ok done
    obtain ⟨_,rfl⟩ := revoke_eq_some.mp done
    exact ok_revoke ok
  revoke_mentions := by
    intro n r r' id sub j done mentioned
    obtain ⟨_,rfl⟩ := revoke_eq_some.mp done
    rcases mentioned with seen | ⟨owner,members,expiry,listed,member⟩
    · rw [lookup_del_srem] at seen
      split at seen
      next => cases seen
      next => exact .inl seen
    · exact .inr ⟨owner,member_before listed member⟩
  revoke_live := by
    intro n m r r' id sub j _ done
    obtain ⟨_,rfl⟩ := revoke_eq_some.mp done
    unfold Redis.get
    rw [lookup_del_srem]
    split <;> rfl
  revokeAll_inv _ ok := ok_revokeAll ok
  revokeAll_mentions := by
    intro n r sub j mentioned
    rcases mentioned with seen | ⟨owner,members,expiry,listed,member⟩
    · rw [show (redisRefreshTokenStore.revokeAll sub n r).1.tokens.lookup j = _ from
        lookup_revokeAll j] at seen
      split at seen
      next => cases seen
      next => exact .inl seen
    · rw [show (redisRefreshTokenStore.revokeAll sub n r).1.subjects.lookup owner = _ from
        subjects_revokeAll] at listed
      split at listed
      next => cases listed
      next => exact .inr ⟨owner,members,expiry,listed,member⟩
  revokeAll_live := by
    intro n m r sub j order ok
    exact get_revokeAll ok order j

end RedisRefreshTokenStore
end Dalm
