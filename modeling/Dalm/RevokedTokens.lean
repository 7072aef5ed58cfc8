import Dalm.TokenLaws
import Mathlib.Data.List.Induction

/-! What revoke_all reaches on Redis. It takes the tokens that the set of the subject lists, and
each register and rotate sets anew when that set ends: a shorter time to live than an earlier
token's lets the set end before the token. -/
namespace Dalm

namespace RedisRefreshTokenStore
open Redis

/-- A call of the store. -/
inductive Call where
  | register (tokenId : TokenId) (subject : Subject) (ttlSeconds : Int)
  | rotate (oldTokenId newTokenId : TokenId) (subject : Subject) (ttlSeconds : Int)
  | revoke (tokenId : TokenId) (subject : Subject)
  | revokeAll (subject : Subject)

namespace Call

/-- What is left of Redis; a call that answers False leaves it as it is. -/
def run (now : Time) (r : Redis) : Call → Redis
  | .register tokenId subject ttlSeconds =>
    (RedisRefreshTokenStore.register tokenId subject ttlSeconds now r).getD r
  | .rotate oldTokenId newTokenId subject ttlSeconds =>
    (RedisRefreshTokenStore.rotate oldTokenId newTokenId subject ttlSeconds now r).getD r
  | .revoke tokenId subject => (RedisRefreshTokenStore.revoke tokenId subject now r).getD r
  | .revokeAll subject => (RedisRefreshTokenStore.revokeAll subject now r).1

def Positive : Call → Prop
  | .register _ _ ttlSeconds | .rotate _ _ _ ttlSeconds => 0 < ttlSeconds
  | .revoke _ _ | .revokeAll _ => True

/-- Every other token of the subject that is live ends by then. -/
def EndsBy (subject : Subject) (now : Time) (r : Redis) (others : TokenId → Prop) (ttlSeconds : Int) :
    Prop :=
  ∀ other expiry, others other → r.tokens.lookup other = some (subject,expiry) →
    milliseconds now ≤ expiry → expiry ≤ milliseconds now + ttlSeconds * 1000

/-- A call that puts a token of the subject in its set does not let the set end before another of
its tokens that is live. -/
def Lasts (subject : Subject) (now : Time) (r : Redis) : Call → Prop
  | .register tokenId owner ttlSeconds =>
    owner = subject → EndsBy subject now r (· ≠ tokenId) ttlSeconds
  | .rotate oldTokenId newTokenId owner ttlSeconds => owner = subject →
      r.get oldTokenId now = some subject →
        EndsBy subject now r (fun other => other ≠ oldTokenId ∧ other ≠ newTokenId) ttlSeconds
  | .revoke _ _ | .revokeAll _ => True

end Call

/-- Redis after these calls, each with its time. -/
def after (calls : List (Time × Call)) : Redis :=
  calls.foldl (fun r call => call.2.run call.1 r) redisRefreshTokenStore.empty

/-- A revoke_all at this time misses nothing: from then on every token is refused to the subject. -/
def Clears (subject : Subject) (now : Time) (r : Redis) : Prop :=
  ∀ later, now ≤ later → ∀ tokenId,
    revoke tokenId subject later (revokeAll subject now r).1 = none ∧
      ∀ newTokenId ttlSeconds, 0 < ttlSeconds →
        rotate tokenId newTokenId subject ttlSeconds later (revokeAll subject now r).1 = none

variable {r : Redis} {subject : Subject} {now : Time}

theorem refused_iff {tokenId : TokenId} : revoke tokenId subject now r = none ↔
    r.get tokenId now ≠ some subject := by
  unfold revoke
  split
  next refused => exact iff_of_true rfl refused
  next held => exact iff_of_false (by simp) held

/-- What the set lists and does not outlive goes. -/
theorem clears_of_covers (covers : r.Covers subject now) : Clears subject now r := by
  have gone : ∀ {later}, now ≤ later → ∀ tokenId,
      (revokeAll subject now r).1.get tokenId later ≠ some subject := by
    intro later order tokenId held
    obtain ⟨expiry,found,alive⟩ := get_eq_some.mp held
    obtain ⟨outside,found⟩ := lookup_left found
    have alive := (milliseconds_mono order).trans alive
    obtain ⟨members,until',listed,member,bound⟩ := covers tokenId expiry found alive
    exact outside (by rwa [mem_smembers listed (alive.trans bound)])
  refine fun later order tokenId => ⟨refused_iff.mpr (gone order tokenId),fun newTokenId ttl _ => ?_⟩
  unfold rotate
  rw [if_pos (gone order tokenId)]

/-- A call that lasts keeps the tokens covered. -/
theorem Call.covers {call : Call} (positive : call.Positive) (lasts : call.Lasts subject now r)
    (covers : r.Covers subject now) : (call.run now r).Covers subject now := by
  cases call with
  | register tokenId owner ttl =>
    cases done : RedisRefreshTokenStore.register tokenId owner ttl now r with
    | none => simpa [run,done] using covers
    | some r' =>
      have kept : r'.Covers subject now := covers_register covers (fun same j expiry => lasts same j expiry) done
      simpa [run,done] using kept
  | rotate old new owner ttl =>
    by_cases held : r.get old now = some owner
    · cases done : RedisRefreshTokenStore.register new owner ttl now ((r.del old).srem owner old now) with
      | none => simpa [run,rotate_accepted positive held,done] using covers
      | some r' =>
        have kept : r'.Covers subject now := by
          refine covers_register (covers_revoke covers) ?_ done
          intro same j expiry different found
          obtain ⟨apart,found⟩ := lookup_before found
          exact lasts same (same ▸ held) j expiry ⟨apart,different⟩ found
        simpa [run,rotate_accepted positive held,done] using kept
    · have refused : RedisRefreshTokenStore.rotate old new owner ttl now r = none := if_pos held
      simpa [run,refused] using covers
  | revoke tokenId owner =>
    cases done : RedisRefreshTokenStore.revoke tokenId owner now r with
    | none => simpa [run,done] using covers
    | some r' =>
      obtain ⟨_,rfl⟩ := revoke_eq_some.mp done
      simpa [run,done] using covers_revoke covers
  | revokeAll owner => exact covers_revokeAll covers

theorem le_last {now : Int} {expiry : Int} (alive : now / 1000 ≤ expiry) : now ≤ expiry * 1000 + 999 := by
  omega

/-- A token that outlives the set is missed at its last moment. -/
theorem bound_of_clears {members : List TokenId} {until' expiry : Int} {j : TokenId}
    (clears : ∀ then_, now ≤ then_ → Clears subject then_ r)
    (listed : r.subjects.lookup subject = some (members,some until'))
    (found : r.tokens.lookup j = some (subject,expiry)) (alive : milliseconds now ≤ expiry) :
    expiry ≤ until' := by
  have order : now ≤ expiry * 1000 + 999 := le_last alive
  have last : milliseconds (expiry * 1000 + 999) = expiry := by
    unfold milliseconds
    omega
  by_contra short
  have ended : r.smembers subject (expiry * 1000 + 999) = [] := by
    unfold smembers subject?
    rw [listed,last,Option.filter_some,if_neg (by simpa using short)]
    rfl
  have left : (revokeAll subject (expiry * 1000 + 999) r).1.tokens.lookup j = some (subject,expiry) := by
    rw [lookup_revokeAll,ended,if_neg List.not_mem_nil,found]
  exact refused_iff.mp (clears _ order _ le_rfl j).1 (get_eq_some.mpr ⟨expiry,left,last.le⟩)

theorem Call.lasts {call : Call} (positive : call.Positive)
    (clears : ∀ then_, now ≤ then_ → Clears subject then_ (call.run now r)) :
    call.Lasts subject now r := by
  cases call with
  | register tokenId owner ttl =>
    rintro rfl j expiry different found alive
    obtain ⟨r',done⟩ : ∃ r', RedisRefreshTokenStore.register tokenId owner ttl now r = some r' :=
      ⟨_,register_eq_some.mpr ⟨positive,rfl⟩⟩
    have same : (Call.register tokenId owner ttl).run now r = r' := by simp [run,done]
    rw [same] at clears
    have still : r'.tokens.lookup j = some (owner,expiry) := by
      rw [lookup_register done,if_neg different,found]
    exact bound_of_clears clears (by rw [subjects_register done,if_pos rfl]) still alive
  | rotate old new owner ttl =>
    rintro rfl held j expiry ⟨apart,different⟩ found alive
    obtain ⟨r',done⟩ : ∃ r', RedisRefreshTokenStore.register new owner ttl now
        ((r.del old).srem owner old now) = some r' := ⟨_,register_eq_some.mpr ⟨positive,rfl⟩⟩
    have same : (Call.rotate old new owner ttl).run now r = r' := by
      simp [run,rotate_accepted positive held,done]
    rw [same] at clears
    have still : r'.tokens.lookup j = some (owner,expiry) := by
      rw [lookup_register done,if_neg different,lookup_del_srem,if_neg apart,found]
    exact bound_of_clears clears (by rw [subjects_register done,if_pos rfl]) still alive
  | revoke => trivial
  | revokeAll => trivial

theorem after_snoc (calls : List (Time × Call)) (call : Time × Call) :
    after (calls ++ [call]) = call.2.run call.1 (after calls) := by
  unfold after
  rw [List.foldl_append]
  rfl

/-- Along calls that last the tokens of the subject stay covered. -/
theorem covers_after (calls : List (Time × Call)) (ordered : calls.Pairwise fun a b => a.1 ≤ b.1)
    (positive : ∀ call ∈ calls, call.2.Positive)
    (lasts : ∀ before call rest, calls = before ++ call :: rest →
      call.2.Lasts subject call.1 (after before))
    (late : ∀ call ∈ calls, call.1 ≤ now) : (after calls).Covers subject now := by
  induction calls using List.reverseRecOn generalizing now with
  | nil =>
    intro j expiry found
    cases found
  | append_singleton calls call ih =>
    obtain ⟨before,_,apart⟩ := List.pairwise_append.mp ordered
    have here : (after calls).Covers subject call.1 := by
      refine ih before (fun other member => positive other (List.mem_append_left _ member)) ?_ ?_
      · intro front other rest same
        exact lasts front other (rest ++ [call]) (by simp [same])
      · exact fun other member => apart other member call List.mem_cons_self
    rw [after_snoc]
    have kept := Call.covers (positive call (by simp)) (lasts calls call [] rfl) here
    exact kept.later (late call (by simp))

/-- A revoke_all at any time after any of the calls misses nothing exactly if no call lets the set
of the subject end before another of its tokens that is live. -/
theorem revokeAllReaches (calls : List (Time × Call)) (subject : Subject)
    (ordered : calls.Pairwise fun a b => a.1 ≤ b.1) (positive : ∀ call ∈ calls, call.2.Positive) :
    (∀ before rest now, calls = before ++ rest → (∀ call ∈ before, call.1 ≤ now) →
      Clears subject now (after before)) ↔
        ∀ before call rest, calls = before ++ call :: rest →
          call.2.Lasts subject call.1 (after before) := by
  constructor
  · rintro clears before call rest rfl
    obtain ⟨_,_,apart⟩ := List.pairwise_append.mp ordered
    refine Call.lasts (positive call (by simp)) fun then_ order => ?_
    rw [← after_snoc]
    refine clears (before ++ [call]) rest then_ (by simp) fun other member => ?_
    rcases List.mem_append.mp member with earlier | last
    · exact (apart other earlier call List.mem_cons_self).trans order
    · rw [List.mem_singleton.mp last]
      exact order
  · rintro lasts before rest now rfl late
    have front := (List.pairwise_append.mp ordered).1
    refine clears_of_covers (covers_after before front ?_ ?_ late)
    · exact fun call member => positive call (List.mem_append_left _ member)
    · exact fun front call middle same => lasts front call (middle ++ rest) (by simp [same])

theorem revokeAllReaches_rotated :
    (∀ before rest now,
      [(0,Call.register ['a'] ['s'] 100),(seconds 1,Call.rotate ['a'] ['b'] ['s'] 100)] = before ++ rest →
        (∀ call ∈ before, call.1 ≤ now) → Clears ['s'] now (after before)) ↔
      ∀ before call rest,
        [(0,Call.register ['a'] ['s'] 100),(seconds 1,Call.rotate ['a'] ['b'] ['s'] 100)] =
          before ++ call :: rest → call.2.Lasts ['s'] call.1 (after before) := by
  refine revokeAllReaches _ _ (by decide) fun call member => ?_
  rcases List.mem_pair.mp member with rfl | rfl
  · exact (by decide : (0 : Int) < 100)
  · exact (by decide : (0 : Int) < 100)

/-- The second registration, for a second, lets the set end long before the first token. -/
theorem token_outlives_set : ¬ ∀ (calls : List (Time × Call)) (subject : Subject) (now : Time),
    calls.Pairwise (fun a b => a.1 ≤ b.1) → (∀ call ∈ calls, call.2.Positive) →
      (∀ call ∈ calls, call.1 ≤ now) → Clears subject now (after calls) := by
  intro cleared
  have claim := cleared [(0,.register ['a'] ['s'] 100),(0,.register ['b'] ['s'] 1)] ['s'] (seconds 2)
    (by decide) ?_ (by decide)
  · have kept : (revoke ['a'] ['s'] (seconds 2) (revokeAll ['s'] (seconds 2)
        (after [(0,.register ['a'] ['s'] 100),(0,.register ['b'] ['s'] 1)])).1).isSome = true := by decide
    rw [(claim _ le_rfl ['a']).1] at kept
    cases kept
  · intro call member
    rcases List.mem_pair.mp member with rfl | rfl
    · exact (by decide : (0 : Int) < 100)
    · exact (by decide : (0 : Int) < 1)

end RedisRefreshTokenStore
end Dalm
