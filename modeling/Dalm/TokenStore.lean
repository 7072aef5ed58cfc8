import Dalm.Models
import Mathlib.Data.List.AList

/-! The refresh token stores. An operation is atomic and happens at one time of the
store's clock. It is `none` where it answers False, which changes nothing, and where the
store raises an error. -/
namespace Dalm

abbrev TokenId := List Char

abbrev Subject := List Char

/-- The operations both stores have. -/
structure RefreshTokenStore (S : Type) where
  empty : S
  register : TokenId → Subject → Int → Time → S → Option S
  rotate : TokenId → TokenId → Subject → Int → Time → S → Option S
  revoke : TokenId → Subject → Time → S → Option S
  revokeAll : Subject → Time → S → S × Nat

/-- The dictionary of InMemoryRefreshTokenStore. -/
structure Active where
  active : AList fun _ : TokenId => Subject

namespace InMemoryRefreshTokenStore

def register (tokenId : TokenId) (subject : Subject) (_ttlSeconds : Int) (_now : Time) (s : Active) :
    Option Active := some ⟨s.active.insert tokenId subject⟩

def rotate (oldTokenId newTokenId : TokenId) (subject : Subject) (_ttlSeconds : Int) (_now : Time)
    (s : Active) : Option Active :=
  if s.active.lookup oldTokenId ≠ some subject then none
  else some ⟨(s.active.erase oldTokenId).insert newTokenId subject⟩

def revoke (tokenId : TokenId) (subject : Subject) (_now : Time) (s : Active) : Option Active :=
  if s.active.lookup tokenId ≠ some subject then none else some ⟨s.active.erase tokenId⟩

def revokeAll (subject : Subject) (_now : Time) (s : Active) : Active × Nat :=
  let tokenIds := (s.active.entries.filter fun entry => entry.2 = subject).map Sigma.fst
  (⟨tokenIds.foldl (fun active tokenId => active.erase tokenId) s.active⟩,tokenIds.length)

end InMemoryRefreshTokenStore

def inMemoryRefreshTokenStore : RefreshTokenStore Active where
  empty := ⟨∅⟩
  register := InMemoryRefreshTokenStore.register
  rotate := InMemoryRefreshTokenStore.rotate
  revoke := InMemoryRefreshTokenStore.revoke
  revokeAll := InMemoryRefreshTokenStore.revokeAll

/-- The keys of Redis with the times, in milliseconds, after which they are gone: token
keys hold a subject, subject keys a set of token keys. A key that is gone is as if it had
never been set. -/
structure Redis where
  tokens : AList fun _ : TokenId => Subject × Int
  subjects : AList fun _ : Subject => List TokenId × Option Int

namespace Redis

def milliseconds (now : Time) : Int := now / 1000

def get (key : TokenId) (now : Time) (r : Redis) : Option Subject :=
  ((r.tokens.lookup key).filter fun value => milliseconds now ≤ value.2).map Prod.fst

/-- SET ... EX, an error unless the time to live is positive. -/
def setEx (key : TokenId) (value : Subject) (seconds : Int) (now : Time) (r : Redis) :
    Option Redis :=
  if seconds ≤ 0 then none
  else some {r with tokens := r.tokens.insert key (value,milliseconds now + seconds * 1000)}

def del (key : TokenId) (r : Redis) : Redis := {r with tokens := r.tokens.erase key}

def subject? (subject : Subject) (now : Time) (r : Redis) : Option (List TokenId × Option Int) :=
  (r.subjects.lookup subject).filter fun value => value.2.all (milliseconds now ≤ ·)

def smembers (subject : Subject) (now : Time) (r : Redis) : List TokenId :=
  (r.subject? subject now).elim [] Prod.fst

def sadd (subject : Subject) (member : TokenId) (now : Time) (r : Redis) : Redis :=
  match r.subject? subject now with
  | some (members,expiry) =>
    {r with subjects := r.subjects.insert subject (members.insert member,expiry)}
  | none => {r with subjects := r.subjects.insert subject ([member],none)}

/-- A set that loses its last member is gone. -/
def srem (subject : Subject) (member : TokenId) (now : Time) (r : Redis) : Redis :=
  match r.subject? subject now with
  | some (members,expiry) =>
    if members.filter (· ≠ member) = [] then {r with subjects := r.subjects.erase subject}
    else {r with subjects := r.subjects.insert subject (members.filter (· ≠ member),expiry)}
  | none => r

def expire (subject : Subject) (seconds : Int) (now : Time) (r : Redis) : Redis :=
  match r.subject? subject now with
  | some (members,_) =>
    if seconds ≤ 0 then {r with subjects := r.subjects.erase subject}
    else
      let expiry := milliseconds now + seconds * 1000
      {r with subjects := r.subjects.insert subject (members,some expiry)}
  | none => r

def delSubject (subject : Subject) (r : Redis) : Redis :=
  {r with subjects := r.subjects.erase subject}

end Redis

namespace RedisRefreshTokenStore

/-- With a time to live that is not positive SET fails, and the EXPIRE behind it leaves no
set: under such a setting the store stays empty. -/
def register (tokenId : TokenId) (subject : Subject) (ttlSeconds : Int) (now : Time) (r : Redis) :
    Option Redis := do
  let r ← r.setEx tokenId subject ttlSeconds now
  return (r.sadd subject tokenId now).expire subject ttlSeconds now

def rotate (oldTokenId newTokenId : TokenId) (subject : Subject) (ttlSeconds : Int) (now : Time)
    (r : Redis) : Option Redis :=
  if r.get oldTokenId now ≠ some subject then none
  else do
    let r ← (r.del oldTokenId).setEx newTokenId subject ttlSeconds now
    let r := (r.srem subject oldTokenId now).sadd subject newTokenId now
    return r.expire subject ttlSeconds now

def revoke (tokenId : TokenId) (subject : Subject) (now : Time) (r : Redis) : Option Redis :=
  if r.get tokenId now ≠ some subject then none
  else some ((r.del tokenId).srem subject tokenId now)

def revokeAll (subject : Subject) (now : Time) (r : Redis) : Redis × Nat :=
  let keys := r.smembers subject now
  ((keys.foldl (fun r key => r.del key) r).delSubject subject,keys.length)

end RedisRefreshTokenStore

def redisRefreshTokenStore : RefreshTokenStore Redis where
  empty := ⟨∅,∅⟩
  register := RedisRefreshTokenStore.register
  rotate := RedisRefreshTokenStore.rotate
  revoke := RedisRefreshTokenStore.revoke
  revokeAll := RedisRefreshTokenStore.revokeAll

end Dalm
