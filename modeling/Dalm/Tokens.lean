import Dalm.Grants
import Dalm.TokenStore
import Dalm.Users

/-! TokenService over the accounts: the users in the database and the refresh tokens in
their store, each changed by statements of its own. -/
namespace Dalm
open Relational Txn

structure Payload where
  sub : Subject
  jti : TokenId
  type : String
  iat : Int
  exp : Int
deriving DecidableEq

/-- The library that signs tokens, under the service's secret and algorithm. A token has
a payload when its signature verifies and no required claim is missing. -/
structure Jwt (T : Type) where
  encode : Payload → T
  payload : T → Option Payload
  verifies : ∀ p, payload (encode p) = some p

structure Accounts (S : Type) where
  registry : Registry
  tokens : S
  storeClock : Time

/-- Clock readings of the application and of the token store, and fresh identifiers. -/
structure AuthInput where
  now : Time
  storeNow : Time
  userId : UUID
  accessId : UUID
  refreshId : UUID

inductive AuthEvent where
  | user (event : UserEvent)
  | minted (accessId refreshId : TokenId)
  | grant (event : Grants.Event TokenId Subject)
deriving DecidableEq

instance Accounts.lockable (S : Type) : Lockable (Accounts S) Empty where
  Row key := key.elim
  view key := key.elim

instance Accounts.hasUsers (S : Type) : HasUsers (Accounts S) AuthInput AuthEvent where
  registry := Accounts.registry
  withRegistry db registry := {db with registry := registry}
  clock := AuthInput.now
  drawn := AuthInput.userId
  told := .user

abbrev Auth (S α : Type) := Txn (Accounts S) Empty AuthInput AuthEvent Exc α

/-- The clock of the token store never goes back. -/
def Accounts.moment {S : Type} (db : Accounts S) (i : AuthInput) : Time :=
  max db.storeClock i.storeNow

structure TokenClaims where
  subject : Subject
  tokenId : TokenId
  tokenType : String
deriving DecidableEq

structure TokenPair (T : Type) where
  accessToken : T
  refreshToken : T
  expiresIn : Int
deriving DecidableEq

structure AuthSettings where
  accessTokenTtlSeconds : Int
  refreshTokenTtlSeconds : Int
deriving DecidableEq

namespace TokenService

def authenticationFailed : Exc :=
  .api ⟨401,.authenticationFailed,"인증 토큰이 유효하지 않거나 만료되었습니다."⟩

def accessTokenExpired : Exc := .api ⟨401,.accessTokenExpired,"액세스 토큰이 만료되었습니다."⟩

def refreshTokenExpired : Exc :=
  .api ⟨401,.refreshTokenExpired,"리프레시 토큰이 만료되었습니다."⟩

def expired (expectedType : String) : Exc :=
  if expectedType = "access" then accessTokenExpired
  else if expectedType = "refresh" then refreshTokenExpired
  else authenticationFailed

section service
variable {T S : Type} (settings : AuthSettings) (jwt : Jwt T) (store : RefreshTokenStore S)

/-- Times in a token are whole seconds. -/
def payloadOf (subject : Subject) (tokenType : String) (ttlSeconds : Int) (tokenId : TokenId)
    (now : Time) : Payload :=
  ⟨subject,tokenId,tokenType,now / 1000000,(now + seconds ttlSeconds) / 1000000⟩

/-- A token issued later than now is immature, and one whose time is over is expired; an
expired token is decoded again for its type. -/
def decode (token : T) (expectedType : String) : Auth S TokenClaims := do
  let clock ← supply
  match jwt.payload token with
  | none => throw authenticationFailed
  | some payload =>
    if clock.now < seconds payload.iat then
      throw authenticationFailed
    else if seconds payload.exp ≤ clock.now then
      let again ← supply
      if again.now < seconds payload.iat ∨ payload.type ≠ expectedType then
        throw authenticationFailed
      else
        throw (expired expectedType)
    else if payload.type ≠ expectedType then
      throw authenticationFailed
    else
      return ⟨payload.sub,payload.jti,payload.type⟩

/-- The identifiers of a new pair. Nothing is written; the history remembers them. -/
def draw : Auth S (TokenId × TokenId) :=
  .commit (fun i db => some (db,[.minted i.accessId.str i.refreshId.str])) fun i _ =>
    .ret (i.accessId.str,i.refreshId.str)

def newPair (subject : Subject) : Auth S (TokenPair T × TokenId) := do
  let (accessId,refreshId) ← draw
  let first ← supply
  let second ← supply
  return (⟨jwt.encode (payloadOf subject "access" settings.accessTokenTtlSeconds accessId first.now),
    jwt.encode (payloadOf subject "refresh" settings.refreshTokenTtlSeconds refreshId second.now),
    settings.accessTokenTtlSeconds⟩,refreshId)

/-- One operation of the token store. -/
def command (failure : Exc) (event : Grants.Event TokenId Subject) (run : Time → S → Option S) :
    Auth S AuthInput :=
  commitOr failure fun i db => (run (db.moment i) db.tokens).map fun tokens =>
    ({db with tokens := tokens,storeClock := db.moment i},[.grant event])

def issuePair (subject : Subject) : Auth S (TokenPair T) := do
  let (pair,refreshId) ← newPair settings jwt subject
  let _ ← command .responseError (.granted refreshId subject)
    (store.register refreshId subject settings.refreshTokenTtlSeconds)
  return pair

def rotate (refreshToken : T) : Auth S (TokenPair T) := do
  let claims ← decode jwt refreshToken "refresh"
  let (pair,newRefreshId) ← newPair settings jwt claims.subject
  let _ ← command authenticationFailed (.exchanged claims.tokenId newRefreshId claims.subject)
    (store.rotate claims.tokenId newRefreshId claims.subject settings.refreshTokenTtlSeconds)
  return pair

def revoke (refreshToken : T) (expectedSubject : Subject) : Auth S Unit := do
  let claims ← decode jwt refreshToken "refresh"
  if claims.subject ≠ expectedSubject then
    throw authenticationFailed
  else
    let _ ← command authenticationFailed (.spent claims.tokenId claims.subject)
      (store.revoke claims.tokenId claims.subject)
    return ()

/-- How many tokens there were is not read by any caller. -/
def revokeAll (subject : Subject) : Auth S Unit := do
  let _ ← command .responseError (.cleared subject)
    fun now tokens => some (store.revokeAll subject now tokens).1
  return ()

end service
end TokenService
end Dalm
