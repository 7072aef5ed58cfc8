import Dalm.Codec.Json
import Dalm.Models
import Dalm.Relational.Transaction

/-! AppleClient: identity tokens are checked with keys that are fetched when one is missing. The coroutines
that share a client share its keys; a refresh holds their lock from before the request until they are set. -/
namespace Dalm
open Relational Txn Codec

/-- The exceptions the client tells apart. -/
inductive Raised where
  | jwtError
  | keyError
  | typeError
  | valueError
  | requestError
  | statusError
  | other
deriving DecidableEq

/-- Those a check of a token catches. -/
def Raised.ofToken : Raised → Bool
  | .jwtError | .keyError | .typeError => true
  | _ => false

/-- Those a refresh catches. -/
def Raised.ofFetch : Raised → Bool
  | .other => false
  | _ => true

inductive AppleError where
  | api (status : Nat) (code message : String)
  | raised (exception : Raised)
deriving DecidableEq

namespace AppleClient

def notConfigured : AppleError := .api 503 "APPLE_LOGIN_NOT_CONFIGURED" "Apple 로그인이 설정되지 않았습니다."

def unavailable : AppleError := .api 502 "APPLE_API_UNAVAILABLE" "Apple 인증 서버에 연결할 수 없습니다."

def authenticationFailed : AppleError := .api 401 "AUTHENTICATION_FAILED" "Apple 인증에 실패했습니다."

end AppleClient

structure HttpResponse where
  status : Nat
  body : Except Raised Json

/-- What the client is configured with, and what PyJWT makes of tokens and keys. -/
structure AppleConfig (Key : Type) where
  issuer : String
  clientIds : List String
  getUnverifiedHeader : String → Except Raised (List (String × Json))
  fromDict : List (String × Json) → Except Raised Key
  decode : String → Key → List String → String → Time → Except Raised (List (String × Json))

/-- The keys by their ids; of two entries with one id the first counts. -/
structure AppleKeys (Key : Type) where
  entries : List (String × Key)

def AppleKeys.get {Key : Type} (keys : AppleKeys Key) (keyId : String) : Option Key := keys.entries.lookup keyId

inductive AppleEvent (Key : Type) where
  | lookedUp (keyId : String)
  | requested
  | served (keys : AppleKeys Key)

/-- The clock, and what a GET of the key set comes to. -/
structure AppleInput where
  now : Time
  fetched : Except Raised HttpResponse

/-- The lock of the keys. -/
instance AppleKeys.lockable (Key : Type) : Lockable (AppleKeys Key) Unit where
  Row _ := AppleKeys Key
  view _ keys := some keys

abbrev Apple (Key α : Type) := Txn (AppleKeys Key) Unit AppleInput (AppleEvent Key) AppleError α

namespace AppleClient

/-- `mapping[name]` of a dict. -/
def item (members : List (String × Json)) (name : String) : Except Raised Json :=
  match members.lookup name with
  | some json => .ok json
  | none => .error .keyError

/-- `json[name]` of any JSON value. -/
def subscript (name : String) : Json → Except Raised Json
  | .object members => item members name
  | _ => .error .typeError

/-- The dicts with a string `kid` among what iterating over a JSON value yields; neither the keys of a dict nor
the characters of a string are any. -/
def rawKeys : Json → Except Raised (List (String × List (String × Json)))
  | .array items => .ok (items.filterMap fun
    | .object members => ((members.lookup "kid").bind Json.asString).map fun keyId => (keyId,members)
    | _ => none)
  | .object _ | .string _ => .ok []
  | _ => .error .typeError

section client
variable {Key : Type} (config : AppleConfig Key)

/-- The keys a GET comes to. In a dict the last of two equal keys wins, so it comes first here. -/
def servedKeys (fetched : Except Raised HttpResponse) : Except Raised (AppleKeys Key) := do
  let response ← fetched
  if response.status < 200 ∨ 300 ≤ response.status then throw .statusError
  let body ← response.body
  let raw ← rawKeys (← subscript "keys" body)
  let keys ← raw.mapM fun (keyId,members) => return (keyId,← config.fromDict members)
  if keys = [] then throw .valueError
  return ⟨keys.reverse⟩

def refreshKeys : Apple Key Unit := do
  let _ ← selectForUpdate ()
  observe (fun _ => .requested) fun _ => ()
  let i ← supply
  match servedKeys config i.fetched with
  | .error exception => throw (if exception.ofFetch then unavailable else .raised exception)
  | .ok keys =>
    let _ ← commitOr unavailable fun _ _ => some (keys,[.served keys])

def lookUp (keyId : String) : Apple Key (Option Key) :=
  observe (fun _ => .lookedUp keyId) fun keys => keys.get keyId

/-- The id of the key that signed the token, of a header this client takes. -/
def signingKey (token : String) : Except Raised (Option String) := do
  let header ← config.getUnverifiedHeader token
  let keyId ← item header "kid"
  let algorithm ← item header "alg"
  return if algorithm.asString = some "RS256" then keyId.asString else none

/-- The user the claims of a token name. -/
def subject (token : String) (key : Key) (now : Time) : Except Raised String := do
  let claims ← config.decode token key config.clientIds config.issuer now
  let sub ← item claims "sub"
  match sub.asString with
  | some appleId => if appleId = "" then throw .jwtError else return appleId
  | none => throw .jwtError

/-- What an exception of a check is raised as. -/
def rejected (exception : Raised) : AppleError :=
  if exception.ofToken then authenticationFailed else .raised exception

/-- The key of this id, from the keys there are or else from those Apple has now. -/
def findKey (keyId : String) : Apple Key (Option Key) := do
  match ← lookUp keyId with
  | some key => return some key
  | none =>
    refreshKeys config
    lookUp keyId

def verifyIdentityToken (token : String) : Apple Key String :=
  if config.clientIds = [] then throw notConfigured
  else match signingKey config token with
    | .error exception => throw (rejected exception)
    | .ok none => throw authenticationFailed
    | .ok (some keyId) => do
      match ← findKey config keyId with
      | none => throw authenticationFailed
      | some key =>
        let i ← supply
        match subject config token key i.now with
        | .error exception => throw (rejected exception)
        | .ok appleId => return appleId

end client
end AppleClient
end Dalm
