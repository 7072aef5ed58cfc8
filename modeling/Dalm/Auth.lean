import Dalm.Relational.System
import Dalm.Tokens
import Dalm.Uuid

/-! AuthService, the endpoints of accounts, and the requests clients make. -/
namespace Dalm
open Relational Txn

structure AuthUser where
  id : UUID
  nickname : Option String
  status : UserStatus
deriving DecidableEq

structure AuthData (T : Type) where
  isNewUser : Bool
  onboardingRequired : Bool
  tokens : TokenPair T
  user : AuthUser
deriving DecidableEq

section service
variable {T S : Type} (settings : AuthSettings) (jwt : Jwt T) (store : RefreshTokenStore S)

namespace AuthService

def accountRestricted : Exc := .api ⟨403,.accountRestricted,"이용이 제한된 계정입니다."⟩

def accountWithdrawn : Exc := .api ⟨403,.accountWithdrawn,"탈퇴한 계정입니다."⟩

def completeLogin (user : User) (isNewUser : Bool) : Auth S (AuthData T) := do
  if user.status = .restricted then
    throw accountRestricted
  else if user.status = .withdrawn then
    throw accountWithdrawn
  else
    let tokenPair ← TokenService.issuePair settings jwt store user.id.str
    return ⟨isNewUser,user.onboardingRequired,tokenPair,⟨user.id,user.nickname,user.status⟩⟩

def login (found : Auth S (Option User)) (create : Auth S User) : Auth S (AuthData T) := do
  match ← found with
  | none => completeLogin settings jwt store (← create) true
  | some user => completeLogin settings jwt store user false

/-- The provider has answered with the user's identifier. -/
def loginWithKakao (kakaoId : String) : Auth S (AuthData T) :=
  login settings jwt store (UserRepository.getByKakaoId kakaoId)
    (UserRepository.createFromKakao kakaoId)

def loginWithApple (appleId : String) : Auth S (AuthData T) :=
  login settings jwt store (UserRepository.getByAppleId appleId)
    (UserRepository.createFromApple appleId)

end AuthService

def authenticationRequired : Exc := .api ⟨401,.authenticationRequired,"인증이 필요합니다."⟩

def invalidAccessToken : Exc := .api ⟨401,.invalidAccessToken,"유효하지 않은 인증 정보입니다."⟩

def requireAccessToken (credentials : Option T) : Auth S TokenClaims :=
  match credentials with
  | none => throw authenticationRequired
  | some token => TokenService.decode jwt token "access"

def authenticatedUserId (claims : TokenClaims) : Auth S UUID :=
  match UUID.parse claims.subject with
  | none => throw invalidAccessToken
  | some userId => return userId

def logout (credentials : Option T) (refreshToken : T) : Auth S Unit := do
  let claims ← requireAccessToken jwt credentials
  TokenService.revoke jwt store refreshToken claims.subject

def completeOnboarding (credentials : Option T) (form : Onboarding) : Auth S User := do
  let claims ← requireAccessToken jwt credentials
  UserRepository.completeOnboarding (← authenticatedUserId claims) form

def updateMyProfile (credentials : Option T) (change : ProfileEdit) : Auth S User := do
  let claims ← requireAccessToken jwt credentials
  UserRepository.updateProfile (← authenticatedUserId claims) change

def withdrawMyAccount (credentials : Option T) : Auth S Unit := do
  let claims ← requireAccessToken jwt credentials
  UserRepository.withdraw (← authenticatedUserId claims)
  TokenService.revokeAll store claims.subject

/-- The calls of the token service as such, and the endpoints. -/
inductive AuthRequest (T : Type) where
  | issuePair (subject : Subject)
  | rotate (refreshToken : T)
  | revoke (refreshToken : T) (expectedSubject : Subject)
  | revokeAll (subject : Subject)
  | loginWithKakao (kakaoId : String)
  | loginWithApple (appleId : String)
  | refresh (refreshToken : T)
  | logout (credentials : Option T) (refreshToken : T)
  | completeOnboarding (credentials : Option T) (form : Onboarding)
  | updateMyProfile (credentials : Option T) (change : ProfileEdit)
  | withdrawMyAccount (credentials : Option T)

inductive AuthResponse (T : Type) where
  | pair (pair : TokenPair T)
  | data (data : AuthData T)
  | user (user : User)
  | done

def authProgram : AuthRequest T → Auth S (AuthResponse T)
  | .issuePair subject => do
    return .pair (← TokenService.issuePair settings jwt store subject)
  | .rotate refreshToken => do
    return .pair (← TokenService.rotate settings jwt store refreshToken)
  | .revoke refreshToken expectedSubject => do
    TokenService.revoke jwt store refreshToken expectedSubject
    return .done
  | .revokeAll subject => do
    TokenService.revokeAll store subject
    return .done
  | .loginWithKakao kakaoId => do
    return .data (← AuthService.loginWithKakao settings jwt store kakaoId)
  | .loginWithApple appleId => do
    return .data (← AuthService.loginWithApple settings jwt store appleId)
  | .refresh refreshToken => do
    return .pair (← TokenService.rotate settings jwt store refreshToken)
  | .logout credentials refreshToken => do
    Dalm.logout jwt store credentials refreshToken
    return .done
  | .completeOnboarding credentials form => do
    return .user (← Dalm.completeOnboarding jwt credentials form)
  | .updateMyProfile credentials change => do
    return .user (← Dalm.updateMyProfile jwt credentials change)
  | .withdrawMyAccount credentials => do
    Dalm.withdrawMyAccount jwt store credentials
    return .done

end service

abbrev AuthSystem (T S : Type) :=
  System (Accounts S) Empty AuthInput AuthEvent Exc (AuthRequest T) (AuthResponse T)

abbrev AuthWorld (S : Type) := World (Accounts S) AuthEvent

/-- No user, no token, nobody at work. -/
def opening {T S : Type} (store : RefreshTokenStore S) (clock : Time) : AuthSystem T S :=
  System.initial ⟨⟨.empty,.empty⟩,store.empty,clock⟩

end Dalm
