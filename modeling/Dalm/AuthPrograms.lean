import Dalm.AuthChanges
import Dalm.Relational.Soundness

/-! Every program of the accounts makes changes only, and what a call that returned has
left in the history. -/
namespace Dalm
open Relational Held Txn
variable {T S α : Type} {jwt : Jwt T} {settings : AuthSettings} {store : RefreshTokenStore S}
  {laws : store.Lawful settings.refreshTokenTtlSeconds} {D : Discipline (Accounts S) AuthInput AuthEvent}
  {r : AuthRequest T} {t : Nat} {w : AuthWorld S}
  {Q : Except Exc α → Held (Accounts S) Empty → AuthWorld S → Prop}

/-- The environment draws identifiers nobody has drawn before. -/
def Draws (D : Discipline (Accounts S) AuthInput AuthEvent) : Prop :=
  ∀ w i, D.input w i → Unminted i.accessId.str i.refreshId.str w.log

theorem AuthChange.step {held : List Empty} {db : Accounts S} {events : List AuthEvent}
    (change : AuthChange jwt settings store r t w db events) :
    (authProtocol jwt settings store laws).step r t held w ((World.mk db w.log).record t events) :=
  ⟨db,events,change,rfl⟩

theorem permits : UserRepository.Permits (authProtocol jwt settings store laws) r t :=
  fun _ _ _ _ written => AuthChange.step (.user written)

/-- An event that is no operation of the token store. -/
def AuthEvent.apart (event : AuthEvent) : Prop := event.grant? = none

theorem Unspent.later {w' : AuthWorld S} (unspent : Unspent t w.log)
    (appends : Appends t AuthEvent.apart w w') : Unspent t w'.log := by
  obtain ⟨more,same,each⟩ := appends
  intro entry member own
  rw [same,List.mem_append] at member
  rcases member with member | member
  · exact unspent entry member own
  · exact each entry member own

theorem mem_later {w' : AuthWorld S} {entry : Nat × AuthEvent} (member : entry ∈ w.log)
    (later : Later (authProtocol jwt settings store laws) D t [] w w') : entry ∈ w'.log := by
  obtain ⟨more,same,_⟩ := later.appends (S := fun _ => False)
  rw [same]
  exact List.mem_append_left _ member

theorem mem_own {db : Accounts S} {event : AuthEvent} :
    (t,event) ∈ ((World.mk db w.log).record t [event]).log := by simp

namespace TokenService

theorem wp_decode {token : T} {expectedType : String} {k : TokenClaims → Auth S α}
    (failed : ∀ error w', Q (.error error) [] w')
    (rest : ∀ payload w', Later (authProtocol jwt settings store laws) D t [] w w' →
      jwt.payload token = some payload → wp (authProtocol jwt settings store laws) D r t
        (k ⟨payload.sub,payload.jti,payload.type⟩) Q [] w') :
    wp (authProtocol jwt settings store laws) D r t (decode jwt token expectedType >>= k) Q [] w := by
  apply wp_bind
  unfold decode
  apply wp_supply
  intro clock w₁ later₁ _
  split
  · exact failed _ _
  next payload found =>
    split
    · exact failed _ _
    · split
      · apply wp_supply
        intro again w₂ _ _
        split <;> exact failed _ _
      · split
        · exact failed _ _
        · exact rest payload w₁ later₁ found

theorem wp_newPair {subject : Subject} {k : TokenPair T × TokenId → Auth S α} (draws : Draws D)
    (rest : ∀ pair a id w', (authProtocol jwt settings store laws).inv w' →
      Appends t AuthEvent.apart w w' → (t,.minted a id) ∈ w'.log →
        wp (authProtocol jwt settings store laws) D r t (k (pair,id)) Q [] w') :
    wp (authProtocol jwt settings store laws) D r t (newPair settings jwt subject >>= k) Q [] w := by
  apply wp_bind
  intro i w₁ later₁ input _
  have change : AuthChange jwt settings store r t w₁ w₁.db [.minted i.accessId.str i.refreshId.str] :=
    .minted (draws w₁ i input)
  refine ⟨change.step,?_⟩
  apply wp_supply
  intro first w₂ later₂ _
  apply wp_supply
  intro second w₃ later₃ _
  have until₁ : Appends t AuthEvent.apart w₁ (w₁.record t [.minted i.accessId.str i.refreshId.str]) :=
    .own (by simp [AuthEvent.apart,AuthEvent.grant?])
  have later := later₂.trans later₃
  exact rest _ i.accessId.str i.refreshId.str w₃ later.inv
    ((later₁.appends.trans until₁).trans later.appends) (mem_later mem_own later)

theorem wp_command {failure : Exc} {event : Grants.Event TokenId Subject}
    {run : Time → S → Option S} {k : AuthInput → Auth S α}
    (failed : ∀ error w', Q (.error error) [] w')
    (rest : ∀ i w' now tokens, Later (authProtocol jwt settings store laws) D t [] w w' →
      w'.db.storeClock ≤ now → run now w'.db.tokens = some tokens →
        AuthChange jwt settings store r t w' {w'.db with tokens := tokens,storeClock := now}
          [.grant event] ∧
        wp (authProtocol jwt settings store laws) D r t (k i) Q []
          ((World.mk {w'.db with tokens := tokens,storeClock := now} w'.log).record t
            [.grant event])) :
    wp (authProtocol jwt settings store laws) D r t (command failure event run >>= k) Q [] w := by
  apply wp_commit
  · exact fun _ _ _ _ _ => failed _ _
  · intro i w' db events later _ made _
    obtain ⟨tokens,ran,same⟩ := Option.map_eq_some_iff.mp made
    cases same
    obtain ⟨change,after⟩ := rest i w' (w'.db.moment i) tokens later (le_max_left _ _) ran
    exact ⟨change.step,after⟩

theorem wp_issuePair {subject : Subject}
    {Q : Except Exc (TokenPair T) → Held (Accounts S) Empty → AuthWorld S → Prop} (draws : Draws D)
    (asked : r.MayConcern jwt subject) (unspent : Unspent t w.log) (always : ∀ x w', Q x [] w') :
    wp (authProtocol jwt settings store laws) D r t (issuePair settings jwt store subject) Q [] w := by
  unfold issuePair
  apply wp_newPair draws
  intro pair a id w₁ _ appends drawn
  apply wp_command fun _ _ => always _ _
  intro i w₂ now tokens later₂ moment done
  have unspent₂ := unspent.later (appends.trans later₂.appends)
  exact ⟨.granted asked (mem_later drawn later₂) unspent₂ moment done,always _ _⟩

theorem wp_rotate {token : T}
    {Q : Except Exc (TokenPair T) → Held (Accounts S) Empty → AuthWorld S → Prop} (draws : Draws D)
    (asked : ∀ p, jwt.payload token = some p → r.MayConcern jwt p.sub) (unspent : Unspent t w.log)
    (failed : ∀ error w', Q (.error error) [] w')
    (done : ∀ pair p new w', jwt.payload token = some p →
      (t,.grant (.exchanged p.jti new p.sub)) ∈ w'.log → Q (.ok pair) [] w') :
    wp (authProtocol jwt settings store laws) D r t (rotate settings jwt store token) Q [] w := by
  unfold rotate
  refine wp_decode (fun _ _ => failed _ _) ?_
  intro payload w₁ later₁ found
  apply wp_newPair draws
  intro pair a id w₂ _ appends drawn
  refine wp_command (fun _ _ => failed _ _) ?_
  intro i w₃ now tokens later₃ moment ran
  have unspent₃ := unspent.later ((later₁.appends.trans appends).trans later₃.appends)
  exact ⟨.exchanged (asked payload found) (mem_later drawn later₃) unspent₃ moment ran,
    done _ payload id _ found mem_own⟩

theorem wp_revoke {token : T} {expectedSubject : Subject}
    {Q : Except Exc Unit → Held (Accounts S) Empty → AuthWorld S → Prop}
    (asked : ∀ p, jwt.payload token = some p → r.MayConcern jwt p.sub)
    (failed : ∀ error w', Q (.error error) [] w')
    (done : ∀ p w', jwt.payload token = some p → (t,.grant (.spent p.jti p.sub)) ∈ w'.log →
      Q (.ok ()) [] w') :
    wp (authProtocol jwt settings store laws) D r t
      (revoke jwt store token expectedSubject) Q [] w := by
  unfold revoke
  refine wp_decode (fun _ _ => failed _ _) ?_
  intro payload w₁ later₁ found
  split
  · exact failed _ _
  · apply wp_command failed
    intro i w₂ now tokens _ moment ran
    exact ⟨.spent (asked payload found) moment ran,done payload _ found mem_own⟩

theorem wp_revokeAll {subject : Subject}
    {Q : Except Exc Unit → Held (Accounts S) Empty → AuthWorld S → Prop}
    (asked : r.MayConcern jwt subject) (failed : ∀ error w', Q (.error error) [] w')
    (done : ∀ w' w'', Later (authProtocol jwt settings store laws) D t [] w w' →
      w''.log = w'.log ++ [(t,.grant (.cleared subject))] → Q (.ok ()) [] w'') :
    wp (authProtocol jwt settings store laws) D r t (revokeAll store subject) Q [] w := by
  unfold revokeAll
  refine wp_command (fun _ _ => failed _ _) ?_
  intro i w₁ now tokens later moment ran
  cases Option.some.inj ran
  exact ⟨.cleared asked moment,done w₁ _ later rfl⟩

end TokenService
theorem wp_requireAccessToken {credentials : Option T} {k : TokenClaims → Auth S α}
    (failed : ∀ error w', Q (.error error) [] w')
    (rest : ∀ token payload w', credentials = some token → jwt.payload token = some payload →
      Later (authProtocol jwt settings store laws) D t [] w w' →
        wp (authProtocol jwt settings store laws) D r t
          (k ⟨payload.sub,payload.jti,payload.type⟩) Q [] w') :
    wp (authProtocol jwt settings store laws) D r t
      (requireAccessToken jwt credentials >>= k) Q [] w := by
  unfold requireAccessToken
  split
  · exact failed _ _
  next token =>
    refine TokenService.wp_decode (fun _ _ => failed _ _) ?_
    exact fun payload w' later found => rest token payload w' rfl found later

theorem wp_authenticatedUserId {claims : TokenClaims} {k : UUID → Auth S α}
    (failed : ∀ error w', Q (.error error) [] w')
    (rest : ∀ userId, UUID.parse claims.subject = some userId →
      wp (authProtocol jwt settings store laws) D r t (k userId) Q [] w) :
    wp (authProtocol jwt settings store laws) D r t (authenticatedUserId claims >>= k) Q [] w := by
  unfold authenticatedUserId
  split
  · exact failed _ _
  next userId found => exact rest userId found

theorem wp_completeLogin {user : User} {isNewUser : Bool}
    {Q : Except Exc (AuthData T) → Held (Accounts S) Empty → AuthWorld S → Prop}
    (draws : Draws D) (asked : ∀ subject, r.MayConcern jwt subject) (unspent : Unspent t w.log)
    (always : ∀ x w', Q x [] w') :
    wp (authProtocol jwt settings store laws) D r t
      (AuthService.completeLogin settings jwt store user isNewUser) Q [] w := by
  unfold AuthService.completeLogin
  split
  · exact always _ _
  · split
    · exact always _ _
    · apply wp_bind
      refine TokenService.wp_issuePair draws (asked _) unspent fun x w' => ?_
      cases x <;> exact always _ w'

theorem wp_login {identity : Identity}
    {Q : Except Exc (AuthData T) → Held (Accounts S) Empty → AuthWorld S → Prop}
    (draws : Draws D) (asked : ∀ subject, r.MayConcern jwt subject) (unspent : Unspent t w.log)
    (always : ∀ x w', Q x [] w') :
    wp (authProtocol jwt settings store laws) D r t
      (AuthService.login settings jwt store (UserRepository.getBy identity)
        (UserRepository.createFrom identity)) Q [] w := by
  unfold AuthService.login
  apply UserRepository.wp_getBy
  intro found w₁ later₁
  have unspent₁ := unspent.later later₁.appends
  split
  · refine UserRepository.wp_createFrom (S := AuthEvent.apart) permits (fun _ => rfl)
      (fun _ _ => always _ _) ?_
    exact fun user w₂ _ appends => wp_completeLogin draws asked (unspent₁.later appends) always
  · exact wp_completeLogin draws asked unspent₁ always

/-- What a call that returned has left in the history. -/
def AuthOutcome (jwt : Jwt T) :
    AuthRequest T → Nat → Except Exc (AuthResponse T) → AuthWorld S → Prop
  | .rotate token,t,.ok _,w => ∃ p new, jwt.payload token = some p ∧
      (t,.grant (.exchanged p.jti new p.sub)) ∈ w.log
  | .refresh token,t,.ok _,w => ∃ p new, jwt.payload token = some p ∧
      (t,.grant (.exchanged p.jti new p.sub)) ∈ w.log
  | .revoke token _,t,.ok _,w => ∃ p, jwt.payload token = some p ∧
      (t,.grant (.spent p.jti p.sub)) ∈ w.log
  | .logout _ token,t,.ok _,w => ∃ p, jwt.payload token = some p ∧
      (t,.grant (.spent p.jti p.sub)) ∈ w.log
  | .withdrawMyAccount credentials,t,.ok _,w => ∃ token p user before, credentials = some token ∧
      jwt.payload token = some p ∧ UUID.parse p.sub = some user.id ∧
      (t,.user (.withdrawn user)) ∈ before ∧ before ++ [(t,.grant (.cleared p.sub))] <+: w.log
  | _,_,_,_ => True

theorem AuthOutcome.later {x : Except Exc (AuthResponse T)} {w' : AuthWorld S}
    (outcome : AuthOutcome jwt r t x w)
    (later : Later (authProtocol jwt settings store laws) D t [] w w') :
    AuthOutcome jwt r t x w' := by
  cases x with
  | error error => cases r <;> trivial
  | ok response =>
    cases r with
    | rotate token =>
      obtain ⟨p,new,found,member⟩ := outcome
      exact ⟨p,new,found,mem_later member later⟩
    | refresh token =>
      obtain ⟨p,new,found,member⟩ := outcome
      exact ⟨p,new,found,mem_later member later⟩
    | revoke token expected =>
      obtain ⟨p,found,member⟩ := outcome
      exact ⟨p,found,mem_later member later⟩
    | logout credentials token =>
      obtain ⟨p,found,member⟩ := outcome
      exact ⟨p,found,mem_later member later⟩
    | withdrawMyAccount credentials =>
      obtain ⟨token,p,user,before,given,found,parsed,member,start⟩ := outcome
      obtain ⟨more,same,_⟩ := later.appends (S := fun _ => False)
      exact ⟨token,p,user,before,given,found,parsed,member,
        start.trans (by rw [same]; exact List.prefix_append _ _)⟩
    | _ => trivial

theorem authMeets (laws : store.Lawful settings.refreshTokenTtlSeconds) (draws : Draws D) :
    Meets (authProtocol jwt settings store laws) D (AuthOutcome jwt)
      (authProgram settings jwt store) := by
  intro r t w inv silent
  have unspent : Unspent t w.log := fun entry member own => absurd own (silent entry member)
  have stated : ∀ {subject : Subject} {r : AuthRequest T}, r.subject? jwt = some subject →
      r.MayConcern jwt subject := by
    intro subject r names other same
    exact Option.some.inj (same.symm.trans names)
  have ofToken : ∀ {token : T} {r : AuthRequest T}, r.subject? jwt = (jwt.payload token).map Payload.sub →
      ∀ p, jwt.payload token = some p → r.MayConcern jwt p.sub :=
    fun names p found => stated (by rw [names,found]; rfl)
  cases r with
  | issuePair subject =>
    apply wp_bind
    exact TokenService.wp_issuePair draws (stated rfl) unspent fun x _ => by cases x <;> trivial
  | rotate token =>
    apply wp_bind
    refine TokenService.wp_rotate draws (ofToken rfl) unspent (fun _ _ => trivial) ?_
    exact fun pair p new w' found member => ⟨p,new,found,member⟩
  | refresh token =>
    apply wp_bind
    refine TokenService.wp_rotate draws (ofToken rfl) unspent (fun _ _ => trivial) ?_
    exact fun pair p new w' found member => ⟨p,new,found,member⟩
  | revoke token expected =>
    apply wp_bind
    refine TokenService.wp_revoke (ofToken rfl) (fun _ _ => trivial) ?_
    exact fun p w' found member => ⟨p,found,member⟩
  | revokeAll subject =>
    apply wp_bind
    exact TokenService.wp_revokeAll (stated rfl) (fun _ _ => trivial) fun _ _ _ _ => trivial
  | loginWithKakao kakaoId =>
    apply wp_bind
    refine wp_login draws ?_ unspent fun x _ => by cases x <;> trivial
    exact fun subject other same => by cases same
  | loginWithApple appleId =>
    apply wp_bind
    refine wp_login draws ?_ unspent fun x _ => by cases x <;> trivial
    exact fun subject other same => by cases same
  | logout credentials token =>
    apply wp_bind
    unfold Dalm.logout
    refine wp_requireAccessToken (fun _ _ => trivial) ?_
    intro access claims w₁ _ _ _
    refine TokenService.wp_revoke (ofToken rfl) (fun _ _ => trivial) ?_
    exact fun p w' found member => ⟨p,found,member⟩
  | completeOnboarding credentials form =>
    apply wp_bind
    unfold Dalm.completeOnboarding
    refine wp_requireAccessToken (fun _ _ => trivial) ?_
    intro token payload w₁ _ _ _
    refine wp_authenticatedUserId (fun _ _ => trivial) ?_
    intro userId _
    exact UserRepository.wp_completeOnboarding (S := AuthEvent.apart) permits (fun _ => rfl)
      (fun _ _ => trivial) fun _ _ _ _ => trivial
  | updateMyProfile credentials change =>
    apply wp_bind
    unfold Dalm.updateMyProfile
    refine wp_requireAccessToken (fun _ _ => trivial) ?_
    intro token payload w₁ _ _ _
    refine wp_authenticatedUserId (fun _ _ => trivial) ?_
    intro userId _
    exact UserRepository.wp_updateProfile (S := AuthEvent.apart) permits (fun _ => rfl)
      (fun _ _ => trivial) fun _ _ _ _ => trivial
  | withdrawMyAccount credentials =>
    apply wp_bind
    unfold Dalm.withdrawMyAccount
    refine wp_requireAccessToken (fun _ _ => trivial) ?_
    intro token payload w₁ given found later₁
    refine wp_authenticatedUserId (fun _ _ => trivial) ?_
    intro userId parsed
    refine UserRepository.wp_withdraw permits (fun _ _ => trivial) ?_
    intro user w₂ after later₂ same
    refine TokenService.wp_revokeAll (stated (by simp [AuthRequest.subject?,given,found]))
      (fun _ _ => trivial) ?_
    intro w₃ w₄ later₃ written
    exact ⟨token,payload,user,w₃.log,given,found,same ▸ parsed,mem_later mem_own later₃,
      written ▸ List.prefix_rfl⟩

end Dalm
