import Dalm.UniqueUsers
import Dalm.WithdrawnSessions

/-! NICKNAME_CONFLICT: one COMMIT writes the user and, on onboarding, his terms, and whichever of the two
is refused, the call fails with it. -/
namespace Dalm
open Relational Txn
variable {T S : Type}

/-- An onboarding is at its COMMIT, and its user has terms. -/
def OnboardsAgain (jwt : Jwt T) (s : AuthSystem T S) (action : Action AuthInput Exc (AuthRequest T)) : Prop :=
  ∃ t i credentials form writes next userId, action = .exec t i ∧
    s.session t = some ⟨.completeOnboarding credentials form,.inl (.commit writes next)⟩ ∧
    bearer jwt credentials = some userId ∧ ∃ row ∈ s.db.registry.terms.rows, row.userId = userId

/-- Sessions die with errors of the database or of the connection. -/
def Faithful (_ : AuthSystem T S) (action : Action AuthInput Exc (AuthRequest T)) (_ : AuthSystem T S) : Prop :=
  ∀ t, action ≠ .die t UserRepository.nicknameConflict

def OnboardsOnce (jwt : Jwt T) (s : AuthSystem T S) (action : Action AuthInput Exc (AuthRequest T))
    (u : AuthSystem T S) : Prop := Faithful s action u ∧ ¬ OnboardsAgain jwt s action

def UserEvent.onboards? (user : UUID) : UserEvent → Option Onboarding
  | .onboarded loaded form => if loaded.id = user then some form else none
  | _ => none

/-- Which sessions onboarded the user, and with what. -/
def onboardings (user : UUID) (log : List (Nat × AuthEvent)) : List (Nat × Onboarding) :=
  (userEvents log).filterMap fun entry => (entry.2.onboards? user).map fun form => (entry.1,form)

/-- The terms of the user are those of at most one onboarding. -/
structure TermsOfOne (registry : Registry) (log : List (Nat × AuthEvent)) (user : UUID) : Prop where
  once : (onboardings user log).length ≤ 1
  written : registry.terms.rows.filter (fun row => row.userId = user) =
    (onboardings user log).flatMap fun entry => UserRepository.terms user entry.2

section runs
variable (settings : AuthSettings) (jwt : Jwt T) (store : RefreshTokenStore S) (clock : Time)

/-- On the way to `s` a COMMIT of the call was refused, when a different user had the nickname. -/
def RefusedForNickname (R : AuthSystem T S → Action AuthInput Exc (AuthRequest T) → AuthSystem T S → Prop)
    (s : AuthSystem T S) (t : Nat) (r : AuthRequest T) : Prop :=
  ∃ a i b writes next userId nickname, Runs (authProgram settings jwt store) R (opening store clock) a ∧
    a.session t = some ⟨r,.inl (.commit writes next)⟩ ∧ writes i a.db = none ∧
    a.step (authProgram settings jwt store) (.exec t i) = some b ∧
    Runs (authProgram settings jwt store) R b s ∧ r.profile? jwt = some (some userId,some nickname) ∧
    a.db.registry.Taken userId nickname

structure NicknameConflicts : Prop where
  conflict : ∀ s t r, Runs (authProgram settings jwt store) (OnboardsOnce jwt) (opening store clock) s →
    (r.profile? jwt).isSome → s.session t = some ⟨r,.inr (.error UserRepository.nicknameConflict)⟩ →
      RefusedForNickname settings jwt store clock (OnboardsOnce jwt) s t r
  single : ∀ s user kind version,
    Reach (authProgram settings jwt store) Discipline.none (opening store clock) s →
      (s.db.registry.terms.rows.filter fun row =>
        (row.userId,row.termType,row.termVersion) = (user,kind,version)).length ≤ 1
  written : ∀ s user, Reach (authProgram settings jwt store) Discipline.none (opening store clock) s →
    TermsOfOne s.db.registry s.world.log user
  succeeded : ∀ s t credentials form response,
    Reach (authProgram settings jwt store) Discipline.none (opening store clock) s →
      s.session t = some ⟨.completeOnboarding credentials form,.inr (.ok response)⟩ →
        ∃ user, bearer jwt credentials = some user ∧ onboardings user s.world.log = [(t,form)]

end runs

section terms
variable {registry after : Registry} {log log' : List (Nat × AuthEvent)} {user : UUID} {t : Nat}

theorem onboardings_told {told : List UserEvent}
    (same : userEvents log' = userEvents log ++ told.map fun event => (t,event)) : onboardings user log' =
      onboardings user log ++ (told.filterMap (UserEvent.onboards? user)).map fun form => (t,form) := by
  rw [onboardings,same,List.filterMap_append,List.filterMap_map,List.map_filterMap]
  rfl

theorem TermsOfOne.apart {told : List UserEvent} (before : TermsOfOne registry log user)
    (same : userEvents log' = userEvents log ++ told.map fun event => (t,event))
    (none_ : ∀ event ∈ told, event.onboards? user = none)
    (rows : after.terms.rows.filter (fun row => row.userId = user) =
      registry.terms.rows.filter fun row => row.userId = user) : TermsOfOne after log' user := by
  have told : onboardings user log' = onboardings user log := by
    rw [onboardings_told same,List.filterMap_eq_nil_iff.mpr none_,List.map_nil,List.append_nil]
  exact ⟨told ▸ before.once,by rw [told,rows,before.written]⟩

theorem filter_terms_own (form : Onboarding) :
    (UserRepository.terms user form).filter (fun row => row.userId = user) = UserRepository.terms user form := by
  simp [UserRepository.terms]

theorem filter_terms_other {other : UUID} (form : Onboarding) (different : other ≠ user) :
    (UserRepository.terms other form).filter (fun row => row.userId = user) = [] := by
  simp [UserRepository.terms,different]

theorem TermsOfOne.onboarded {loaded : User} {form : Onboarding} (before : TermsOfOne registry log loaded.id)
    (same : userEvents log' = userEvents log ++ [UserEvent.onboarded loaded form].map fun event => (t,event))
    (rows : after.terms.rows = registry.terms.rows ++ UserRepository.terms loaded.id form) :
    TermsOfOne after log' loaded.id := by
  have told : onboardings loaded.id log' = onboardings loaded.id log ++ ([UserEvent.onboarded loaded form].filterMap
      (UserEvent.onboards? loaded.id)).map fun form => (t,form) := onboardings_told same
  simp only [List.filterMap_cons,List.filterMap_nil,UserEvent.onboards?,if_true,List.map_cons,List.map_nil] at told
  have first : onboardings loaded.id log = [] := by
    by_contra some_
    obtain ⟨⟨v,form'⟩,member⟩ := List.exists_mem_of_ne_nil _ some_
    have there : (⟨loaded.id,"AGE_14","1",true⟩ : UserTerm) ∈ registry.terms.rows := by
      refine (List.mem_filter.mp (before.written ▸ List.mem_flatMap.mpr ⟨(v,form'),member,?_⟩)).1
      simp [UserRepository.terms]
    have distinct := after.terms.distinct
    rw [rows,List.map_append] at distinct
    refine (List.disjoint_of_nodup_append distinct) (List.mem_map_of_mem there) (List.mem_map.mpr ?_)
    exact ⟨⟨loaded.id,"AGE_14","1",true⟩,by simp [UserRepository.terms],rfl⟩
  have none_ := before.written
  rw [first,List.flatMap_nil] at none_
  rw [first,List.nil_append] at told
  constructor
  · rw [told]
    exact le_refl 1
  · rw [told,rows,List.filter_append,none_,filter_terms_own]
    simp

theorem TermsOfOne.step {told : List UserEvent} (before : TermsOfOne registry log user)
    (same : userEvents log' = userEvents log ++ told.map fun event => (t,event))
    (made : UserRepository.Writes registry after told) : TermsOfOne after log' user := by
  cases made with
  | registered made =>
    obtain ⟨inserted,rfl⟩ := UserRepository.createWrites_eq_some.mp made
    exact before.apart same (by simp [UserEvent.onboards?]) (by rw [Registry.insertUser_terms inserted])
  | @onboarded loaded form _ _ _ made =>
    obtain ⟨between,updated,termed,rfl⟩ := UserRepository.onboardingWrites_eq_some.mp made
    have rows := Registry.insertTerms_rows termed
    rw [Registry.updateUser_terms updated] at rows
    rcases eq_or_ne loaded.id user with rfl | different
    · exact before.onboarded same rows
    · refine before.apart same (by simp [UserEvent.onboards?,different]) ?_
      rw [rows,List.filter_append,filter_terms_other form different,List.append_nil]
  | profileUpdated _ made =>
    obtain ⟨updated,rfl⟩ := UserRepository.profileWrites_eq_some.mp made
    exact before.apart same (by simp [UserEvent.onboards?]) (by rw [Registry.updateUser_terms updated])
  | withdrawn _ made =>
    obtain ⟨updated,rfl⟩ := UserRepository.withdrawWrites_eq_some.mp made
    exact before.apart same (by simp [UserEvent.onboards?]) (by rw [Registry.updateUser_terms updated])

end terms

section programs
variable {settings : AuthSettings} {jwt : Jwt T} {store : RefreshTokenStore S}

theorem blames_requireAccessToken {credentials : Option T} :
    (requireAccessToken jwt credentials : Auth S TokenClaims).Blames UserRepository.nicknameConflict := by
  cases credentials with
  | none => exact (by decide : authenticationRequired ≠ UserRepository.nicknameConflict)
  | some token =>
    have refused : TokenService.authenticationFailed ≠ UserRepository.nicknameConflict := by decide
    refine blames_bind blames_supply fun clock => ?_
    split
    · exact refused
    · split
      · exact refused
      · split
        · refine blames_bind blames_supply fun again => ?_
          split
          · exact refused
          · exact (by decide : TokenService.expired "access" ≠ UserRepository.nicknameConflict)
        · split
          · exact refused
          · trivial

theorem blames_authenticatedUserId {claims : TokenClaims} :
    (authenticatedUserId claims : Auth S UUID).Blames UserRepository.nicknameConflict := by
  unfold authenticatedUserId
  split
  · exact (by decide : invalidAccessToken ≠ UserRepository.nicknameConflict)
  · trivial

namespace UserRepository

theorem blames_refresh {userId : UUID} : (refresh userId : Auth S User).Blames nicknameConflict := by
  refine blames_bind (blames_query _) fun found => ?_
  split
  · exact (by decide : Exc.noResultFound ≠ nicknameConflict)
  · trivial

theorem blames_completeOnboarding {userId : UUID} {form : Onboarding} :
    (completeOnboarding userId form : Auth S User).Blames nicknameConflict := by
  refine blames_bind (blames_query _) fun found => ?_
  split
  · exact (by decide : userNotFound ≠ nicknameConflict)
  · split
    · exact (by decide : onboardingAlreadyCompleted ≠ nicknameConflict)
    · exact blames_bind (blames_commitOr _) fun _ => blames_refresh

theorem blames_updateProfile {userId : UUID} {change : ProfileEdit} :
    (updateProfile userId change : Auth S User).Blames nicknameConflict := by
  refine blames_bind (blames_query _) fun found => ?_
  split
  · exact (by decide : userNotFound ≠ nicknameConflict)
  · split
    · exact (by decide : onboardingRequired ≠ nicknameConflict)
    · exact blames_bind (blames_commitOr _) fun _ => blames_refresh

end UserRepository

theorem authProgram_blames {r : AuthRequest T} (asks : (r.profile? jwt).isSome) :
    (authProgram settings jwt store r).Blames UserRepository.nicknameConflict := by
  cases r with
  | completeOnboarding credentials form =>
    exact blames_bind (blames_bind blames_requireAccessToken fun _ => blames_bind blames_authenticatedUserId
      fun _ => UserRepository.blames_completeOnboarding) fun _ => trivial
  | updateMyProfile credentials change =>
    exact blames_bind (blames_bind blames_requireAccessToken fun _ => blames_bind blames_authenticatedUserId
      fun _ => UserRepository.blames_updateProfile) fun _ => trivial
  | _ => cases asks

/-- The history goes on. -/
def HistoryGrows (w w' : AuthWorld S) : Prop := w.log <+: w'.log

theorem historyGrows_trans (a b c : AuthWorld S) (first : HistoryGrows a b) (second : HistoryGrows b c) : HistoryGrows a c :=
  List.IsPrefix.trans first second

theorem onboardings_grow {user : UUID} {log log' : List (Nat × AuthEvent)} (grows : log <+: log') :
    onboardings user log <+: onboardings user log' := (grows.filterMap _).filterMap _

/-- An onboarding that returns is in the history. -/
def OnboardedBy (jwt : Jwt T) (credentials : Option T) (form : Onboarding) (t : Nat) (w : AuthWorld S) : Prop :=
  ∃ user, bearer jwt credentials = some user ∧ (t,form) ∈ onboardings user w.log

theorem UserRepository.conducts_completeOnboarding {userId : UUID} {form : Onboarding} {t : Nat}
    {Q : Except Exc User → AuthWorld S → Prop} (failed : ∀ error w, Q (.error error) w) (w : AuthWorld S)
    (done : ∀ found loaded w', loaded.id = userId → (t,.user (.onboarded loaded form)) ∈ w'.log →
      Q (.ok found) w') : (completeOnboarding userId form : Auth S User).Conducts HistoryGrows (fun _ _ => True) t Q w := by
  refine conducts_query fun w₁ _ => ?_
  split
  · exact fun _ _ => failed _ _
  next user kept =>
    split
    · exact fun _ _ => failed _ _
    · refine conducts_commitOr (fun i w₂ db events _ _ made => ?_) fun _ _ w₃ _ _ _ _ => failed _ w₃
      have own : user.id = userId := Table.key_of_get? (Option.filter_eq_some_iff.mp kept).1
      obtain ⟨told,outcome,rfl⟩ := written_eq_some made
      obtain ⟨_,_,_,rfl⟩ := UserRepository.onboardingWrites_eq_some.mp outcome
      refine Commits.conducts historyGrows_trans commits_refresh failed _ fun found w₄ _ later =>
        done found user w₄ own (later.subset ?_)
      exact List.mem_append_right _ List.mem_cons_self

theorem completeOnboarding_conducts {credentials : Option T} {form : Onboarding} {t : Nat} (w : AuthWorld S) :
    (authProgram settings jwt store (.completeOnboarding credentials form)).Conducts HistoryGrows (fun _ _ => True) t
      (fun x w' => ∀ response, x = .ok response → OnboardedBy jwt credentials form t w') w := by
  have failed : ∀ (error : Exc) {P : AuthResponse T → Prop} response,
      (Except.error error : Except Exc (AuthResponse T)) = .ok response → P response :=
    fun _ _ _ same => nomatch same
  have refl : ∀ w : AuthWorld S, HistoryGrows w w := fun _ => List.prefix_rfl
  refine conducts_bind refl (conducts_bind refl (Commits.conducts historyGrows_trans commits_requireAccessToken
    (fun error _ => failed error) w fun claims w₁ given _ => ?_))
  refine conducts_bind refl (Commits.conducts historyGrows_trans commits_authenticatedUserId
    (fun error _ => failed error) w₁ fun userId w₂ parsed _ => ?_)
  refine UserRepository.conducts_completeOnboarding (fun error _ => failed error) w₂ ?_
  intro found loaded w₃ own member w₄ later response _
  refine ⟨userId,given.trans parsed,List.mem_filterMap.mpr ?_⟩
  exact ⟨(t,.onboarded loaded form),mem_userEvents.mpr (later.subset member),by simp [UserEvent.onboards?,own]⟩

end programs

section safety
variable {settings : AuthSettings} {jwt : Jwt T} {store : RefreshTokenStore S} {clock : Time}

theorem termsOfOne_runs {R : AuthSystem T S → Action AuthInput Exc (AuthRequest T) → AuthSystem T S → Prop}
    {s : AuthSystem T S} (runs : Runs (authProgram settings jwt store) R (opening store clock) s) (user : UUID) :
    TermsOfOne s.db.registry s.world.log user := by
  induction runs with
  | refl => exact ⟨Nat.zero_le _,rfl⟩
  | tail before link ih =>
    obtain ⟨action,taken,_⟩ := link
    rcases registry_step before taken with ⟨same,log⟩ | ⟨t,told,log,made⟩
    · exact ih.apart (t := 0) (by rw [log,List.map_nil,List.append_nil]) (by simp) (by rw [same])
    · exact ih.step log made

theorem onboarded_runs {R : AuthSystem T S → Action AuthInput Exc (AuthRequest T) → AuthSystem T S → Prop}
    {s : AuthSystem T S} (runs : Runs (authProgram settings jwt store) R (opening store clock) s) {t : Nat}
    {credentials : Option T} {form : Onboarding} {response : AuthResponse T}
    (ended : s.session t = some ⟨.completeOnboarding credentials form,.inr (.ok response)⟩) :
    OnboardedBy jwt credentials form t s.world := by
  refine Reach.conducting (Q := fun x w => ∀ response, x = .ok response → OnboardedBy jwt credentials form t w) runs
    (fun _ => rfl) (fun _ => List.prefix_rfl) historyGrows_trans (fun a _ _ => completeOnboarding_conducts a.world)
    (fun _ _ _ _ _ _ _ _ => trivial)
    (fun a action b _ taken _ _ => (Reach.step action .refl taken (Reach.admits_none action)).log_grows)
    (fun _ _ _ _ _ _ _ response same => nomatch same) ?_ ended response rfl
  intro x a b holds later response same
  obtain ⟨user,own,member⟩ := holds response same
  exact ⟨user,own,(onboardings_grow later).subset member⟩

/-- A COMMIT of a profile that is refused, while the user has no terms before he is onboarded, asks for a
nickname that is taken. -/
theorem AuthCommit.refused {r : AuthRequest T} {writes : AuthInput → Accounts S → Option (Accounts S × List AuthEvent)}
    (commit : AuthCommit jwt r writes) (asks : (r.profile? jwt).isSome) {db : Accounts S} {i : AuthInput}
    (apart : db.registry.Apart) (refused : writes i db = none)
    (first : ∀ credentials form userId, r = .completeOnboarding credentials form →
      bearer jwt credentials = some userId → ∀ row ∈ db.registry.terms.rows, row.userId ≠ userId) :
    ∃ userId nickname, r.profile? jwt = some (some userId,some nickname) ∧ db.registry.Taken userId nickname := by
  cases commit with
  | apart elsewhere => simp [elsewhere] at asks
  | created asks' => cases r <;> simp [AuthRequest.profile?,AuthRequest.identity?] at asks asks'
  | withdrawn => cases asks
  | @onboarded credentials form user own unfinished =>
    have refused : UserRepository.onboardingWrites user form db.registry = none :=
      Option.map_eq_none_iff.mp refused
    rcases UserRepository.onboardingWrites_refused apart refused with taken | ⟨row,member,same⟩
    · exact ⟨user.id,form.nickname,by rw [AuthRequest.profile?,own],taken⟩
    · exact absurd same (first credentials form user.id rfl own row member)
  | @profileUpdated credentials change user own finished =>
    have refused : UserRepository.profileWrites user change db.registry = none :=
      Option.map_eq_none_iff.mp refused
    obtain ⟨nickname,wanted,taken⟩ := UserRepository.profileWrites_refused apart refused
    exact ⟨user.id,nickname,by rw [AuthRequest.profile?,own,wanted],taken⟩

theorem nicknameConflicts (settings : AuthSettings) (jwt : Jwt T) (store : RefreshTokenStore S) (clock : Time) :
    NicknameConflicts settings jwt store clock := by
  constructor
  · intro s t r runs asks failed
    obtain ⟨a,i,b,writes,next,before,running,refused,taken,⟨_,once⟩,rest⟩ :=
      Reach.blamed runs (fun _ => rfl) (authProgram_blames asks) (fun a b own => own.1 t rfl) failed
    have commit := (Reach.commits before (fun _ => rfl) (authProgram_commits r) running).1
    obtain ⟨userId,nickname,wanted,held⟩ := commit.refused asks (apart_runs before) refused (by
      rintro credentials form userId rfl own row member same
      exact once ⟨t,i,credentials,form,writes,next,userId,rfl,running,own,row,member,same⟩)
    exact ⟨a,i,b,writes,next,userId,nickname,before,running,refused,taken,rest,wanted,held⟩
  · intro s user kind version reach
    have single := List.nodup_iff_count_le_one.mp s.db.registry.terms.distinct (user,kind,version)
    rw [List.count,List.countP_map,List.countP_eq_length_filter] at single
    simpa [Function.comp_def,beq_eq_decide] using single
  · exact fun s user reach => termsOfOne_runs reach.runs_admitted user
  · intro s t credentials form response reach ended
    have runs := reach.runs_admitted
    obtain ⟨user,own,member⟩ := onboarded_runs runs ended
    refine ⟨user,own,?_⟩
    obtain ⟨one,same⟩ := List.length_eq_one_iff.mp (Nat.le_antisymm (termsOfOne_runs runs user).once
      (List.length_pos_of_mem member))
    rw [same] at member ⊢
    rw [List.mem_singleton.mp member]

theorem known_runs {R : AuthSystem T S → Action AuthInput Exc (AuthRequest T) → AuthSystem T S → Prop}
    {s u : AuthSystem T S} (before : Runs (authProgram settings jwt store) R (opening store clock) s)
    (on : Runs (authProgram settings jwt store) R s u) {id : UUID}
    (known : (s.db.registry.users.get? id).isSome) : (u.db.registry.users.get? id).isSome := by
  induction on with
  | refl => exact known
  | tail on link ih =>
    obtain ⟨action,taken,_⟩ := link
    rcases registry_step (before.trans on) taken with ⟨same,_⟩ | ⟨_,_,_,made⟩
    · rw [same]
      exact ih
    · exact made.known ih

end safety

namespace Sample

def faithful : Action AuthInput Exc (AuthRequest Payload) → Bool
  | .die _ _ => false
  | _ => true

theorem faithful_sound {s u : AuthSystem Payload Redis} {action : Action AuthInput Exc (AuthRequest Payload)}
    (passes : faithful action = true) : Faithful s action u := by
  rintro t rfl
  cases passes

/-- An onboarding of the user that takes the statements up to its COMMIT. -/
def onboarding (userId : UUID) (t first : Nat) : AuthActions :=
  .start t (.completeOnboarding (some (TokenService.payloadOf userId.str "access" 1800 (UUID.str 206) 0))
    ⟨"nickname",none,false,"1","1"⟩) :: statements t (seconds 1) first 2

/-- The first user is onboarded by two calls at once. -/
def onboardedTwice : AuthActions :=
  .start 1 (.loginWithKakao "1") :: statements 1 0 100 8 ++ onboarding 1 2 200 ++ onboarding 1 3 300 ++
    statements 2 (seconds 1) 400 3 ++ statements 3 (seconds 1) 500 2

/-- Two users are onboarded at once, with one nickname. -/
def sameNickname : AuthActions :=
  .start 1 (.loginWithKakao "1") :: statements 1 0 100 8 ++ .start 2 (.loginWithKakao "2") ::
    (List.range 8).map (fun n => .exec 2 { authInput 0 (200 + n) with userId := 2 }) ++
      onboarding 1 3 300 ++ onboarding 2 4 400 ++ statements 3 (seconds 1) 500 3 ++ statements 4 (seconds 1) 600 2

/-- A step that is no COMMIT of an onboarding whose user has terms. -/
def onboardsOnce (s : AuthSystem Payload Redis) : Action AuthInput Exc (AuthRequest Payload) → Bool
  | .exec t _ => match s.session t with
    | some ⟨.completeOnboarding credentials _,.inl (.commit _ _)⟩ =>
      s.db.registry.terms.rows.all fun row => bearer jwt credentials ≠ some row.userId
    | _ => true
  | _ => true

theorem not_onboardsAgain {s : AuthSystem Payload Redis} {action : Action AuthInput Exc (AuthRequest Payload)}
    (passes : onboardsOnce s action = true) : ¬ OnboardsAgain jwt s action := by
  rintro ⟨t,i,credentials,form,writes,next,userId,rfl,running,own,row,member,same⟩
  simp only [onboardsOnce,running,List.all_eq_true] at passes
  exact of_decide_eq_true (passes row member) (own.trans (congrArg some same.symm))

def conflicts (s : AuthSystem Payload Redis) (userId : UUID) (t : Nat) : Bool :=
  match s.session t with
  | some ⟨.completeOnboarding credentials _,.inr (.error error)⟩ =>
    error = UserRepository.nicknameConflict ∧ bearer jwt credentials = some userId
  | _ => false

theorem of_conflicts {s : AuthSystem Payload Redis} {userId : UUID} {t : Nat}
    (passes : conflicts s userId t = true) : ∃ credentials form, bearer jwt credentials = some userId ∧
      s.session t = some ⟨.completeOnboarding credentials form,.inr (.error UserRepository.nicknameConflict)⟩ := by
  unfold conflicts at passes
  split at passes
  next credentials form error present =>
    obtain ⟨rfl,own⟩ := of_decide_eq_true passes
    exact ⟨credentials,form,own,present⟩
  next => cases passes

end Sample

/-- Of two users who are onboarded with one nickname the second is told of a conflict with the first. -/
theorem nicknameConflicts_taken : ∃ (s : AuthSystem Payload Redis) (r : AuthRequest Payload),
    s.session 4 = some ⟨r,.inr (.error UserRepository.nicknameConflict)⟩ ∧
      (r.profile? Sample.jwt).map Prod.fst = some (some 2) ∧ RefusedForNickname Sample.authSettings Sample.jwt
        redisRefreshTokenStore 0 (OnboardsOnce Sample.jwt) s 4 r := by
  obtain ⟨s,ran,failed⟩ := (Option.any_eq_true _ _).mp (show (Sample.authAfter (fun s action _ =>
    Sample.faithful action && Sample.onboardsOnce s action) Sample.sameNickname Sample.start).any (fun s =>
      Sample.conflicts s 2 4) = true by decide +kernel)
  obtain ⟨credentials,form,own,present⟩ := Sample.of_conflicts failed
  have runs : Runs (authProgram Sample.authSettings Sample.jwt redisRefreshTokenStore)
      (OnboardsOnce Sample.jwt) (opening redisRefreshTokenStore 0) s := by
    refine Reach.runs_of_runWhile (fun a action b _ passes => ?_) ran
    obtain ⟨faithful,once⟩ := Bool.and_eq_true_iff.mp passes
    exact ⟨Sample.faithful_sound faithful,Sample.not_onboardsAgain once⟩
  refine ⟨s,_,present,congrArg some own,?_⟩
  exact (nicknameConflicts Sample.authSettings Sample.jwt redisRefreshTokenStore 0).conflict s 4 _ runs rfl present

/-- Of two onboardings of one user the second is told of a conflict, though nobody else has the nickname. -/
theorem nicknameConflicts_overlapping : ¬ ∀ (settings : AuthSettings) (jwt : Jwt Payload) (clock : Time)
    (s : AuthSystem Payload Redis) (t : Nat) (r : AuthRequest Payload),
      Runs (authProgram settings jwt redisRefreshTokenStore) Faithful (opening redisRefreshTokenStore clock) s →
        (r.profile? jwt).isSome → s.session t = some ⟨r,.inr (.error UserRepository.nicknameConflict)⟩ →
          RefusedForNickname settings jwt redisRefreshTokenStore clock Faithful s t r := by
  intro claim
  obtain ⟨s,ran,passes⟩ := (Option.any_eq_true _ _).mp (show (Sample.authAfter
    (fun _ action _ => Sample.faithful action) Sample.onboardedTwice Sample.start).any (fun s =>
      Sample.conflicts s 1 3 && s.db.registry.users.rows.all fun row => row.id = 1) = true by decide +kernel)
  obtain ⟨failed,only⟩ := Bool.and_eq_true_iff.mp passes
  obtain ⟨credentials,form,own,present⟩ := Sample.of_conflicts failed
  have runs : Runs (authProgram Sample.authSettings Sample.jwt redisRefreshTokenStore) Faithful
      (opening redisRefreshTokenStore 0) s :=
    Reach.runs_of_runWhile (fun _ _ _ _ passes => Sample.faithful_sound passes) ran
  obtain ⟨a,i,b,_,_,userId,nickname,before,_,_,taken,rest,wanted,other,member,different,_⟩ :=
    claim _ _ _ s 3 _ runs rfl present
  have same : userId = 1 := by
    rw [AuthRequest.profile?,own] at wanted
    exact (Option.some.inj (congrArg Prod.fst (Option.some.inj wanted))).symm
  have there : (a.db.registry.users.get? other.id).isSome := by rw [Table.get?_of_mem member]; rfl
  obtain ⟨row,found⟩ := Option.isSome_iff_exists.mp
    (known_runs before (Relation.ReflTransGen.head ⟨_,taken,fun _ => nofun⟩ rest) there)
  obtain ⟨inside,key⟩ := Table.mem_rows_of_get? found
  have first : row.id = 1 := of_decide_eq_true (List.all_eq_true.mp only row inside)
  exact different (key.symm.trans (first.trans same.symm))

end Dalm
