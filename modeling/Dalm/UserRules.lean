import Dalm.Users
import Dalm.Relational.Statements

/-! Rules for the programs of UserRepository, in any protocol that lets a request make
their commits. -/
namespace Dalm.UserRepository
open Relational Held Txn
variable {σ κ ι ε ρ α : Type} [Lockable σ κ] [HasUsers σ ι ε]
variable {P : Protocol σ κ ε ρ} {D : Discipline σ ι ε} {r : ρ} {t : Nat} {w : World σ ε}
  {Q : Except Exc α → Held σ κ → World σ ε → Prop}

/-- The request may make the repository's commits. -/
def Permits (P : Protocol σ κ ε ρ) (r : ρ) (t : Nat) : Prop :=
  ∀ w registry events, P.inv w → Writes (HasUsers.registry w.db) registry events →
    P.step r t [] w ((World.mk (HasUsers.withRegistry w.db registry) w.log).record t
      (events.map (HasUsers.told σ)))

theorem wp_written {failure : Exc} {writes : ι → Registry → Option (Registry × List UserEvent)}
    {k : ι → Txn σ κ ι ε Exc α} (permits : Permits P r t)
    (allowed : ∀ i registry after events, writes i registry = some (after,events) →
      Writes registry after events)
    (failed : ∀ error w', Q (.error error) [] w')
    (rest : ∀ i w' after events, Later P D t [] w w' →
      writes i (HasUsers.registry w'.db) = some (after,events) →
      wp P D r t (k i) Q [] ((World.mk (HasUsers.withRegistry w'.db after) w'.log).record t
        (events.map (HasUsers.told σ)))) :
    wp P D r t (commitOr failure (fun i => written (writes i)) >>= k) Q [] w := by
  apply wp_commit
  · exact fun _ w' _ _ _ => failed _ w'
  · intro i w' db events later _ made _
    obtain ⟨⟨after,told⟩,outcome,same⟩ := Option.map_eq_some_iff.mp made
    cases same
    exact ⟨permits w' after told later.inv (allowed i _ _ _ outcome),rest i w' after told later outcome⟩

theorem appends_told {S : ε → Prop} {w w' : World σ ε} {db : σ} {events : List UserEvent}
    (kind : ∀ e, S (HasUsers.told σ e)) (later : Later P D t [] w w') :
    Appends t S w ((World.mk db w'.log).record t (events.map (HasUsers.told σ))) := by
  refine later.appends.trans (.own ?_)
  intro event member
  obtain ⟨e,_,rfl⟩ := List.mem_map.mp member
  exact kind e

variable {S : ε → Prop}

theorem wp_refresh {userId : UUID} {k : User → Txn σ κ ι ε Exc α}
    (failed : ∀ error w', Q (.error error) [] w')
    (rest : ∀ user w', Later P D t [] w w' → wp P D r t (k user) Q [] w') :
    wp P D r t (refresh userId >>= k) Q [] w := by
  apply wp_bind
  unfold refresh
  apply wp_query
  intro w₁ later
  split
  · exact failed _ _
  next user _ => exact rest user w₁ later

/-- Whoever a login finds or creates, only users were written on the way. -/
theorem wp_createFrom {identity : Identity} {k : User → Txn σ κ ι ε Exc α}
    (permits : Permits P r t) (kind : ∀ e, S (HasUsers.told σ e))
    (failed : ∀ error w', Q (.error error) [] w')
    (rest : ∀ user w', P.inv w' → Appends t S w w' → wp P D r t (k user) Q [] w') :
    wp P D r t (createFrom identity >>= k) Q [] w := by
  intro i w₁ later₁ _
  beta_reduce
  cases made : written (createWrites (HasUsers.drawn σ i) identity) w₁.db with
  | none =>
    change wp P D r t (Txn.bind _ k) Q [] w₁
    apply wp_bind
    apply wp_undo
    apply wp_query
    intro w₂ later₂
    split
    · exact failed _ _
    next user _ => exact rest user w₂ later₂.inv (later₁.trans later₂).appends
  | some result =>
    obtain ⟨⟨after,told⟩,outcome,same⟩ := Option.map_eq_some_iff.mp made
    cases same
    intro _
    have step := permits w₁ after told later₁.inv (.registered outcome)
    refine ⟨step,?_⟩
    apply wp_refresh failed
    intro user w₂ later₂
    exact rest user w₂ later₂.inv ((appends_told kind later₁).trans later₂.appends)

theorem wp_getBy {identity : Identity} {k : Option User → Txn σ κ ι ε Exc α}
    (rest : ∀ found w', Later P D t [] w w' → wp P D r t (k found) Q [] w') :
    wp P D r t (getBy identity >>= k) Q [] w := wp_query fun w' later => rest _ w' later

theorem wp_completeOnboarding {userId : UUID} {form : Onboarding}
    {Q : Except Exc User → Held σ κ → World σ ε → Prop}
    (permits : Permits P r t) (kind : ∀ e, S (HasUsers.told σ e))
    (failed : ∀ error w', Q (.error error) [] w')
    (done : ∀ user w', P.inv w' → Appends t S w w' → Q (.ok user) [] w') :
    wp P D r t (completeOnboarding userId form) Q [] w := by
  unfold completeOnboarding
  apply wp_query
  intro w₁ later₁
  split
  · exact failed _ _
  next user _ =>
    split
    · exact failed _ _
    next unfinished =>
      apply wp_written permits
      · exact fun _ _ _ _ made => .onboarded (not_not.mp unfinished) made
      · exact failed
      · intro _ w₂ after events later₂ _
        apply wp_query
        intro w₃ later₃
        split
        · exact failed _ _
        next user _ =>
          exact done user w₃ later₃.inv
            ((appends_told kind (later₁.trans later₂)).trans later₃.appends)

theorem wp_updateProfile {userId : UUID} {change : ProfileEdit}
    {Q : Except Exc User → Held σ κ → World σ ε → Prop}
    (permits : Permits P r t) (kind : ∀ e, S (HasUsers.told σ e))
    (failed : ∀ error w', Q (.error error) [] w')
    (done : ∀ user w', P.inv w' → Appends t S w w' → Q (.ok user) [] w') :
    wp P D r t (updateProfile userId change) Q [] w := by
  unfold updateProfile
  apply wp_query
  intro w₁ later₁
  split
  · exact failed _ _
  next user _ =>
    split
    · exact failed _ _
    next finished =>
      apply wp_written permits
      · exact fun _ _ _ _ made => .profileUpdated finished made
      · exact failed
      · intro _ w₂ after events later₂ _
        apply wp_query
        intro w₃ later₃
        split
        · exact failed _ _
        next user _ =>
          exact done user w₃ later₃.inv
            ((appends_told kind (later₁.trans later₂)).trans later₃.appends)

/-- A withdrawal that returns has written its user's row. -/
theorem wp_withdraw {userId : UUID} {k : Unit → Txn σ κ ι ε Exc α} (permits : Permits P r t)
    (failed : ∀ error w', Q (.error error) [] w')
    (rest : ∀ user w' after, Later P D t [] w w' → user.id = userId →
      wp P D r t (k ()) Q [] ((World.mk (HasUsers.withRegistry w'.db after) w'.log).record t
        [HasUsers.told σ (.withdrawn user)])) :
    wp P D r t (withdraw userId >>= k) Q [] w := by
  apply wp_bind
  unfold withdraw
  apply wp_query
  intro w₁ later₁
  split
  · exact failed _ _
  next user found =>
    obtain ⟨found,staying⟩ := Option.filter_eq_some_iff.mp found
    apply wp_supply
    intro clock w₂ later₂ _
    apply wp_written permits
    · exact fun _ _ _ _ made => .withdrawn (by simpa using staying) made
    · exact failed
    · intro _ w₃ after events later₃ made
      obtain ⟨_,_,made⟩ := Option.bind_eq_some_iff.mp made
      cases Option.some.inj made
      exact rest user w₃ _ (later₁.trans (later₂.trans later₃)) (Table.key_of_get? found)

end Dalm.UserRepository
