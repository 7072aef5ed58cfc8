import Dalm.AuthCommits

/-! What the unique columns of users and their terms keep: no two users share a name or an identity, a
COMMIT is refused for a name somebody else has or for terms that are there, and the terms of a user are
those of the one onboarding that was committed for him. -/
namespace Dalm
open Relational
variable {T S : Type}

namespace Registry

/-- No two users share a Kakao id, an Apple id or a nickname. -/
def Apart (registry : Registry) : Prop :=
  ∀ row ∈ registry.users.rows, ∀ other ∈ registry.users.rows, row.id = other.id ∨ compatible row other

/-- Somebody other than the user has the nickname. -/
def Taken (registry : Registry) (userId : UUID) (nickname : String) : Prop :=
  ∃ other ∈ registry.users.rows, other.id ≠ userId ∧ other.nickname = some nickname

section apart
variable {registry after : Registry} {row other : User} {id : UUID} {assign : User → User}
  {keeps : ∀ row, (assign row).id = row.id}

theorem unique_symm {α : Type} {a b : Option α} (unique : a = none ∨ a ≠ b) : b = none ∨ b ≠ a := by
  rcases unique with rfl | different
  · exact or_iff_not_imp_left.mpr id
  · exact .inr different.symm

theorem compatible_symm (fits : compatible row other) : compatible other row := by
  simp only [compatible,Bool.decide_and,Bool.and_eq_true,decide_eq_true_eq] at fits ⊢
  exact ⟨unique_symm fits.1,unique_symm fits.2.1,unique_symm fits.2.2⟩

theorem Apart.inserted (apart : registry.Apart) (written : registry.insertUser row = some after) : after.Apart := by
  obtain ⟨fresh,rows⟩ := insertUser_users written
  unfold insertUser at written
  split at written
  next fits =>
    have fits : ∀ other ∈ registry.users.rows, compatible row other := List.all_eq_true.mp fits
    intro first one second two
    rw [rows,Table.rows_insert,List.mem_append,List.mem_singleton] at one two
    rcases one with one | rfl <;> rcases two with two | rfl
    · exact apart first one second two
    · exact .inr (compatible_symm (fits first one))
    · exact .inr (fits second two)
    · exact .inl rfl
  next => cases written

/-- What an UPDATE of a user checks: the row it makes against the others. -/
theorem updateUser_fits : (∃ after, registry.updateUser id assign keeps = some after) ↔
    ∀ row, registry.users.get? id = some row → ∀ other ∈ registry.users.rows,
      other.id = id ∨ compatible (assign row) other := by
  have made : (registry.users.modify (fun other => other = id) assign keeps).get? id =
      (registry.users.get? id).map assign := by rw [Table.get?_modify,if_pos (decide_eq_true rfl)]
  unfold updateUser
  simp only [made]
  cases found : registry.users.get? id with
  | none => simp
  | some row =>
    simp only [Option.map_some,Option.all_some,Table.rows_modify,List.all_map,List.all_eq_true]
    constructor
    · rintro ⟨after,written⟩ row' same other member
      cases same
      split at written
      next fits =>
        rcases eq_or_ne other.id id with own | different
        · exact .inl own
        · simpa [different] using fits other member
      next => cases written
    · intro fits
      refine ⟨_,if_pos fun other member => ?_⟩
      rcases eq_or_ne other.id id with own | different
      · simp [own,keeps]
      · simpa [different] using fits row rfl other member

theorem Apart.updated (apart : registry.Apart) (written : registry.updateUser id assign keeps = some after) :
    after.Apart := by
  have fits := updateUser_fits.mp ⟨after,written⟩
  have rows := updateUser_users written
  intro first one second two
  rw [rows,Table.rows_modify,List.mem_map] at one two
  obtain ⟨first,one,rfl⟩ := one
  obtain ⟨second,two,rfl⟩ := two
  have own : ∀ {row}, row ∈ registry.users.rows → row.id = id → registry.users.get? id = some row :=
    fun member same => same ▸ Table.get?_of_mem member
  by_cases left : first.id = id <;> by_cases right : second.id = id <;> simp only [left,right,decide_true,
    decide_false,if_true,Bool.false_eq_true,if_false]
  · exact .inl ((keeps first).trans (left.trans (right.symm.trans (keeps second).symm)))
  · exact .inr ((fits first (own one left) second two).resolve_left right)
  · exact .inr (compatible_symm ((fits second (own two right) first one).resolve_left left))
  · exact apart first one second two

/-- An UPDATE that keeps the identity and is refused wants a nickname that is taken. -/
theorem Apart.refused (apart : registry.Apart) (refused : registry.updateUser id assign keeps = none)
    (kakao : ∀ row, (assign row).kakaoId = row.kakaoId) (apple : ∀ row, (assign row).appleId = row.appleId) :
    ∃ row nickname, (assign row).nickname = some nickname ∧ row.nickname ≠ some nickname ∧
      registry.Taken id nickname := by
  have unfit : ¬ ∀ row, registry.users.get? id = some row → ∀ other ∈ registry.users.rows,
      other.id = id ∨ compatible (assign row) other := by
    intro fits
    have made : ∃ after, registry.updateUser id assign keeps = some after := updateUser_fits.mpr fits
    obtain ⟨after,written⟩ := made
    cases refused.symm.trans written
  push Not at unfit
  obtain ⟨row,found,other,member,different,unfit⟩ := unfit
  obtain ⟨there,own⟩ := Table.mem_rows_of_get? found
  have before := (apart row there other member).resolve_left (own.trans_ne different.symm)
  simp only [compatible,Bool.decide_and,Bool.and_eq_true,decide_eq_true_eq,ne_eq] at before unfit
  rw [kakao,apple] at unfit
  obtain ⟨named,same⟩ := not_or.mp fun fits => unfit ⟨before.1,before.2.1,fits⟩
  have same := not_not.mp same
  obtain ⟨nickname,wanted⟩ := Option.ne_none_iff_exists'.mp named
  refine ⟨row,nickname,wanted,fun old => ?_,other,member,different,same.symm.trans wanted⟩
  rcases before.2.2 with none_ | apart
  · rw [none_] at old
    cases old
  · exact apart (old.trans (wanted.symm.trans same))

end apart

section terms
variable {registry after : Registry} {terms : List UserTerm}

theorem insertTerms_rows (written : registry.insertTerms terms = some after) :
    after.terms.rows = registry.terms.rows ++ terms := by
  induction terms generalizing registry with
  | nil =>
    cases Option.some.inj written
    exact (List.append_nil _).symm
  | cons term rest ih =>
    obtain ⟨table,inserted,remaining⟩ := Option.bind_eq_some_iff.mp written
    obtain ⟨fresh,rfl⟩ := Table.insert?_eq_some.mp inserted
    rw [ih remaining,Table.rows_insert,List.append_assoc,List.singleton_append]

theorem updateUser_terms {id : UUID} {assign : User → User} {keeps : ∀ row, (assign row).id = row.id}
    (written : registry.updateUser id assign keeps = some after) : after.terms = registry.terms := by
  simp only [updateUser] at written
  split at written
  · cases Option.some.inj written
    rfl
  · cases written

theorem insertUser_terms {row : User} (written : registry.insertUser row = some after) :
    after.terms = registry.terms := by
  unfold insertUser at written
  split at written
  · obtain ⟨_,_,rfl⟩ := Option.map_eq_some_iff.mp written
    rfl
  · cases written

/-- Terms of different types that are refused are there. -/
theorem insertTerms_refused (refused : registry.insertTerms terms = none)
    (distinct : (terms.map UserTerm.termType).Nodup) : ∃ row ∈ registry.terms.rows, ∃ term ∈ terms,
      (row.userId,row.termType,row.termVersion) = (term.userId,term.termType,term.termVersion) := by
  induction terms generalizing registry with
  | nil => cases refused
  | cons term rest ih =>
    obtain ⟨other,distinct⟩ := List.nodup_cons.mp distinct
    cases found : registry.terms.get? (term.userId,term.termType,term.termVersion) with
    | some row =>
      obtain ⟨member,same⟩ := Table.mem_rows_of_get? found
      exact ⟨row,member,term,List.mem_cons_self,same⟩
    | none =>
      have inserted : registry.terms.insert? term = some (registry.terms.insert term found) :=
        Table.insert?_eq_some.mpr ⟨found,rfl⟩
      have refused : insertTerms ⟨registry.users,registry.terms.insert term found⟩ rest = none := by
        rw [insertTerms,inserted] at refused
        exact refused
      obtain ⟨row,member,term',member',same⟩ := ih refused distinct
      rw [Table.rows_insert,List.mem_append,List.mem_singleton] at member
      rcases member with member | rfl
      · exact ⟨row,member,term',List.mem_cons_of_mem _ member',same⟩
      · have kind : row.termType = term'.termType := congrArg (fun key => key.2.1) same
        exact absurd (kind ▸ List.mem_map_of_mem member') other

end terms
end Registry

namespace UserRepository
variable {registry after : Registry} {events : List UserEvent} {user : User} {form : Onboarding}
  {change : ProfileEdit}

theorem Writes.apart (written : Writes registry after events) (apart : registry.Apart) : after.Apart := by
  cases written with
  | registered written =>
    obtain ⟨inserted,rfl⟩ := createWrites_eq_some.mp written
    exact apart.inserted inserted
  | onboarded _ written =>
    obtain ⟨between,updated,termed,rfl⟩ := onboardingWrites_eq_some.mp written
    have same := Registry.insertTerms_users termed
    have apart := apart.updated updated
    rw [Registry.Apart,← same] at apart
    exact apart
  | profileUpdated _ written =>
    obtain ⟨updated,rfl⟩ := profileWrites_eq_some.mp written
    exact apart.updated updated
  | withdrawn _ written =>
    obtain ⟨updated,rfl⟩ := withdrawWrites_eq_some.mp written
    exact apart.updated updated

theorem flushed_new {α : Type} [DecidableEq α] {loaded new current : α} (changed : flushed loaded new current ≠ current) :
    flushed loaded new current = new := by
  unfold flushed at changed ⊢
  split
  next same => simp [same] at changed
  next => rfl

theorem onboardingWrites_refused (apart : registry.Apart) (refused : onboardingWrites user form registry = none) :
    registry.Taken user.id form.nickname ∨ ∃ row ∈ registry.terms.rows, row.userId = user.id := by
  cases updated : registry.updateUser user.id (onboard user form) fun _ => rfl with
  | none =>
    obtain ⟨row,nickname,wanted,changed,taken⟩ := apart.refused updated (fun _ => rfl) fun _ => rfl
    have new := flushed_new (wanted.trans_ne changed.symm)
    cases Option.some.inj (new.symm.trans wanted)
    exact .inl taken
  | some between =>
    have refused : between.insertTerms (terms user.id form) = none := by
      cases termed : between.insertTerms (terms user.id form) with
      | none => rfl
      | some after => simp [onboardingWrites,updated,termed] at refused
    obtain ⟨row,member,term,among,same⟩ := Registry.insertTerms_refused refused (by simp [terms])
    rw [Registry.updateUser_terms updated] at member
    have own : term.userId = user.id := by
      simp only [terms,List.mem_cons,List.not_mem_nil,or_false] at among
      rcases among with rfl | rfl | rfl | rfl <;> rfl
    exact .inr ⟨row,member,(congrArg Prod.fst same).trans own⟩

theorem profileWrites_refused (apart : registry.Apart) (refused : profileWrites user change registry = none) :
    ∃ nickname, change.nickname = some nickname ∧ registry.Taken user.id nickname := by
  cases updated : registry.updateUser user.id (edit user change) fun _ => rfl with
  | some between => simp [profileWrites,updated] at refused
  | none =>
    obtain ⟨row,nickname,wanted,changed,taken⟩ := apart.refused updated (fun _ => rfl) fun _ => rfl
    cases given : change.nickname with
    | none =>
      have same : row.nickname = some nickname := by simpa [edit,given] using wanted
      exact absurd same changed
    | some asked =>
      have wanted : flushed user.nickname (some asked) row.nickname = some nickname := by
        simpa [edit,given] using wanted
      have new := flushed_new (wanted.trans_ne changed.symm)
      exact ⟨nickname,new.symm.trans wanted,taken⟩

end UserRepository

theorem apart_runs {settings : AuthSettings} {jwt : Jwt T} {store : RefreshTokenStore S} {clock : Time}
    {R : AuthSystem T S → Action AuthInput Exc (AuthRequest T) → AuthSystem T S → Prop} {s : AuthSystem T S}
    (runs : Runs (authProgram settings jwt store) R (opening store clock) s) : s.db.registry.Apart := by
  induction runs with
  | refl =>
    intro row member
    cases member
  | tail before link ih =>
    obtain ⟨action,taken,_⟩ := link
    rcases registry_step before taken with ⟨same,_⟩ | ⟨_,_,_,written⟩
    · rw [same]
      exact ih
    · exact written.apart ih

end Dalm
