import Dalm.Relational.System

/-! Programs that answer what they have just read. Whatever ran in between, the answer of
such a session is one its query gives on the database of some state of the run. -/
namespace Relational
variable {σ κ ι ε err ρ α β : Type} [Lockable σ κ]

/-- Every value is returned right after a read of a database on which `R` admits it. -/
def Txn.Answers (R : σ → α → Prop) : Txn σ κ ι ε err α → Prop
  | .ret _ => False
  | .raise _ => True
  | .input next => ∀ i, (next i).Answers R
  | .read _ next => ∀ db, (∃ value, next db = .ret value ∧ R db value) ∨ (next db).Answers R
  | .lock _ _ next => ∀ row, (next row).Answers R
  | .tryLock _ _ next => ∀ row, (next row).Answers R
  | .commit _ next => ∀ i done, (next i done).Answers R
  | .rollback next => next.Answers R

namespace Txn
variable {R : σ → α → Prop}

theorem answers_throw (error : err) : (throw error : Txn σ κ ι ε err α).Answers R := trivial

theorem Answers.mono {p : Txn σ κ ι ε err α} {S : σ → α → Prop} (answers : p.Answers R)
    (weaker : ∀ db value, R db value → S db value) : p.Answers S := by
  induction p with
  | ret value => exact answers
  | raise error => trivial
  | input next ih => exact fun i => ih i (answers i)
  | read seen next ih =>
    intro db
    rcases answers db with ⟨value,same,holds⟩ | later
    · exact .inl ⟨value,same,weaker db value holds⟩
    · exact .inr (ih db later)
  | lock key cond next ih => exact fun row => ih row (answers row)
  | tryLock key cond next ih => exact fun row => ih row (answers row)
  | commit writes next ih => exact fun i done => ih i done (answers i done)
  | rollback next ih => exact ih answers

theorem answers_bind {p : Txn σ κ ι ε err β} {f : β → Txn σ κ ι ε err α}
    (each : ∀ b, (f b).Answers R) : (p >>= f).Answers R := by
  change (p.bind f).Answers R
  induction p with
  | ret value => exact each value
  | raise error => trivial
  | input next ih => exact ih
  | read seen next ih => exact fun db => .inr (ih db)
  | lock key cond next ih => exact ih
  | tryLock key cond next ih => exact ih
  | commit writes next ih => exact ih
  | rollback next ih => exact ih

theorem answers_query {f : σ → β} {g : β → Txn σ κ ι ε err α}
    (each : ∀ db, (∃ value, g (f db) = .ret value ∧ R db value) ∨ (g (f db)).Answers R) :
    (query f >>= g).Answers R := each

/-- What comes right after the last read is read with it. -/
theorem Answers.andThen {p : Txn σ κ ι ε err β} {f : β → Txn σ κ ι ε err α} {S : σ → β → Prop}
    (answers : p.Answers S)
    (each : ∀ db b, S db b → (∃ value, f b = .ret value ∧ R db value) ∨ (f b).Answers R) :
    (p >>= f).Answers R := by
  change (p.bind f).Answers R
  induction p with
  | ret value => exact answers.elim
  | raise error => trivial
  | input next ih => exact fun i => ih i (answers i)
  | read seen next ih =>
    intro db
    rcases answers db with ⟨b,same,holds⟩ | later
    · change (∃ value, (next db).bind f = .ret value ∧ R db value) ∨ ((next db).bind f).Answers R
      rw [same]
      exact each db b holds
    · exact .inr (ih db later)
  | lock key cond next ih => exact fun row => ih row (answers row)
  | tryLock key cond next ih => exact fun row => ih row (answers row)
  | commit writes next ih => exact fun i done => ih i done (answers i done)
  | rollback next ih => exact ih answers

theorem answers_return {p : Txn σ κ ι ε err β} {g : β → α} {R : σ → β → Prop}
    (answers : p.Answers R) :
    (p >>= fun b => return g b).Answers fun db value => ∃ b, value = g b ∧ R db b :=
  answers.andThen fun _ b holds => .inl ⟨g b,rfl,b,rfl,holds⟩

end Txn

section runs
variable [DecidableEq κ] {program : ρ → Txn σ κ ι ε err α} {D : Discipline σ ι ε}
  {start s u : System σ κ ι ε err ρ α} {R : σ → α → Prop}

/-- The value was read in a state of the run. -/
def Read (program : ρ → Txn σ κ ι ε err α) (D : Discipline σ ι ε)
    (start s : System σ κ ι ε err ρ α) (R : σ → α → Prop) (value : α) : Prop :=
  ∃ here, Reach program D start here ∧ Reach program D here s ∧ R here.db value

theorem Read.step {value : α} {action : Action ι err ρ} (read : Read program D start s R value)
    (taken : s.step program action = some u) (admitted : D.admits s u action) :
    Read program D start u R value := by
  obtain ⟨here,before,after,holds⟩ := read
  exact ⟨here,before,.step action after taken admitted,holds⟩

/-- What a session has still to answer, or has answered. -/
def Answering (program : ρ → Txn σ κ ι ε err α) (D : Discipline σ ι ε)
    (start s : System σ κ ι ε err ρ α) (R : σ → α → Prop) :
    Txn σ κ ι ε err α ⊕ Except err α → Prop
  | .inl p => p.Answers R ∨ ∃ value, p = .ret value ∧ Read program D start s R value
  | .inr (.ok value) => Read program D start s R value
  | .inr (.error _) => True

theorem Answering.step {state : Txn σ κ ι ε err α ⊕ Except err α} {action : Action ι err ρ}
    (answering : Answering program D start s R state) (taken : s.step program action = some u)
    (admitted : D.admits s u action) : Answering program D start u R state := by
  cases state with
  | inl p =>
    refine answering.imp id ?_
    rintro ⟨value,same,read⟩
    exact ⟨value,same,read.step taken admitted⟩
  | inr x =>
    cases x with
    | error error => trivial
    | ok value => exact Read.step answering taken admitted

theorem answering_exec {t : Nat} {i : ι} {p : Txn σ κ ι ε err α} {store : Store σ κ ε}
    {state : Txn σ κ ι ε err α ⊕ Except err α} (reach : Reach program D start s)
    (last : Reach program D s u)
    (answering : p.Answers R ∨ ∃ value, p = .ret value ∧ Read program D start u R value)
    (ran : p.exec t i s.store = some (store,state)) : Answering program D start u R state := by
  rcases answering with answers | ⟨value,rfl,read⟩
  · cases p with
    | ret value => exact answers.elim
    | raise error =>
      cases Option.some.inj ran
      trivial
    | input next =>
      cases Option.some.inj ran
      exact .inl (answers i)
    | read seen next =>
      cases Option.some.inj ran
      rcases answers s.db with ⟨value,same,holds⟩ | later
      · exact .inr ⟨value,same,s,reach,last,holds⟩
      · exact .inl later
    | lock key cond next =>
      simp only [Txn.exec] at ran
      split at ran
      · split at ran <;> cases Option.some.inj ran <;> exact .inl (answers _)
      · cases ran
    | tryLock key cond next =>
      simp only [Txn.exec] at ran
      split at ran
      · split at ran <;> cases Option.some.inj ran <;> exact .inl (answers _)
      · cases Option.some.inj ran
        exact .inl (answers _)
    | commit writes next =>
      simp only [Txn.exec] at ran
      split at ran <;> cases Option.some.inj ran <;> exact .inl (answers _ _)
    | rollback next =>
      cases Option.some.inj ran
      exact .inl answers
  · cases Option.some.inj ran
    exact read

theorem Reach.answering (reach : Reach program D start s) (idle : ∀ t, start.session t = none)
    {r : ρ} (answers : (program r).Answers R) {t : Nat}
    {state : Txn σ κ ι ε err α ⊕ Except err α} (present : s.session t = some ⟨r,state⟩) :
    Answering program D start s R state := by
  refine reach.session_rule (Q := fun s state => Answering program D start s R state) idle
    ?_ ?_ ?_ ?_ present
  · intro a before absent
    exact .inl answers
  · intro a i p store state before running answering ran taken admitted
    have later : Reach program D a _ := .step _ .refl taken admitted
    exact answering_exec before later (Answering.step answering taken admitted) ran
  · intros
    trivial
  · intro a action b state before other answering taken admitted
    exact answering.step taken admitted

/-- Session `t` has the value `r` is answered with, whether or not it has ended. -/
def Replies (s : System σ κ ι ε err ρ α) (t : Nat) (r : ρ) (value : α) : Prop :=
  s.session t = some ⟨r,.inl (.ret value)⟩ ∨ s.session t = some ⟨r,.inr (.ok value)⟩

theorem Txn.Answers.exec {t : Nat} {i : ι} {p : Txn σ κ ι ε err α} {store store' : Store σ κ ε}
    {state : Txn σ κ ι ε err α ⊕ Except err α} {value : α} (answers : p.Answers R)
    (ran : p.exec t i store = some (store',state))
    (replied : state = .inl (.ret value) ∨ state = .inr (.ok value)) : R store.world.db value := by
  have unanswered : ∀ {q : Txn σ κ ι ε err α}, q.Answers R → state ≠ .inl q := by
    intro q later same
    subst same
    rcases replied with same | same
    · cases same
      exact later
    · cases same
  cases p with
  | ret value => exact answers.elim
  | raise error =>
    cases Option.some.inj ran
    rcases replied with same | same <;> cases same
  | input next =>
    cases Option.some.inj ran
    exact absurd rfl (unanswered (answers i))
  | read seen next =>
    cases Option.some.inj ran
    rcases answers store.world.db with ⟨other,same,holds⟩ | later
    · rw [same] at replied
      rcases replied with same | same
      · cases same
        exact holds
      · cases same
    · exact absurd rfl (unanswered later)
  | lock key cond next =>
    simp only [Txn.exec] at ran
    split at ran
    · split at ran <;> cases Option.some.inj ran <;> exact absurd rfl (unanswered (answers _))
    · cases ran
  | tryLock key cond next =>
    simp only [Txn.exec] at ran
    split at ran
    · split at ran <;> cases Option.some.inj ran <;> exact absurd rfl (unanswered (answers _))
    · cases Option.some.inj ran
      exact absurd rfl (unanswered (answers _))
  | commit writes next =>
    simp only [Txn.exec] at ran
    split at ran <;> cases Option.some.inj ran <;> exact absurd rfl (unanswered (answers _ _))
  | rollback next =>
    cases Option.some.inj ran
    exact absurd rfl (unanswered answers)

theorem Reach.replied_at (reach : Reach program D start s) (idle : ∀ t, start.session t = none)
    {r : ρ} (answers : (program r).Answers R) {action : Action ι err ρ}
    (taken : s.step program action = some u) {t : Nat} {value : α} (replied : Replies u t r value)
    (before : ¬ Replies s t r value) : R s.db value := by
  cases taken_of_step taken with
  | @start v q absent =>
    rcases eq_or_ne t v with rfl | other
    · rcases replied with same | same
      · obtain ⟨rfl,told⟩ := Session.mk.inj (Option.some.inj (put_self.symm.trans same))
        rw [Sum.inl.inj told] at answers
        exact answers.elim
      · cases put_self.symm.trans same
    · exact absurd (replied.imp (put_other other).symm.trans (put_other other).symm.trans) before
  | @exec v i q p store state running ran =>
    rcases eq_or_ne t v with rfl | other
    · have came : q = r ∧ (state = .inl (.ret value) ∨ state = .inr (.ok value)) := by
        rcases replied with same | same <;> cases put_self.symm.trans same
        · exact ⟨rfl,.inl rfl⟩
        · exact ⟨rfl,.inr rfl⟩
      obtain ⟨rfl,came⟩ := came
      rcases reach.answering idle answers running with open_ | ⟨other,rfl,_⟩
      · exact open_.exec ran came
      · cases Option.some.inj ran
        rcases came with same | same <;> cases same
        exact absurd (.inl running) before
    · exact absurd (replied.imp (put_other other).symm.trans (put_other other).symm.trans) before
  | @die v error q p running =>
    rcases eq_or_ne t v with rfl | other
    · rcases replied with same | same <;> cases put_self.symm.trans same
    · exact absurd (replied.imp (put_other other).symm.trans (put_other other).symm.trans) before

/-- What a session returned its query gave in some state of the run. -/
theorem Reach.answered (reach : Reach program D start s) (idle : ∀ t, start.session t = none)
    {r : ρ} (answers : (program r).Answers R) {t : Nat} {value : α}
    (ended : s.session t = some ⟨r,.inr (.ok value)⟩) : Read program D start s R value :=
  reach.answering idle answers ended

end runs
end Relational
