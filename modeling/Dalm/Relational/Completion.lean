import Dalm.Relational.System

/-! Programs that return once they have told an event. A session of one that ended in an
error either told nothing of the kind, or died after it had: the program itself does not
fail any more. -/
namespace Relational
variable {σ κ ι ε err ρ α β : Type} [Lockable σ κ]

namespace Txn

/-- On databases in which `F` holds the program returns. -/
def Returns (F : σ → Prop) : Txn σ κ ι ε err α → Prop
  | .ret _ => True
  | .raise _ => False
  | .input next => ∀ i, (next i).Returns F
  | .read _ next => ∀ db, F db → (next db).Returns F
  | .lock _ _ next => ∀ row, (next row).Returns F
  | .tryLock _ _ next => ∀ row, (next row).Returns F
  | .commit _ _ => False
  | .rollback next => next.Returns F

/-- A commit that tells an event of the kind `E` leaves `F`, and then the program returns. -/
def Completes (E : ε → Prop) (F : σ → Prop) : Txn σ κ ι ε err α → Prop
  | .ret _ => True
  | .raise _ => True
  | .input next => ∀ i, (next i).Completes E F
  | .read seen next => ∀ db, (∀ event ∈ seen db, ¬ E event) ∧ (next db).Completes E F
  | .lock _ _ next => ∀ row, (next row).Completes E F
  | .tryLock _ _ next => ∀ row, (next row).Completes E F
  | .commit writes next => ∀ i, (next i false).Completes E F ∧ ∀ db db' events,
      writes i db = some (db',events) →
      ((∀ event ∈ events, ¬ E event) ∧ (next i true).Completes E F) ∨
        (F db' ∧ (next i true).Returns F)
  | .rollback next => next.Completes E F

variable {E : ε → Prop} {F : σ → Prop}

/-- Programs that tell nothing of the kind `E`. -/
def Quiet (E : ε → Prop) : Txn σ κ ι ε err α → Prop
  | .ret _ => True
  | .raise _ => True
  | .input next => ∀ i, (next i).Quiet E
  | .read seen next => ∀ db, (∀ event ∈ seen db, ¬ E event) ∧ (next db).Quiet E
  | .lock _ _ next => ∀ row, (next row).Quiet E
  | .tryLock _ _ next => ∀ row, (next row).Quiet E
  | .commit writes next => ∀ i, (next i false).Quiet E ∧ ∀ db db' events,
      writes i db = some (db',events) → (∀ event ∈ events, ¬ E event) ∧ (next i true).Quiet E
  | .rollback next => next.Quiet E

theorem completes_bind {p : Txn σ κ ι ε err β} {f : β → Txn σ κ ι ε err α} (quiet : p.Quiet E)
    (each : ∀ b, (f b).Completes E F) : (p >>= f).Completes E F := by
  change (p.bind f).Completes E F
  induction p with
  | ret value => exact each value
  | raise error => trivial
  | input next ih => exact fun i => ih i (quiet i)
  | read seen next ih => exact fun db => ⟨(quiet db).1,ih db (quiet db).2⟩
  | lock key cond next ih => exact fun row => ih row (quiet row)
  | tryLock key cond next ih => exact fun row => ih row (quiet row)
  | commit writes next ih =>
    refine fun i => ⟨ih i false (quiet i).1,fun db db' events written => .inl ?_⟩
    obtain ⟨nothing,rest⟩ := (quiet i).2 db db' events written
    exact ⟨nothing,ih i true rest⟩
  | rollback next ih => exact ih quiet

theorem returns_map {p : Txn σ κ ι ε err β} {g : β → α} (returns : p.Returns F) :
    (p >>= fun b => return g b).Returns F := by
  change (p.bind fun b => .ret (g b)).Returns F
  induction p with
  | ret value => trivial
  | raise error => exact returns.elim
  | input next ih => exact fun i => ih i (returns i)
  | read seen next ih => exact fun db holds => ih db (returns db holds)
  | lock key cond next ih => exact fun row => ih row (returns row)
  | tryLock key cond next ih => exact fun row => ih row (returns row)
  | commit writes next ih => exact returns.elim
  | rollback next ih => exact ih returns

theorem completes_map {p : Txn σ κ ι ε err β} {g : β → α} (completes : p.Completes E F) :
    (p >>= fun b => return g b).Completes E F := by
  change (p.bind fun b => .ret (g b)).Completes E F
  induction p with
  | ret value => trivial
  | raise error => trivial
  | input next ih => exact fun i => ih i (completes i)
  | read seen next ih => exact fun db => ⟨(completes db).1,ih db (completes db).2⟩
  | lock key cond next ih => exact fun row => ih row (completes row)
  | tryLock key cond next ih => exact fun row => ih row (completes row)
  | commit writes next ih =>
    refine fun i => ⟨ih i false (completes i).1,fun db db' events written => ?_⟩
    rcases (completes i).2 db db' events written with ⟨nothing,rest⟩ | ⟨holds,rest⟩
    · exact .inl ⟨nothing,ih i true rest⟩
    · exact .inr ⟨holds,returns_map rest⟩
  | rollback next ih => exact ih completes

theorem quiet_bind {p : Txn σ κ ι ε err β} {f : β → Txn σ κ ι ε err α} (quiet : p.Quiet E)
    (each : ∀ b, (f b).Quiet E) : (p >>= f).Quiet E := by
  change (p.bind f).Quiet E
  induction p with
  | ret value => exact each value
  | raise error => trivial
  | input next ih => exact fun i => ih i (quiet i)
  | read seen next ih => exact fun db => ⟨(quiet db).1,ih db (quiet db).2⟩
  | lock key cond next ih => exact fun row => ih row (quiet row)
  | tryLock key cond next ih => exact fun row => ih row (quiet row)
  | commit writes next ih =>
    refine fun i => ⟨ih i false (quiet i).1,fun db db' events written => ?_⟩
    obtain ⟨nothing,rest⟩ := (quiet i).2 db db' events written
    exact ⟨nothing,ih i true rest⟩
  | rollback next ih => exact ih quiet

theorem quiet_query (f : σ → α) : (query f : Txn σ κ ι ε err α).Quiet E :=
  fun _ => ⟨fun _ member => (List.not_mem_nil member).elim,trivial⟩

theorem quiet_supply : (supply : Txn σ κ ι ε err ι).Quiet E := fun _ => trivial

theorem quiet_lockEach {key : β → κ} {cond : (b : β) → Lockable.Row σ (key b) → Bool} (bs : List β) :
    (lockEach key cond bs : Txn σ κ ι ε err _).Quiet E := by
  induction bs with
  | nil => trivial
  | cons b bs ih => exact fun row => quiet_bind ih fun rows => trivial

theorem quiet_firstUnlocked {key : β → κ} {cond : (b : β) → Lockable.Row σ (key b) → Bool} (bs : List β) :
    (firstUnlocked key cond bs : Txn σ κ ι ε err _).Quiet E := by
  induction bs with
  | nil => trivial
  | cons b bs ih =>
    intro row
    cases row with
    | none => exact ih
    | some row => trivial

theorem quiet_rescue {p : Txn σ κ ι ε err α} {handler : err → Txn σ κ ι ε err α} (quiet : p.Quiet E)
    (each : ∀ error, (handler error).Quiet E) : (tryCatch p handler : Txn σ κ ι ε err α).Quiet E := by
  change (p.rescue handler).Quiet E
  induction p with
  | ret value => trivial
  | raise error => exact each error
  | input next ih => exact fun i => ih i (quiet i)
  | read seen next ih => exact fun db => ⟨(quiet db).1,ih db (quiet db).2⟩
  | lock key cond next ih => exact fun row => ih row (quiet row)
  | tryLock key cond next ih => exact fun row => ih row (quiet row)
  | commit writes next ih =>
    refine fun i => ⟨ih i false (quiet i).1,fun db db' events written => ?_⟩
    obtain ⟨nothing,rest⟩ := (quiet i).2 db db' events written
    exact ⟨nothing,ih i true rest⟩
  | rollback next ih => exact ih quiet

theorem quiet_commitOr {failure : err} {writes : ι → σ → Option (σ × List ε)}
    (each : ∀ i db db' events, writes i db = some (db',events) → ∀ event ∈ events, ¬ E event) :
    (commitOr failure writes : Txn σ κ ι ε err ι).Quiet E :=
  fun i => ⟨trivial,fun db db' events written => ⟨each i db db' events written,trivial⟩⟩

end Txn

section runs
variable [DecidableEq κ] {program : ρ → Txn σ κ ι ε err α} {D : Discipline σ ι ε}
  {start s u : System σ κ ι ε err ρ α} {E : ε → Prop} {F : σ → Prop} {t : Nat}

/-- Session `t` has told an event of the kind. -/
def Heard (E : ε → Prop) (t : Nat) (log : List (Nat × ε)) : Prop := ∃ event, (t,event) ∈ log ∧ E event

/-- Session `t` failed after it had told an event of the kind. -/
def DiesAfter (program : ρ → Txn σ κ ι ε err α) (D : Discipline σ ι ε)
    (start s : System σ κ ι ε err ρ α) (E : ε → Prop) (t : Nat) : Prop :=
  ∃ a b error, Reach program D start a ∧ Heard E t a.world.log ∧
    a.step program (.die t error) = some b ∧ Reach program D b s

/-- Where a session is with respect to the events of the kind. -/
def Completing (program : ρ → Txn σ κ ι ε err α) (D : Discipline σ ι ε)
    (start s : System σ κ ι ε err ρ α) (E : ε → Prop) (F : σ → Prop) (t : Nat) :
    Txn σ κ ι ε err α ⊕ Except err α → Prop
  | .inl p => (¬ Heard E t s.world.log ∧ p.Completes E F) ∨ (F s.db ∧ p.Returns F)
  | .inr (.ok _) => True
  | .inr (.error _) => ¬ Heard E t s.world.log ∨ DiesAfter program D start s E t

omit [Lockable σ κ] [DecidableEq κ] in
theorem heard_append {log : List (Nat × ε)} {v : Nat} {events : List ε}
    (silent : v = t → ∀ event ∈ events, ¬ E event) :
    Heard E t (log ++ events.map fun event => (v,event)) ↔ Heard E t log := by
  constructor
  · intro told
    obtain ⟨event,member,kind⟩ := told
    rcases List.mem_append.mp member with before | new
    · exact ⟨event,before,kind⟩
    · obtain ⟨other,inside,same⟩ := List.mem_map.mp new
      cases same
      exact absurd kind (silent rfl event inside)
  · intro told
    obtain ⟨event,member,kind⟩ := told
    exact ⟨event,List.mem_append_left _ member,kind⟩

theorem Completing.step {state : Txn σ κ ι ε err α ⊕ Except err α} {action : Action ι err ρ}
    (completing : Completing program D start s E F t state)
    (stable : F s.db → F u.db) (silent : Heard E t u.world.log ↔ Heard E t s.world.log)
    (taken : s.step program action = some u) (admitted : D.admits s u action) :
    Completing program D start u E F t state := by
  cases state with
  | inl p =>
    rcases completing with ⟨quiet,completes⟩ | ⟨holds,returns⟩
    · exact .inl ⟨fun told => quiet (silent.mp told),completes⟩
    · exact .inr ⟨stable holds,returns⟩
  | inr x =>
    cases x with
    | ok value => trivial
    | error error =>
      rcases completing with quiet | dies
      · exact .inl fun told => quiet (silent.mp told)
      · obtain ⟨a,b,error,before,told,died,after⟩ := dies
        exact .inr ⟨a,b,error,before,told,died,.step action after taken admitted⟩

theorem completing_exec {i : ι} {p : Txn σ κ ι ε err α} {store : Store σ κ ε}
    {state : Txn σ κ ι ε err α ⊕ Except err α} {session : Nat → Option (Session σ κ ι ε err ρ α)}
    (stable : F s.db → F store.world.db)
    (completing : Completing program D start s E F t (.inl p))
    (ran : p.exec t i s.store = some (store,state)) :
    Completing program D start ⟨store,session⟩ E F t state := by
  cases p with
  | ret value =>
    cases Option.some.inj ran
    trivial
  | raise error =>
    cases Option.some.inj ran
    rcases completing with ⟨quiet,_⟩ | ⟨_,returns⟩
    · exact .inl quiet
    · exact returns.elim
  | input next =>
    cases Option.some.inj ran
    exact completing.imp (And.imp_right fun each => each i) (And.imp_right fun each => each i)
  | read seen next =>
    cases Option.some.inj ran
    rcases completing with ⟨quiet,each⟩ | ⟨holds,returns⟩
    · obtain ⟨nothing,rest⟩ := each s.db
      exact .inl ⟨fun told => quiet ((heard_append fun _ => nothing).mp told),rest⟩
    · exact .inr ⟨holds,returns s.db holds⟩
  | lock key cond next =>
    simp only [Txn.exec] at ran
    split at ran
    · split at ran <;> cases Option.some.inj ran <;>
        exact completing.imp (And.imp_right fun each => each _) (And.imp_right fun each => each _)
    · cases ran
  | tryLock key cond next =>
    simp only [Txn.exec] at ran
    split at ran
    · split at ran <;> cases Option.some.inj ran <;>
        exact completing.imp (And.imp_right fun each => each _) (And.imp_right fun each => each _)
    · cases Option.some.inj ran
      exact completing.imp (And.imp_right fun each => each _) (And.imp_right fun each => each _)
  | commit writes next =>
    rcases completing with ⟨quiet,each⟩ | ⟨_,returns⟩
    · obtain ⟨refused,committed⟩ := each i
      simp only [Txn.exec] at ran
      split at ran
      next db events written =>
        cases Option.some.inj ran
        rcases committed _ db events written with ⟨nothing,rest⟩ | ⟨holds,returns⟩
        · exact .inl ⟨fun told => quiet ((heard_append fun _ => nothing).mp told),rest⟩
        · exact .inr ⟨holds,returns⟩
      next =>
        cases Option.some.inj ran
        exact .inl ⟨quiet,refused⟩
    · exact returns.elim
  | rollback next =>
    cases Option.some.inj ran
    exact completing

theorem Reach.completing (reach : Reach program D start s) (idle : ∀ t, start.session t = none)
    (silent : start.world.log = [])
    (stable : ∀ a action b, Reach program D start a → a.step program action = some b → F a.db → F b.db)
    {r : ρ} (completes : (program r).Completes E F) {state : Txn σ κ ι ε err α ⊕ Except err α}
    (present : s.session t = some ⟨r,state⟩) : Completing program D start s E F t state := by
  refine reach.session_rule (Q := fun s state => Completing program D start s E F t state) idle
    ?_ ?_ ?_ ?_ present
  · intro a before absent
    refine .inl ⟨fun told => ?_,completes⟩
    obtain ⟨event,member,_⟩ := told
    exact before.unheard silent absent _ member rfl
  · intro a i p store state before _ completing ran taken _
    exact completing_exec (stable a _ _ before taken) completing ran
  · intro a b error p before completing died same admitted
    by_cases told : Heard E t a.world.log
    · exact .inr ⟨a,b,error,before,told,died,.refl⟩
    · exact .inl (same ▸ told)
  · intro a action b state before other completing taken admitted
    refine completing.step (stable a action b before taken) ?_ taken admitted
    cases Reach.taken_of_step taken with
    | start => rfl
    | exec running ran =>
      obtain ⟨events,same⟩ := Reach.exec_appends ran
      refine iff_of_eq (congrArg (Heard E t) same) |>.trans ?_
      exact heard_append fun equal => absurd equal other
    | die => rfl

/-- A session whose program completes failed early, or died late. -/
theorem Reach.failed_iff (reach : Reach program D start s) (idle : ∀ t, start.session t = none)
    (silent : start.world.log = [])
    (stable : ∀ a action b, Reach program D start a → a.step program action = some b → F a.db → F b.db)
    {r : ρ} (completes : (program r).Completes E F) {x : Except err α}
    (ended : s.session t = some ⟨r,.inr x⟩) :
    (∃ error, x = .error error) ∧ Heard E t s.world.log ↔ DiesAfter program D start s E t := by
  constructor
  · intro failed
    obtain ⟨⟨error,rfl⟩,told⟩ := failed
    exact (reach.completing idle silent stable completes ended).resolve_left fun quiet => quiet told
  · intro dies
    obtain ⟨a,b,error,before,told,died,after⟩ := dies
    have stays : ∃ q error, b.session t = some ⟨q,.inr (.error error)⟩ ∧ b.world.log = a.world.log := by
      cases Reach.taken_of_step died with
      | die running => exact ⟨_,error,Reach.put_self,rfl⟩
    obtain ⟨q,error,there,same⟩ := stays
    cases ended.symm.trans (after.ended_stays there)
    obtain ⟨event,member,kind⟩ := told
    exact ⟨⟨error,rfl⟩,event,after.log_grows.subset (same ▸ member),kind⟩

end runs
end Relational
