import Dalm.Relational.System

/-! Programs that keep notes. What a read showed is noted, what was noted fades with the other
statements, and the one commit of the program goes by the notes. -/
namespace Relational
variable {σ κ ι ε err α β γ : Type} [Lockable σ κ]

namespace Txn

/-- What is noted at a read, what the other statements leave of it, and which raise and which
commit the notes allow. -/
structure Notebook (σ κ ι ε err α γ : Type) [Lockable σ κ] where
  note : σ → γ → γ
  fade : γ → γ
  raises : γ → err → Prop
  commits : γ → Txn σ κ ι ε err α → Prop

/-- With these notes the program raises or commits as the notebook allows, and it returns nothing
before. -/
def Notes (book : Notebook σ κ ι ε err α γ) : γ → Txn σ κ ι ε err α → Prop
  | _,.ret _ => False
  | g,.raise error => book.raises g error
  | g,.input next => ∀ i, (next i).Notes book (book.fade g)
  | g,.read _ next => ∀ db, (next db).Notes book (book.note db g)
  | g,.lock _ _ next => ∀ row, (next row).Notes book (book.fade g)
  | g,.tryLock _ _ next => ∀ row, (next row).Notes book (book.fade g)
  | g,.commit writes next => book.commits g (.commit writes next)
  | g,.rollback next => next.Notes book (book.fade g)

/-- Whether the next statement is a commit. -/
def isCommit : Txn σ κ ι ε err α → Bool
  | .commit _ _ => true
  | _ => false

variable {book : Notebook σ κ ι ε err α γ} {g : γ}

/-- What a statement makes of a session with notes, as long as it has not committed. -/
inductive Noted (book : Notebook σ κ ι ε err α γ) (g : γ) (db : σ) (p : Txn σ κ ι ε err α) :
    Txn σ κ ι ε err α ⊕ Except err α → Prop where
  | read {q : Txn σ κ ι ε err α} (notes : q.Notes book (book.note db g)) : Noted book g db p (.inl q)
  | other {q : Txn σ κ ι ε err α} (notes : q.Notes book (book.fade g)) : Noted book g db p (.inl q)
  | raised {error : err} (same : p = .raise error) (raises : book.raises g error) :
    Noted book g db p (.inr (.error error))

theorem Notes.exec [DecidableEq κ] {t : Nat} {i : ι} {p : Txn σ κ ι ε err α} {store store' : Store σ κ ε}
    {state : Txn σ κ ι ε err α ⊕ Except err α} (notes : p.Notes book g)
    (ran : p.exec t i store = some (store',state)) (open_ : p.isCommit = false) :
    store'.world.db = store.world.db ∧ Noted book g store.world.db p state := by
  cases p with
  | ret value => exact notes.elim
  | raise error =>
    cases Option.some.inj ran
    exact ⟨rfl,.raised rfl notes⟩
  | input next =>
    cases Option.some.inj ran
    exact ⟨rfl,.other (notes i)⟩
  | read seen next =>
    cases Option.some.inj ran
    exact ⟨rfl,.read (notes store.world.db)⟩
  | lock key cond next =>
    simp only [Txn.exec] at ran
    split at ran
    · split at ran <;> cases Option.some.inj ran <;> exact ⟨rfl,.other (notes _)⟩
    · cases ran
  | tryLock key cond next =>
    simp only [Txn.exec] at ran
    split at ran
    · split at ran <;> cases Option.some.inj ran <;> exact ⟨rfl,.other (notes _)⟩
    · cases Option.some.inj ran
      exact ⟨rfl,.other (notes _)⟩
  | commit writes next => cases open_
  | rollback next =>
    cases Option.some.inj ran
    exact ⟨rfl,.other notes⟩

/-- A commit takes effect, or the program goes on from where it was. -/
theorem exec_commit [DecidableEq κ] {t : Nat} {i : ι} {writes : ι → σ → Option (σ × List ε)}
    {next : ι → Bool → Txn σ κ ι ε err α} {store store' : Store σ κ ε}
    {state : Txn σ κ ι ε err α ⊕ Except err α}
    (ran : (Txn.commit writes next).exec t i store = some (store',state)) :
    (∃ db events, writes i store.world.db = some (db,events) ∧ store'.world.db = db ∧
      state = .inl (next i true)) ∨
    (writes i store.world.db = none ∧ store' = store ∧ state = .inl (next i false)) := by
  simp only [Txn.exec] at ran
  split at ran
  next db events written =>
    cases Option.some.inj ran
    exact .inl ⟨db,events,written,rfl,rfl⟩
  next refused =>
    cases Option.some.inj ran
    exact .inr ⟨refused,rfl,rfl⟩

/-- Programs that neither commit nor raise. -/
def Gathers : Txn σ κ ι ε err α → Prop
  | .ret _ => True
  | .raise _ => False
  | .input next => ∀ i, (next i).Gathers
  | .read _ next => ∀ db, (next db).Gathers
  | .lock _ _ next => ∀ row, (next row).Gathers
  | .tryLock _ _ next => ∀ row, (next row).Gathers
  | .commit _ _ => False
  | .rollback next => next.Gathers

theorem gathers_bind {p : Txn σ κ ι ε err β} {f : β → Txn σ κ ι ε err α} (gathers : p.Gathers)
    (each : ∀ b, (f b).Gathers) : (p >>= f).Gathers := by
  change (p.bind f).Gathers
  induction p with
  | ret value => exact each value
  | raise error => exact gathers.elim
  | input next ih => exact fun i => ih i (gathers i)
  | read seen next ih => exact fun db => ih db (gathers db)
  | lock key cond next ih => exact fun row => ih row (gathers row)
  | tryLock key cond next ih => exact fun row => ih row (gathers row)
  | commit writes next ih => exact gathers.elim
  | rollback next ih => exact ih gathers

theorem notes_bind {p : Txn σ κ ι ε err β} {f : β → Txn σ κ ι ε err α} (gathers : p.Gathers)
    (each : ∀ b g, (f b).Notes book g) : (p >>= f).Notes book g := by
  change (p.bind f).Notes book g
  induction p generalizing g with
  | ret value => exact each value g
  | raise error => exact gathers.elim
  | input next ih => exact fun i => ih i (gathers i)
  | read seen next ih => exact fun db => ih db (gathers db)
  | lock key cond next ih => exact fun row => ih row (gathers row)
  | tryLock key cond next ih => exact fun row => ih row (gathers row)
  | commit writes next ih => exact gathers.elim
  | rollback next ih => exact ih gathers

end Txn
end Relational
