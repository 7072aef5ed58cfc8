import Mathlib.Data.List.Basic

/-! Transaction programs. A program is the tree of its statements: every statement
names what it needs of the database, and its continuation takes what the database
answered. Nothing is said here of who else runs; that is the system's part. -/
namespace Relational

/-- Rows that can be locked one by one, each addressed by a key. -/
class Lockable (σ : Type) (κ : outParam Type) where
  Row : κ → Type
  view : (key : κ) → σ → Option (Row key)

/-- `σ` is the committed database, `ι` what the environment supplies (clock readings,
fresh identifiers, row orders), `ε` the events of the history, `err` the exceptions. -/
inductive Txn (σ κ ι ε err : Type) [Lockable σ κ] (α : Type) where
  | ret (value : α)
  | raise (error : err)
  | input (next : ι → Txn σ κ ι ε err α)
  /-- One plain SELECT: it takes no lock and reads what is committed now. -/
  | read (seen : σ → List ε) (next : σ → Txn σ κ ι ε err α)
  /-- One row of a SELECT ... FOR UPDATE or of an UPDATE: it waits for the row, checks
  the condition on the committed value it then has, and holds the row until the end. -/
  | lock (key : κ) (cond : Lockable.Row σ key → Bool)
      (next : Option (Lockable.Row σ key) → Txn σ κ ι ε err α)
  /-- One row under SKIP LOCKED: a row held by somebody else is passed over. -/
  | tryLock (key : κ) (cond : Lockable.Row σ key → Bool)
      (next : Option (Lockable.Row σ key) → Txn σ κ ι ε err α)
  /-- Flush and COMMIT: `none` is an integrity error and writes nothing. -/
  | commit (writes : ι → σ → Option (σ × List ε)) (next : ι → Bool → Txn σ κ ι ε err α)
  | rollback (next : Txn σ κ ι ε err α)

namespace Txn
variable {σ κ ι ε err α β : Type} [Lockable σ κ]

def bind : Txn σ κ ι ε err α → (α → Txn σ κ ι ε err β) → Txn σ κ ι ε err β
  | .ret value, f => f value
  | .raise error, _ => .raise error
  | .input next, f => .input fun i => (next i).bind f
  | .read seen next, f => .read seen fun db => (next db).bind f
  | .lock key cond next, f => .lock key cond fun row => (next row).bind f
  | .tryLock key cond next, f => .tryLock key cond fun row => (next row).bind f
  | .commit writes next, f => .commit writes fun i done => (next i done).bind f
  | .rollback next, f => .rollback (next.bind f)

/-- `try ... except`: the handler continues where the exception was raised. -/
def rescue : Txn σ κ ι ε err α → (err → Txn σ κ ι ε err α) → Txn σ κ ι ε err α
  | .ret value, _ => .ret value
  | .raise error, handler => handler error
  | .input next, handler => .input fun i => (next i).rescue handler
  | .read seen next, handler => .read seen fun db => (next db).rescue handler
  | .lock key cond next, handler => .lock key cond fun row => (next row).rescue handler
  | .tryLock key cond next, handler => .tryLock key cond fun row => (next row).rescue handler
  | .commit writes next, handler => .commit writes fun i done => (next i done).rescue handler
  | .rollback next, handler => .rollback (next.rescue handler)

theorem bind_assoc {γ : Type} (p : Txn σ κ ι ε err α) (f : α → Txn σ κ ι ε err β)
    (g : β → Txn σ κ ι ε err γ) : (p.bind f).bind g = p.bind fun value => (f value).bind g := by
  induction p with
  | ret value => rfl
  | raise error => rfl
  | input next ih => simp only [bind,ih]
  | read seen next ih => simp only [bind,ih]
  | lock key cond next ih => simp only [bind,ih]
  | tryLock key cond next ih => simp only [bind,ih]
  | commit writes next ih => simp only [bind,ih]
  | rollback next ih => simp only [bind,ih]

instance : Monad (Txn σ κ ι ε err) where
  pure := .ret
  bind := bind

instance : MonadExceptOf err (Txn σ κ ι ε err) where
  throw := .raise
  tryCatch := rescue

/-- What the environment supplies at this point: a clock reading, an order of rows. -/
def supply : Txn σ κ ι ε err ι := .input .ret

def query (f : σ → α) : Txn σ κ ι ε err α := .read (fun _ => []) fun db => .ret (f db)

/-- A SELECT whose answer is recorded in the history. -/
def observe (event : σ → ε) (f : σ → α) : Txn σ κ ι ε err α :=
  .read (fun db => [event db]) fun db => .ret (f db)

def selectForUpdate (key : κ) : Txn σ κ ι ε err (Option (Lockable.Row σ key)) :=
  .lock key (fun _ => true) .ret

def undo : Txn σ κ ι ε err Unit := .rollback (.ret ())

/-- COMMIT, with the integrity error raised; it answers the identifiers the flush drew. -/
def commitOr (failure : err) (writes : ι → σ → Option (σ × List ε)) : Txn σ κ ι ε err ι :=
  .commit writes fun i done => if done then .ret i else .raise failure

/-- The rows of one UPDATE ... WHERE or SELECT ... FOR UPDATE, taken one after the other. -/
def lockEach (key : β → κ) (cond : (b : β) → Lockable.Row σ (key b) → Bool) :
    List β → Txn σ κ ι ε err (List ((b : β) × Lockable.Row σ (key b)))
  | [] => .ret []
  | b :: rest => .lock (key b) (cond b) fun row => do
      let rows ← lockEach key cond rest
      return (match row with
        | some row => ⟨b,row⟩ :: rows
        | none => rows)

/-- FOR UPDATE SKIP LOCKED LIMIT 1 over the rows the snapshot listed. -/
def firstUnlocked (key : β → κ) (cond : (b : β) → Lockable.Row σ (key b) → Bool) :
    List β → Txn σ κ ι ε err (Option ((b : β) × Lockable.Row σ (key b)))
  | [] => .ret none
  | b :: rest => .tryLock (key b) (cond b) fun
      | some row => .ret (some ⟨b,row⟩)
      | none => firstUnlocked key cond rest

end Txn
end Relational
