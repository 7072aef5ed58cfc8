import Mathlib.Algebra.Ring.Nat
import Mathlib.Data.List.Basic

/-! Numbers in a fixed number of digits. What is written of a number below the power of the
width is read back as that number. -/
namespace Codec

/-- The characters of the digits below a base. -/
structure Radix where
  base : Nat
  positive : 0 < base
  write : Nat → Char
  read? : Char → Option Nat
  read_write : ∀ digit < base, read? (write digit) = some digit

namespace Radix
variable (radix : Radix)

/-- The digits of a number with leading zeros. -/
def digits (width n : Nat) : List Char :=
  (List.range width).map fun k => radix.write (n / radix.base ^ (width - 1 - k) % radix.base)

def number? (text : List Char) : Option Nat :=
  text.foldlM (fun n c => (radix.read? c).map (n * radix.base + ·)) 0

/-- A number of so many digits, and the text after it. -/
def take? (width : Nat) (text : List Char) : Option (Nat × List Char) :=
  if width ≤ text.length then (radix.number? (text.take width)).map fun n => (n,text.drop width) else none

variable {radix}

@[simp] theorem length_digits (width n : Nat) : (radix.digits width n).length = width := by
  simp [digits]

theorem number_first {n width first : Nat} (bound : n < radix.base ^ width) (within : first ≤ width) :
    radix.number? ((List.range first).map fun k =>
      radix.write (n / radix.base ^ (width - 1 - k) % radix.base)) = some (n / radix.base ^ (width - first)) := by
  induction first with
  | zero => simp [number?,Nat.div_eq_of_lt bound]
  | succ first ih =>
    have earlier := ih (Nat.le_of_succ_le within)
    unfold number? at earlier ⊢
    rw [List.range_succ,List.map_append,List.foldlM_append,earlier]
    have digit := radix.read_write _ (Nat.mod_lt (n / radix.base ^ (width - 1 - first)) radix.positive)
    have exponent : width - first = width - 1 - first + 1 := by omega
    have last : width - (first + 1) = width - 1 - first := by omega
    have value : n / radix.base ^ (width - first) * radix.base +
        n / radix.base ^ (width - 1 - first) % radix.base = n / radix.base ^ (width - 1 - first) := by
      rw [exponent,pow_succ,← Nat.div_div_eq_div_mul]
      exact Nat.div_add_mod' _ _
    simp [digit,value,last]

theorem number_digits {n width : Nat} (bound : n < radix.base ^ width) :
    radix.number? (radix.digits width n) = some n := by
  have whole := number_first bound (le_refl width)
  rw [Nat.sub_self,pow_zero,Nat.div_one] at whole
  exact whole

theorem take_digits {n width : Nat} (bound : n < radix.base ^ width) (rest : List Char) :
    radix.take? width (radix.digits width n ++ rest) = some (n,rest) := by
  have front : (radix.digits width n ++ rest).take width = radix.digits width n :=
    List.take_left' (length_digits width n)
  have back : (radix.digits width n ++ rest).drop width = rest := List.drop_left' (length_digits width n)
  rw [take?,if_pos (by simp),front,back,number_digits bound]
  rfl

theorem mem_digits {n width : Nat} {c : Char} (member : c ∈ radix.digits width n) :
    ∃ digit < radix.base, c = radix.write digit := by
  obtain ⟨k,_,rfl⟩ := List.mem_map.mp member
  exact ⟨_,Nat.mod_lt _ radix.positive,rfl⟩

end Radix

/-- The text after a character that must come next. -/
def symbol (c : Char) (text : List Char) : Option (List Char) :=
  match text with
  | [] => none
  | first :: rest => if first = c then some rest else none

@[simp] theorem symbol_cons (c : Char) (rest : List Char) : symbol c (c :: rest) = some rest := by
  simp [symbol]

def decimalDigit (n : Nat) : Char := "0123456789".toList.getD n '0'

def decimalValue (c : Char) : Option Nat :=
  if '0' ≤ c ∧ c ≤ '9' then some (c.toNat - '0'.toNat) else none

def decimal : Radix where
  base := 10
  positive := by decide
  write := decimalDigit
  read? := decimalValue
  read_write := by decide

end Codec
