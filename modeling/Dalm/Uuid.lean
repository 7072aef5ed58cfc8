import Dalm.Codec.Digits
import Dalm.Models
import Mathlib.Tactic.IntervalCases

/-! `UUID(text)`, which reads what `str` writes. -/
namespace Dalm.UUID

/-- `text.replace("urn:", "")`. -/
def withoutUrn : List Char → List Char
  | 'u' :: 'r' :: 'n' :: ':' :: rest => withoutUrn rest
  | c :: rest => c :: withoutUrn rest
  | [] => []

/-- `text.replace("uuid:", "")`. -/
def withoutUuid : List Char → List Char
  | 'u' :: 'u' :: 'i' :: 'd' :: ':' :: rest => withoutUuid rest
  | c :: rest => c :: withoutUuid rest
  | [] => []

def isBrace (c : Char) : Bool := c = '{' ∨ c = '}'

/-- `text.strip(chars)`. -/
def strip (chars : Char → Bool) (text : List Char) : List Char :=
  ((text.dropWhile chars).reverse.dropWhile chars).reverse

/-- The zeros of all scripts, each before the nine other decimal digits of its script. -/
def zeros : List Nat := [0x660,0x6f0,0x7c0,0x966,0x9e6,0xa66,0xae6,0xb66,0xbe6,0xc66,0xce6,0xd66,0xde6,0xe50,
  0xed0,0xf20,0x1040,0x1090,0x17e0,0x1810,0x1946,0x19d0,0x1a80,0x1a90,0x1b50,0x1bb0,0x1c40,0x1c50,0xa620,0xa8d0,
  0xa900,0xa9d0,0xa9f0,0xaa50,0xabf0,0xff10,0x104a0,0x10d30,0x11066,0x110f0,0x11136,0x111d0,0x112f0,0x11450,
  0x114d0,0x11650,0x116c0,0x11730,0x118e0,0x11950,0x11c50,0x11d50,0x11da0,0x11f50,0x16a60,0x16ac0,0x16b50,0x1d7ce,
  0x1d7d8,0x1d7e2,0x1d7ec,0x1d7f6,0x1e140,0x1e2f0,0x1e4f0,0x1e950,0x1fbf0]

/-- What `int` reads a character as: a digit of any script as the ASCII digit, a blank outside ASCII as a space. -/
def ascii (c : Char) : Char :=
  if c.toNat < 127 then c
  else if isSpace c then ' '
  else match zeros.find? fun first => first ≤ c.toNat ∧ c.toNat < first + 10 with
    | some first => Char.ofNat ('0'.toNat + (c.toNat - first))
    | none => '?'

def isBlank (c : Char) : Bool := c = ' ' ∨ 9 ≤ c.toNat ∧ c.toNat ≤ 13

def unsigned : List Char → List Char
  | '+' :: rest => rest
  | text => text

/-- The text after `0x`, behind which an underscore may stand. -/
def bareHex : List Char → List Char
  | '0' :: 'x' :: '_' :: rest | '0' :: 'X' :: '_' :: rest | '0' :: 'x' :: rest | '0' :: 'X' :: rest => rest
  | text => text

def digit? (c : Char) : Option Nat :=
  if '0' ≤ c ∧ c ≤ '9' then some (c.toNat - '0'.toNat)
  else if 'a' ≤ c ∧ c ≤ 'f' then some (c.toNat - 'a'.toNat + 10)
  else if 'A' ≤ c ∧ c ≤ 'F' then some (c.toNat - 'A'.toNat + 10)
  else none

def number? (text : List Char) : Option Nat :=
  text.foldlM (fun n c => (digit? c).map (n * 16 + ·)) 0

/-- `int(hex, 16)` of a text without minus signs: single underscores may stand between the digits. -/
def int? (hex : List Char) : Option Nat :=
  let digits := bareHex (unsigned (strip isBlank (hex.map ascii)))
  if (digits.splitOn '_').all (· ≠ []) then number? (digits.filter (· ≠ '_')) else none

def parse (text : List Char) : Option UUID :=
  let digits := (strip isBrace (withoutUuid (withoutUrn text))).filter (· ≠ '-')
  if digits.length ≠ 32 then none
  else (int? digits).bind fun n => if bound : n < 2 ^ 128 then some ⟨n,bound⟩ else none

theorem digit_hexDigit {n : Nat} (bound : n < 16) : digit? (hexDigit n) = some n := by
  interval_cases n <;> rfl

def plain (c : Char) : Bool := c ≠ 'u' ∧ ¬ isBrace c

theorem plain_hexDigit {n : Nat} (bound : n < 16) : plain (hexDigit n) ∧ hexDigit n ≠ '-' := by
  interval_cases n <;> decide

theorem plain_hex {u : UUID} {c : Char} (member : c ∈ u.hex) : plain c ∧ c ≠ '-' := by
  obtain ⟨k,_,rfl⟩ := List.mem_map.mp member
  exact plain_hexDigit (Nat.mod_lt _ (by decide))

theorem plain_str {u : UUID} {c : Char} (member : c ∈ u.str) : plain c := by
  have dash : plain '-' := by decide
  have part : ∀ n m, c ∈ (u.hex.drop n).take m → plain c :=
    fun n m inside => (plain_hex (List.mem_of_mem_drop (List.mem_of_mem_take inside))).1
  simp only [str,List.mem_append,List.mem_cons] at member
  rcases member with (((inside | rfl | inside) | rfl | inside) | rfl | inside) | rfl | inside
  · exact (plain_hex (List.mem_of_mem_take inside)).1
  · exact dash
  · exact part _ _ inside
  · exact dash
  · exact part _ _ inside
  · exact dash
  · exact part _ _ inside
  · exact dash
  · exact (plain_hex (List.mem_of_mem_drop inside)).1

theorem withoutUrn_plain {text : List Char} (all : ∀ c ∈ text, plain c) : withoutUrn text = text := by
  induction text with
  | nil => rfl
  | cons c rest ih =>
    have other : c ≠ 'u' := by
      rintro rfl
      exact absurd (all 'u' List.mem_cons_self) (by decide)
    rw [withoutUrn,ih fun d inside => all d (List.mem_cons_of_mem c inside)]
    simp [other]

theorem withoutUuid_plain {text : List Char} (all : ∀ c ∈ text, plain c) :
    withoutUuid text = text := by
  induction text with
  | nil => rfl
  | cons c rest ih =>
    have other : c ≠ 'u' := by
      rintro rfl
      exact absurd (all 'u' List.mem_cons_self) (by decide)
    rw [withoutUuid,ih fun d inside => all d (List.mem_cons_of_mem c inside)]
    simp [other]

theorem strip_eq_self {chars : Char → Bool} {text : List Char} (none_ : ∀ c ∈ text, chars c = false) :
    strip chars text = text := by
  have kept : ∀ part : List Char, (∀ c ∈ part, chars c = false) → part.dropWhile chars = part := by
    intro part inside
    cases part with
    | nil => rfl
    | cons c rest => exact List.dropWhile_cons_of_neg (by simp [inside c List.mem_cons_self])
  rw [strip,kept text none_,kept _ fun c member => none_ c (List.mem_reverse.mp member),List.reverse_reverse]

theorem groups (u : UUID) : u.str.filter (· ≠ '-') = u.hex := by
  have whole : ∀ part : List Char, (∀ c ∈ part, c ∈ u.hex) → part.filter (· ≠ '-') = part := by
    intro part inside
    exact List.filter_eq_self.mpr fun c member => by simpa using (plain_hex (inside c member)).2
  have first := whole (u.hex.take 8) fun c => List.mem_of_mem_take
  have middle : ∀ n m, ((u.hex.drop n).take m).filter (· ≠ '-') = (u.hex.drop n).take m :=
    fun n m => whole _ fun c member => List.mem_of_mem_drop (List.mem_of_mem_take member)
  have last := whole (u.hex.drop 20) fun c => List.mem_of_mem_drop
  have joined : ∀ n m, (u.hex.drop n).take m ++ u.hex.drop (n + m) = u.hex.drop n := by
    intro n m
    rw [← List.drop_drop,List.take_append_drop]
  simp only [str,List.filter_append,List.filter_cons,first,middle,last,ne_eq,not_true_eq_false,
    decide_false,Bool.false_eq_true,if_false,List.append_assoc]
  rw [joined 16 4,joined 12 4,joined 8 4,List.take_append_drop]

def hexadecimal : Codec.Radix where
  base := 16
  positive := by decide
  write := hexDigit
  read? := digit?
  read_write _ := digit_hexDigit

theorem number_hex (u : UUID) : number? u.hex = some u.val := by
  have read : hexadecimal.number? (hexadecimal.digits 32 u.val) = some u.val :=
    Codec.Radix.number_digits u.isLt
  exact read

theorem unsigned_eq_self {text : List Char} (none_ : '+' ∉ text) : unsigned text = text := by
  unfold unsigned
  split
  · exact absurd List.mem_cons_self none_
  · rfl

theorem bareHex_eq_self {text : List Char} (none_ : 'x' ∉ text ∧ 'X' ∉ text) : bareHex text = text := by
  unfold bareHex
  split
  · exact absurd (List.mem_cons_of_mem _ List.mem_cons_self) none_.1
  · exact absurd (List.mem_cons_of_mem _ List.mem_cons_self) none_.2
  · exact absurd (List.mem_cons_of_mem _ List.mem_cons_self) none_.1
  · exact absurd (List.mem_cons_of_mem _ List.mem_cons_self) none_.2
  · rfl

theorem literal_hexDigit {n : Nat} (bound : n < 16) : ascii (hexDigit n) = hexDigit n ∧
    isBlank (hexDigit n) = false ∧ hexDigit n ∉ ['+','x','X','_'] := by
  interval_cases n <;> decide

theorem int_hex (u : UUID) : int? u.hex = some u.val := by
  have literal : ∀ c ∈ u.hex, ascii c = c ∧ isBlank c = false ∧ c ∉ ['+','x','X','_'] := by
    intro c member
    obtain ⟨k,_,rfl⟩ := List.mem_map.mp member
    exact literal_hexDigit (Nat.mod_lt _ (by decide))
  have absent : ∀ c ∈ ['+','x','X','_'], c ∉ u.hex := fun c own member => (literal c member).2.2 own
  have same : u.hex.map ascii = u.hex := by
    conv_rhs => rw [← List.map_id u.hex]
    exact List.map_congr_left fun c member => (literal c member).1
  have alone : u.hex.splitOn '_' = [u.hex] := List.splitOnP_eq_singleton fun c member => by
    simpa using fun equal : c = '_' => absent '_' (by simp) (equal ▸ member)
  have digits : u.hex.filter (· ≠ '_') = u.hex := List.filter_eq_self.mpr fun c member => by
    simpa using fun equal : c = '_' => absent '_' (by simp) (equal ▸ member)
  have some_ : u.hex ≠ [] := by simp [hex]
  rw [int?,same,strip_eq_self fun c member => (literal c member).2.1,unsigned_eq_self (absent _ (by simp)),
    bareHex_eq_self ⟨absent _ (by simp),absent _ (by simp)⟩]
  simp only [alone,digits]
  rw [if_pos (by simpa using some_),number_hex]

theorem parse_str (u : UUID) : parse u.str = some u := by
  have plain := fun c => plain_str (u := u) (c := c)
  have unbraced : ∀ c ∈ u.str, isBrace c = false := by
    intro c member
    have kept := plain c member
    simp only [UUID.plain,decide_eq_true_eq,Bool.not_eq_true] at kept
    exact kept.2
  have length : u.hex.length = 32 := by simp [hex]
  unfold parse
  simp only [withoutUrn_plain plain,withoutUuid_plain plain,strip_eq_self unbraced,groups,length]
  rw [if_neg (by decide),int_hex u]
  simp

theorem length_str (u : UUID) : u.str.length = 36 := by simp [str,hex]

theorem str_injective : Function.Injective str := by
  intro u v same
  have read := parse_str u
  rw [same,parse_str] at read
  exact (Option.some.inj read).symm

end Dalm.UUID
