import Mathlib.Data.List.DropRight
import Mathlib.Tactic.IntervalCases

/-! Base 64 with the alphabet for addresses, written with its padding and read the lenient way:
characters of no digit are passed over, and what follows the padding is not read. -/
namespace Codec.Base64

def symbols : List Char :=
  "ABCDEFGHIJKLMNOPQRSTUVWXYZabcdefghijklmnopqrstuvwxyz0123456789-_".toList

def write (sextet : Nat) : Char := symbols.getD sextet 'A'

/-- The digits of both alphabets. -/
def read? (c : Char) : Option Nat :=
  if 'A' ≤ c ∧ c ≤ 'Z' then some (c.toNat - 'A'.toNat)
  else if 'a' ≤ c ∧ c ≤ 'z' then some (c.toNat - 'a'.toNat + 26)
  else if '0' ≤ c ∧ c ≤ '9' then some (c.toNat - '0'.toNat + 52)
  else if c = '-' ∨ c = '+' then some 62
  else if c = '_' ∨ c = '/' then some 63
  else none

theorem read_write {sextet : Nat} (bound : sextet < 64) :
    read? (write sextet) = some sextet ∧ write sextet ≠ '=' := by
  interval_cases sextet <;> decide

/-- The digits of the bytes, without padding. -/
def digits : List UInt8 → List Char
  | first :: second :: third :: rest =>
    write (first.toNat / 4) :: write (first.toNat % 4 * 16 + second.toNat / 16) ::
      write (second.toNat % 16 * 4 + third.toNat / 64) :: write (third.toNat % 64) :: digits rest
  | [first,second] =>
    [write (first.toNat / 4),write (first.toNat % 4 * 16 + second.toNat / 16),
      write (second.toNat % 16 * 4)]
  | [first] => [write (first.toNat / 4),write (first.toNat % 4 * 16)]
  | [] => []

def encode (bytes : List UInt8) : List Char :=
  digits bytes ++ List.replicate ((3 - bytes.length % 3) % 3) '='

/-- The bytes that remain to be read: how many digits of a group of four were read, the bits
of them no byte has taken yet, and how many signs of padding came since the last digit. -/
def decodeFrom (place left pads : Nat) : List Char → Option (List UInt8)
  | [] => if place = 0 then some [] else none
  | c :: rest =>
    if c = '=' then
      if place < 2 then decodeFrom place left pads rest
      else if 4 ≤ place + (pads + 1) then some []
      else decodeFrom place left (pads + 1) rest
    else match read? c with
      | none => decodeFrom place left pads rest
      | some sextet => match place with
        | 0 => decodeFrom 1 sextet 0 rest
        | 1 => (decodeFrom 2 (sextet % 16) 0 rest).map (UInt8.ofNat (left * 4 + sextet / 16) :: ·)
        | 2 => (decodeFrom 3 (sextet % 4) 0 rest).map (UInt8.ofNat (left * 16 + sextet / 4) :: ·)
        | _ => (decodeFrom 0 0 0 rest).map (UInt8.ofNat (left * 64 + sextet) :: ·)

def isAscii (c : Char) : Bool := c.toNat < 128

def decode (text : List Char) : Option (List UInt8) :=
  if text.all isAscii then decodeFrom 0 0 0 text else none

section reading
variable {left pads sextet : Nat} {rest : List Char}

theorem decodeFrom_first (bound : sextet < 64) :
    decodeFrom 0 left pads (write sextet :: rest) = decodeFrom 1 sextet 0 rest := by
  obtain ⟨same,other⟩ := read_write bound
  rw [decodeFrom,if_neg other,same]
  rfl

theorem decodeFrom_second (bound : sextet < 64) : decodeFrom 1 left pads (write sextet :: rest) =
    (decodeFrom 2 (sextet % 16) 0 rest).map (UInt8.ofNat (left * 4 + sextet / 16) :: ·) := by
  obtain ⟨same,other⟩ := read_write bound
  rw [decodeFrom,if_neg other,same]
  rfl

theorem decodeFrom_third (bound : sextet < 64) : decodeFrom 2 left pads (write sextet :: rest) =
    (decodeFrom 3 (sextet % 4) 0 rest).map (UInt8.ofNat (left * 16 + sextet / 4) :: ·) := by
  obtain ⟨same,other⟩ := read_write bound
  rw [decodeFrom,if_neg other,same]
  rfl

theorem decodeFrom_fourth (bound : sextet < 64) : decodeFrom 3 left pads (write sextet :: rest) =
    (decodeFrom 0 0 0 rest).map (UInt8.ofNat (left * 64 + sextet) :: ·) := by
  obtain ⟨same,other⟩ := read_write bound
  rw [decodeFrom,if_neg other,same]
  rfl

end reading

theorem byte_eq (byte : UInt8) {n : Nat} (same : n = byte.toNat) : UInt8.ofNat n = byte := by
  rw [same]
  exact UInt8.ofNat_toNat

theorem decodeFrom_encode (bytes : List UInt8) : decodeFrom 0 0 0 (encode bytes) = some bytes := by
  unfold encode
  induction bytes using digits.induct with
  | case1 first second third rest ih =>
    have one := first.toNat_lt
    have two := second.toNat_lt
    have three := third.toNat_lt
    have padding : (first :: second :: third :: rest).length % 3 = rest.length % 3 := by
      simp only [List.length_cons]
      omega
    rw [padding]
    simp only [digits,List.cons_append]
    rw [decodeFrom_first (by omega),decodeFrom_second (by omega),decodeFrom_third (by omega),
      decodeFrom_fourth (by omega),ih,byte_eq first (by omega),byte_eq second (by omega),
      byte_eq third (by omega)]
    rfl
  | case2 first second =>
    have one := first.toNat_lt
    have two := second.toNat_lt
    simp only [digits,List.cons_append]
    rw [decodeFrom_first (by omega),decodeFrom_second (by omega),decodeFrom_third (by omega),
      byte_eq first (by omega),byte_eq second (by omega)]
    rfl
  | case3 first =>
    have one := first.toNat_lt
    simp only [digits,List.cons_append]
    rw [decodeFrom_first (by omega),decodeFrom_second (by omega),byte_eq first (by omega)]
    rfl
  | case4 => rfl

theorem mem_digits {bytes : List UInt8} {c : Char} (member : c ∈ digits bytes) :
    ∃ sextet < 64, c = write sextet := by
  induction bytes using digits.induct with
  | case1 first second third rest ih =>
    have one := first.toNat_lt
    have two := second.toNat_lt
    simp only [digits,List.mem_cons] at member
    rcases member with rfl | rfl | rfl | rfl | member
    · exact ⟨_,by omega,rfl⟩
    · exact ⟨_,by omega,rfl⟩
    · exact ⟨_,by have := third.toNat_lt; omega,rfl⟩
    · exact ⟨_,by omega,rfl⟩
    · exact ih member
  | case2 first second =>
    have one := first.toNat_lt
    have two := second.toNat_lt
    simp only [digits,List.mem_cons,List.not_mem_nil,or_false] at member
    rcases member with rfl | rfl | rfl
    · exact ⟨_,by omega,rfl⟩
    · exact ⟨_,by omega,rfl⟩
    · exact ⟨_,by omega,rfl⟩
  | case3 first =>
    have one := first.toNat_lt
    simp only [digits,List.mem_cons,List.not_mem_nil,or_false] at member
    rcases member with rfl | rfl
    · exact ⟨_,by omega,rfl⟩
    · exact ⟨_,by omega,rfl⟩
  | case4 => cases member

theorem isAscii_write {sextet : Nat} (bound : sextet < 64) : isAscii (write sextet) = true := by
  interval_cases sextet <;> decide

theorem decode_encode (bytes : List UInt8) : decode (encode bytes) = some bytes := by
  have plain : (encode bytes).all isAscii = true := by
    rw [List.all_eq_true]
    intro c member
    rcases List.mem_append.mp member with digit | padding
    · obtain ⟨sextet,bound,rfl⟩ := mem_digits digit
      exact isAscii_write bound
    · rw [(List.mem_replicate.mp padding).2]
      rfl
  rw [decode,if_pos plain,decodeFrom_encode]

theorem strip_encode (bytes : List UInt8) : (encode bytes).rdropWhile (· = '=') = digits bytes := by
  have last : (digits bytes).rdropWhile (· = '=') = digits bytes := by
    rw [List.rdropWhile_eq_self_iff]
    intro some_ padding
    obtain ⟨sextet,bound,same⟩ := mem_digits (List.getLast_mem some_)
    rw [same,decide_eq_true_eq] at padding
    exact (read_write bound).2 padding
  unfold encode
  generalize (3 - bytes.length % 3) % 3 = count
  induction count with
  | zero => rw [List.replicate_zero,List.append_nil,last]
  | succ count ih =>
    rw [List.replicate_succ',← List.append_assoc,List.rdropWhile_concat_pos _ _ _ (by simp),ih]

theorem pad_digits (bytes : List UInt8) :
    digits bytes ++ List.replicate ((4 - (digits bytes).length % 4) % 4) '=' = encode bytes := by
  have count : (4 - (digits bytes).length % 4) % 4 = (3 - bytes.length % 3) % 3 := by
    induction bytes using digits.induct with
    | case1 first second third rest ih =>
      simp only [digits,List.length_cons]
      omega
    | case2 first second => rfl
    | case3 first => rfl
    | case4 => rfl
  rw [count,encode]

end Codec.Base64
