import Dalm.Codec.Base64
import Dalm.Codec.DateTime
import Dalm.App
import Dalm.Uuid

/-! The cursor of a list: the timestamp and the id of a row in ISO form, in base 64 without
padding. Every cursor that was written is read back. -/
namespace Dalm
open Relational Codec

def invalidCursor : Exc := .api ⟨422,.invalidCursor,"cursor 형식이 올바르지 않습니다."⟩

/-- `text.encode()`. -/
def utf8Encode (text : List Char) : List UInt8 := (String.ofList text).toUTF8.data.toList

/-- `bytes.decode()`; `none` is the UnicodeDecodeError. -/
def utf8Decode (bytes : List UInt8) : Option (List Char) :=
  (ByteArray.mk bytes.toArray).utf8Decode?.map Array.toList

/-- `text.split(c, 1)` in two; `none` where the character does not occur. -/
def splitOnce (c : Char) (text : List Char) : Option (List Char × List Char) :=
  match text.dropWhile (· ≠ c) with
  | [] => none
  | _ :: rest => some (text.takeWhile (· ≠ c),rest)

def encodeCursor (registeredAt : DateTime) (photoId : UUID) : List Char :=
  (Base64.encode (utf8Encode (registeredAt.isoformat ++ '|' :: photoId.str))).rdropWhile (· = '=')

/-- The `try` of `decode_cursor`. -/
def readCursor (others : List Char → Option DateTime) (value : List Char) : Option (DateTime × UUID) := do
  let padded := value ++ List.replicate ((4 - value.length % 4) % 4) '='
  let bytes ← Base64.decode padded
  let text ← utf8Decode bytes
  let (timestamp,photoId) ← splitOnce '|' text
  let parsed ← DateTime.fromisoformat others timestamp
  if parsed.isAware then
    let id ← UUID.parse photoId
    return (parsed,id)
  else none

def decodeCursor (others : List Char → Option DateTime) (value : Option (List Char)) :
    Except Exc (Option (DateTime × UUID)) :=
  match value with
  | none => .ok none
  | some value =>
    match readCursor others value with
    | none => .error invalidCursor
    | some cursor => .ok (some cursor)

theorem utf8Decode_utf8Encode (text : List Char) : utf8Decode (utf8Encode text) = some text := by
  have bytes : (String.ofList text).toUTF8 = text.utf8Encode := rfl
  have whole : ByteArray.mk (text.utf8Encode.data.toList).toArray = text.utf8Encode := by
    rw [Array.toArray_toList]
  rw [utf8Decode,utf8Encode,bytes,whole,List.utf8Decode?_utf8Encode]
  simp

/-- Without the bar that stands between timestamp and id. -/
def Plain (text : List Char) : Prop := ∀ c ∈ text, c ≠ '|'

theorem splitOnce_append {front : List Char} (plain : Plain front) (rest : List Char) :
    splitOnce '|' (front ++ '|' :: rest) = some (front,rest) := by
  have passes : ∀ d ∈ front, decide (d ≠ '|') = true := fun d member => decide_eq_true (plain d member)
  rw [splitOnce,List.dropWhile_append_of_pos passes,List.takeWhile_append_of_pos passes]
  simp

section plain

theorem plain_nil : Plain [] := fun _ member => nomatch member

theorem plain_append {first second : List Char} : Plain (first ++ second) ↔ Plain first ∧ Plain second :=
  List.forall_mem_append

theorem plain_cons {c : Char} {text : List Char} : Plain (c :: text) ↔ c ≠ '|' ∧ Plain text :=
  List.forall_mem_cons

theorem plain_digits (width n : Nat) : Plain (decimal.digits width n) := by
  intro c member
  obtain ⟨digit,bound,rfl⟩ := Radix.mem_digits member
  have each : ∀ digit < 10, decimalDigit digit ≠ '|' := by decide
  exact each digit bound

theorem plain_fractionText (microsecond : Nat) : Plain (DateTime.fractionText microsecond) := by
  unfold DateTime.fractionText
  split
  · exact plain_nil
  · exact plain_cons.mpr ⟨by decide,plain_digits 6 microsecond⟩

theorem plain_offsetText (span : Nat) : Plain (DateTime.offsetText span) := by
  unfold DateTime.offsetText
  split
  · simp [plain_append,plain_cons,plain_digits]
  · simp [plain_append,plain_cons,plain_digits,plain_fractionText]

theorem plain_zoneText (utcoffset : Option Int) : Plain (DateTime.zoneText utcoffset) := by
  cases utcoffset with
  | none => exact plain_nil
  | some offset =>
    have signs : DateTime.sign offset ≠ '|' := by
      unfold DateTime.sign
      split <;> decide
    exact plain_cons.mpr ⟨signs,plain_offsetText _⟩

theorem plain_isoformat (value : DateTime) : Plain value.isoformat := by
  simp [DateTime.isoformat,plain_append,plain_cons,plain_digits,plain_fractionText,plain_zoneText]

end plain

theorem readCursor_encodeCursor (others : List Char → Option DateTime) {value : DateTime} (aware : value.isAware)
    (id : UUID) : readCursor others (encodeCursor value id) = some (value,id) := by
  unfold encodeCursor readCursor
  simp only [Base64.strip_encode,Base64.pad_digits,Base64.decode_encode,Option.bind_eq_bind,Option.bind_some,
    utf8Decode_utf8Encode,splitOnce_append (plain_isoformat value),DateTime.fromisoformat_isoformat,
    UUID.parse_str,if_pos aware]
  rfl

theorem decodeCursor_encodeCursor (others : List Char → Option DateTime) {value : DateTime} (aware : value.isAware)
    (id : UUID) : decodeCursor others (some (encodeCursor value id)) = .ok (some (value,id)) := by
  rw [decodeCursor,readCursor_encodeCursor others aware id]

end Dalm
