import Dalm.Codec.Digits
import Mathlib.Algebra.Order.Ring.Int

/-! Python's datetime: a calendar date, a time of day to the microsecond and the distance from
UTC, if it has one. Its ISO form is read back as itself. -/
namespace Codec

def isLeap (year : Nat) : Bool := year % 4 = 0 ∧ (year % 100 ≠ 0 ∨ year % 400 = 0)

def daysInMonth (year month : Nat) : Nat :=
  if month = 2 then (if isLeap year then 29 else 28)
  else if month = 4 ∨ month = 6 ∨ month = 9 ∨ month = 11 then 30
  else 31

/-- Microseconds. -/
def oneMinute : Nat := 60000000

def oneDay : Nat := 86400000000

structure DateTime where
  year : Nat
  month : Nat
  day : Nat
  hour : Nat
  minute : Nat
  second : Nat
  microsecond : Nat
  utcoffset : Option Int
  calendar : (1 ≤ year ∧ year ≤ 9999) ∧ (1 ≤ month ∧ month ≤ 12) ∧ 1 ≤ day ∧ day ≤ daysInMonth year month
  clock : hour < 24 ∧ minute < 60 ∧ second < 60 ∧ microsecond < 1000000
  within : ∀ offset ∈ utcoffset, offset.natAbs < oneDay
deriving DecidableEq

namespace DateTime

/-- `datetime(...)`; `none` is the ValueError. -/
def of? (year month day hour minute second microsecond : Nat) (utcoffset : Option Int) : Option DateTime :=
  if calendar : (1 ≤ year ∧ year ≤ 9999) ∧ (1 ≤ month ∧ month ≤ 12) ∧ 1 ≤ day ∧
      day ≤ daysInMonth year month then
    if clock : hour < 24 ∧ minute < 60 ∧ second < 60 ∧ microsecond < 1000000 then
      if within : ∀ offset ∈ utcoffset, offset.natAbs < oneDay then
        some ⟨year,month,day,hour,minute,second,microsecond,utcoffset,calendar,clock,within⟩
      else none
    else none
  else none

def isAware (value : DateTime) : Prop := value.utcoffset.isSome

instance (value : DateTime) : Decidable value.isAware := inferInstanceAs (Decidable (_ = true))

section texts
open Radix

def fractionText (microsecond : Nat) : List Char :=
  if microsecond = 0 then [] else '.' :: decimal.digits 6 microsecond

/-- `HH:MM`, and the seconds and their fraction where there are any. -/
def offsetText (span : Nat) : List Char :=
  decimal.digits 2 (span / (60 * oneMinute)) ++ ':' :: decimal.digits 2 (span / oneMinute % 60) ++
    if span % oneMinute = 0 then []
    else ':' :: decimal.digits 2 (span % oneMinute / 1000000) ++ fractionText (span % 1000000)

def sign (offset : Int) : Char := if offset < 0 then '-' else '+'

def zoneText : Option Int → List Char
  | none => []
  | some offset => sign offset :: offsetText offset.natAbs

def isoformat (value : DateTime) : List Char :=
  decimal.digits 4 value.year ++ '-' :: decimal.digits 2 value.month ++ '-' :: decimal.digits 2 value.day ++
    'T' :: decimal.digits 2 value.hour ++ ':' :: decimal.digits 2 value.minute ++
    ':' :: decimal.digits 2 value.second ++ fractionText value.microsecond ++ zoneText value.utcoffset

def readFraction : List Char → Option (Nat × List Char)
  | '.' :: rest => decimal.take? 6 rest
  | rest => some (0,rest)

def readOffset (text : List Char) : Option Nat := do
  let (hours,text) ← decimal.take? 2 text
  let text ← symbol ':' text
  let (minutes,text) ← decimal.take? 2 text
  if text = [] then
    return (hours * 60 + minutes) * oneMinute
  else
    let text ← symbol ':' text
    let (seconds,text) ← decimal.take? 2 text
    let (microseconds,text) ← readFraction text
    if text = [] then return (hours * 60 + minutes) * oneMinute + seconds * 1000000 + microseconds
    else none

def readZone : List Char → Option (Option Int)
  | [] => some none
  | '+' :: rest => (readOffset rest).map fun span : Nat => some (span : Int)
  | '-' :: rest => (readOffset rest).map fun span : Nat => some (-(span : Int))
  | _ => none

/-- Reads the form `isoformat` writes. -/
def readIso (text : List Char) : Option DateTime := do
  let (year,text) ← decimal.take? 4 text
  let text ← symbol '-' text
  let (month,text) ← decimal.take? 2 text
  let text ← symbol '-' text
  let (day,text) ← decimal.take? 2 text
  let text ← symbol 'T' text
  let (hour,text) ← decimal.take? 2 text
  let text ← symbol ':' text
  let (minute,text) ← decimal.take? 2 text
  let text ← symbol ':' text
  let (second,text) ← decimal.take? 2 text
  let (microsecond,text) ← readFraction text
  let utcoffset ← readZone text
  of? year month day hour minute second microsecond utcoffset

/-- `datetime.fromisoformat`; `others` reads the further forms of ISO 8601. -/
def fromisoformat (others : List Char → Option DateTime) (text : List Char) : Option DateTime :=
  match readIso text with
  | some value => some value
  | none => others text

end texts

theorem of?_self (value : DateTime) : of? value.year value.month value.day value.hour value.minute
    value.second value.microsecond value.utcoffset = some value := by
  rw [of?,dif_pos value.calendar,dif_pos value.clock,dif_pos value.within]

/-- The text goes on with something else than a fraction. -/
def NoFraction (rest : List Char) : Prop := ∀ more, rest ≠ '.' :: more

theorem readFraction_fractionText {microsecond : Nat} (bound : microsecond < 1000000) (rest : List Char)
    (ends : NoFraction rest) : readFraction (fractionText microsecond ++ rest) = some (microsecond,rest) := by
  unfold fractionText
  split
  next zero =>
    rw [zero,List.nil_append]
    unfold readFraction
    split
    next more => exact absurd rfl (ends more)
    next => rfl
  next =>
    have read : decimal.take? 6 (decimal.digits 6 microsecond ++ rest) = some (microsecond,rest) :=
      Radix.take_digits bound rest
    exact read

theorem take_two {n : Nat} (bound : n < 100) (rest : List Char) :
    decimal.take? 2 (decimal.digits 2 n ++ rest) = some (n,rest) := Radix.take_digits bound rest

theorem readOffset_offsetText {span : Nat} (bound : span < oneDay) : readOffset (offsetText span) = some span := by
  have hours : span / (60 * oneMinute) < 100 := by
    unfold oneDay oneMinute at *
    omega
  have minutes : span / oneMinute % 60 < 100 := by omega
  have seconds : span % oneMinute / 1000000 < 100 := by
    unfold oneMinute
    omega
  have whole : (span / (60 * oneMinute) * 60 + span / oneMinute % 60) * oneMinute + span % oneMinute = span := by
    unfold oneMinute
    omega
  unfold offsetText readOffset
  split
  next even =>
    have read := take_two minutes []
    rw [List.append_nil] at read
    simp only [List.append_nil,take_two hours,Option.bind_eq_bind,Option.bind_some,symbol_cons,read,
      if_true]
    rw [even,Nat.add_zero] at whole
    exact congrArg some whole
  next odd =>
    have small : span % 1000000 < 1000000 := by omega
    have fraction := readFraction_fractionText small [] (fun _ same => nomatch same)
    rw [List.append_nil] at fraction
    simp only [List.append_assoc,List.cons_append,take_two hours,take_two minutes,take_two seconds,
      Option.bind_eq_bind,Option.bind_some,symbol_cons,fraction,if_true,reduceCtorEq,if_false]
    have parts : span % oneMinute / 1000000 * 1000000 + span % 1000000 = span % oneMinute := by
      unfold oneMinute
      omega
    rw [Nat.add_assoc,parts,whole]
    rfl

theorem readZone_zoneText {utcoffset : Option Int} (within : ∀ offset ∈ utcoffset, offset.natAbs < oneDay) :
    readZone (zoneText utcoffset) = some utcoffset := by
  cases utcoffset with
  | none => rfl
  | some offset =>
    have read := readOffset_offsetText (within offset rfl)
    by_cases negative : offset < 0
    · have first : sign offset = '-' := if_pos negative
      have value : -(offset.natAbs : Int) = offset := by omega
      rw [zoneText,first,readZone,read,Option.map_some,value]
    · have first : sign offset = '+' := if_neg negative
      have value : (offset.natAbs : Int) = offset := by omega
      rw [zoneText,first,readZone,read,Option.map_some,value]

theorem noFraction_zoneText (utcoffset : Option Int) : NoFraction (zoneText utcoffset) := by
  intro more same
  cases utcoffset with
  | none => cases same
  | some offset =>
    have first : sign offset = '.' := (List.cons.inj same).1
    unfold sign at first
    split at first
    · exact absurd first (by decide)
    · exact absurd first (by decide)

theorem readIso_isoformat (value : DateTime) : readIso value.isoformat = some value := by
  obtain ⟨year,month,day⟩ := value.calendar
  obtain ⟨hour,minute,second,microsecond⟩ := value.clock
  have most : daysInMonth value.year value.month ≤ 31 := by
    unfold daysInMonth
    split
    · split <;> omega
    · split <;> omega
  have first : ∀ rest, decimal.take? 4 (decimal.digits 4 value.year ++ rest) = some (value.year,rest) :=
    Radix.take_digits (by change value.year < 10 ^ 4; omega)
  have fraction := readFraction_fractionText microsecond _ (noFraction_zoneText value.utcoffset)
  have zone := readZone_zoneText value.within
  unfold isoformat readIso
  simp only [List.append_assoc,List.cons_append,first,Option.bind_eq_bind,Option.bind_some,symbol_cons,
    take_two (n := value.month) (by omega),take_two (n := value.day) (by omega),
    take_two (n := value.hour) (by omega),take_two (n := value.minute) (by omega),
    take_two (n := value.second) (by omega),fraction,zone,of?_self]

theorem fromisoformat_isoformat (others : List Char → Option DateTime) (value : DateTime) :
    fromisoformat others value.isoformat = some value := by
  rw [fromisoformat,readIso_isoformat]

end DateTime
end Codec
