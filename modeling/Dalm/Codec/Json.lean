import Mathlib.Data.Rat.Defs

/-! JSON values, what prints them and what reads them: a reader takes what its printer made. Numbers
are read back exactly as they were printed, and an object keeps its members in order. -/
namespace Codec

inductive Json where
  | null
  | bool (value : Bool)
  | number (value : ℚ)
  | string (text : String)
  | array (items : List Json)
  | object (members : List (String × Json))

namespace Json
variable {α : Type}

section printers

def ofOption (print : α → Json) : Option α → Json
  | none => .null
  | some value => print value

def ofList (print : α → Json) (items : List α) : Json := .array (items.map print)

def ofDict (print : α → Json) (members : List (String × α)) : Json :=
  .object (members.map fun entry => (entry.1,print entry.2))

end printers

section readers

/-- The member of an object. -/
def member (name : String) : Json → Option Json
  | .object members => members.lookup name
  | _ => none

def asNumber : Json → Option ℚ
  | .number value => some value
  | _ => none

def asBool : Json → Option Bool
  | .bool value => some value
  | _ => none

def asString : Json → Option String
  | .string text => some text
  | _ => none

/-- A whole number from 0 on. -/
def asNat (json : Json) : Option Nat :=
  json.asNumber.bind fun value => if value.den = 1 ∧ 0 ≤ value.num then some value.num.toNat else none

/-- A string with `min` to `max` characters. -/
def asText (min max : Nat) (json : Json) : Option String :=
  json.asString.filter fun text => min ≤ text.length ∧ text.length ≤ max

/-- One of these strings. -/
def asLiteral (literals : List String) (json : Json) : Option String :=
  json.asString.filter fun text => literals.contains text

def asList (read : Json → Option α) : Json → Option (List α)
  | .array items => items.mapM read
  | _ => none

def asDict (read : Json → Option α) : Json → Option (List (String × α))
  | .object members => members.mapM fun entry => (read entry.2).map fun value => (entry.1,value)
  | _ => none

def asOptional (read : Json → Option α) : Json → Option (Option α)
  | .null => some none
  | json => (read json).map some

/-- A member that has to be there. -/
def required (name : String) (read : Json → Option α) (json : Json) : Option α :=
  (json.member name).bind read

/-- A member that may be missing. -/
def defaulted (name : String) (default_ : α) (read : Json → Option α) (json : Json) : Option α :=
  match json.member name with
  | none => some default_
  | some value => read value

end readers

section round
variable {print : α → Json} {read : Json → Option α}

theorem asList_ofList {items : List α} (each : ∀ item ∈ items, read (print item) = some item) :
    (ofList print items).asList read = some items := by
  change (items.map print).mapM read = some items
  induction items with
  | nil => rfl
  | cons item items ih =>
    rw [List.map_cons,List.mapM_cons,each item List.mem_cons_self,
      ih fun other member => each other (List.mem_cons_of_mem _ member)]
    rfl

theorem asDict_ofDict {members : List (String × α)} (each : ∀ entry ∈ members, read (print entry.2) = some entry.2) :
    (ofDict print members).asDict read = some members := by
  change (members.map fun entry => (entry.1,print entry.2)).mapM (fun entry : String × Json =>
    (read entry.2).map fun value => (entry.1,value)) = some members
  induction members with
  | nil => rfl
  | cons entry members ih =>
    rw [List.map_cons,List.mapM_cons,each entry List.mem_cons_self,
      ih fun other inside => each other (List.mem_cons_of_mem _ inside)]
    rfl

theorem asNat_number {n : Int} (whole : 0 ≤ n) : (Json.number n).asNat = some n.toNat := by
  have number : (n : ℚ).den = 1 ∧ 0 ≤ (n : ℚ).num := ⟨Rat.den_intCast n,by rwa [Rat.num_intCast]⟩
  rw [asNat,asNumber,Option.bind_some,if_pos number,Rat.num_intCast]

theorem asText_string {min max : Nat} {text : String} :
    (Json.string text).asText min max = if min ≤ text.length ∧ text.length ≤ max then some text else none := by
  simp [asText,asString,Option.filter]

end round
end Json
end Codec
