import FormSieve.Json.Decoder
import FormSieve.Json.Printer

/-!
# Comparators

How an answer may be asked to compare with the value of a clause. A comparator only looks at
the order of the two, which is missing when they are not of one kind.
-/

namespace FormSieve

inductive Comparator where
  | equals
  | notEqual
  | greaterThan
  | lessThan
deriving DecidableEq, Repr

namespace Comparator

def all : List Comparator := [equals, notEqual, greaterThan, lessThan]

/-- The name that filters are validated by. -/
def name : Comparator → String
  | equals => "equals"
  | notEqual => "does_not_equal"
  | greaterThan => "greater_than"
  | lessThan => "less_than"

def ofName? (name : String) : Option Comparator := all.find? (·.name = name)

@[simp] theorem ofName?_name (c : Comparator) : ofName? c.name = some c := by
  cases c <;> decide

theorem ofName?_eq_some_iff {name : String} {c : Comparator} :
    ofName? name = some c ↔ c.name = name := by
  refine ⟨fun h => ?_, fun h => h ▸ ofName?_name c⟩
  simpa using List.find?_some h

/-- The name that comparators are decoded and printed by. -/
def tag : Comparator → String
  | equals => "equals"
  | notEqual => "does_not_equal"
  | greaterThan => "greater_than"
  | lessThan => "less_than"

def ofTag? (tag : String) : Option Comparator := all.find? (·.tag = tag)

theorem tag_eq_name (c : Comparator) : c.tag = c.name := by
  cases c <;> rfl

theorem ofTag?_eq_ofName? (name : String) : ofTag? name = ofName? name := by
  simp only [ofTag?, ofName?, tag_eq_name]

/-- Whether the comparator accepts two things in this order, or in none. -/
def accepts (c : Comparator) (order : Option Ordering) : Bool :=
  match c with
  | equals => order = some .eq
  | notEqual => order ≠ some .eq
  | greaterThan => order = some .gt
  | lessThan => order = some .lt

open Json Ascii

/-- Reads the name of a comparator. -/
def nameDecoder : Decoder Comparator := fun _ bs =>
  match skipSpace bs with
  | [] => faultAt .unfinishedValue []
  | b :: rest =>
    if b = quote then
      (Json.text rest).andThen fun s rest =>
        match ofTag? s with
        | some c => .ok (c, rest)
        | none => faultAt (.unknownVariant s (all.map tag)) rest
    else mismatch .variant (b :: rest)

/-- A comparator is given by its name, or by an object that has the name as its only member,
with the value `null`. -/
def decoder : Decoder Comparator := fun room bs =>
  match skipSpace bs with
  | [] => faultAt .unfinishedValue []
  | b :: rest =>
    if b = quote then nameDecoder room (b :: rest)
    else if b = leftBrace then
      match room with
      | 0 => faultAt .nestedTooDeeply rest
      | room + 1 =>
        (nameDecoder room rest).andThen fun c rest =>
          (pastColon rest).andThen fun _ rest =>
            (Decoder.unit room rest).andThen fun _ rest =>
              match skipSpace rest with
              | [] => faultAt .unfinishedObject []
              | b :: rest =>
                if b = rightBrace then .ok (c, rest) else faultAt .valueExpected (b :: rest)
    else faultAt .valueExpected rest

def print (c : Comparator) : String := printText c.tag

end Comparator

end FormSieve
