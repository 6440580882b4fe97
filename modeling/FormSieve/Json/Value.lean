import FormSieve.Number.Binary64
import FormSieve.Text.Bytes

/-!
# JSON values

Whole numbers that fit into 64 bits, with or without a sign, are kept exactly; every other
number is a double. The members of an object are kept in ascending order of their names, each
name once.
-/

namespace FormSieve.Json

/-- A number of a document. -/
inductive Number where
  | integer (n : Int) (fits : -2 ^ 63 ≤ n ∧ n < 2 ^ 64)
  | float (x : Binary64)
deriving DecidableEq, Repr

namespace Number

/-- The number of a machine integer. -/
def ofInt64 (n : Int64) : Number :=
  .integer n.toInt ⟨n.le_toInt, by have := n.toInt_lt; omega⟩

/-- Where the number's nearest double stands among the doubles. -/
def signedRank : Number → Int
  | .integer n _ =>
    if n < 0 then -(Binary64.rankOfNat n.natAbs : Int) else Binary64.rankOfNat n.natAbs
  | .float x => x.signedRank

end Number

/-- A JSON value. -/
inductive Value where
  | null
  | boolean (b : Bool)
  | number (n : Number)
  | text (s : String)
  | array (items : List Value)
  | object (members : List (String × Value))
deriving Repr

/-- Named values in ascending order of the names. -/
abbrev Members := List (String × Value)

namespace Members

/-- Gives `name` a value, in the place of an earlier one if there is one. -/
def insert (name : String) (value : Value) : Members → Members
  | [] => [(name, value)]
  | (other, v) :: rest =>
    match Text.order name other with
    | .lt => (name, value) :: (other, v) :: rest
    | .eq => (name, value) :: rest
    | .gt => (other, v) :: insert name value rest

/-- The value of a name. -/
def find? (name : String) : Members → Option Value
  | [] => none
  | (other, v) :: rest => if other = name then some v else find? name rest

theorem find?_insert (name other : String) (value : Value) (ms : Members) :
    (ms.insert name value).find? other =
      if other = name then some value else ms.find? other := by
  induction ms with
  | nil => simp [insert, find?, eq_comm]
  | cons member rest ih =>
    obtain ⟨first, v⟩ := member
    cases h : Text.order name first with
    | lt => simp [insert, h, find?, eq_comm]
    | eq =>
      obtain rfl := Text.order_eq_iff.1 h
      simp only [insert, h, find?, eq_comm (a := other)]
      split <;> rfl
    | gt =>
      have different : first ≠ name := by
        rintro rfl
        simp at h
      by_cases same : first = other
      · subst same
        simp [insert, h, find?, different]
      · simp [insert, h, find?, same, ih]

end Members

end FormSieve.Json
