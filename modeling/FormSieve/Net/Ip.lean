import FormSieve.Number.Power

/-!
# Internet addresses

Addresses of both versions, read from and written in their usual notation. In version 6 one
run of zero groups may be abbreviated, and the last two groups may be written like an address
of version 4.
-/

namespace FormSieve

/-- The number that decimal digits denote, if there is one and it is below `limit`. -/
def decimalBelow? (limit : Nat) (digits : List Char) : Option Nat :=
  if digits.isEmpty || !digits.all Char.isDigit then none
  else
    let n := Nat.ofDigitChars 10 digits 0
    if n < limit then some n else none

/-- The value of a hexadecimal digit, in either case. -/
def hexValue? (c : Char) : Option Nat :=
  if c.isDigit then some (c.toNat - '0'.toNat)
  else if 'a' ≤ c ∧ c ≤ 'f' then some (c.toNat - 'a'.toNat + 10)
  else if 'A' ≤ c ∧ c ≤ 'F' then some (c.toNat - 'A'.toNat + 10)
  else none

/-- The number that hexadecimal digits denote; zero if there are none. -/
def hexNumber? (digits : List Char) : Option Nat :=
  digits.foldlM (fun n c => (hexValue? c).map (16 * n + ·)) 0

/-- The pieces between separators: one more piece than there are separators. -/
def splitChars (separator : Char) : List Char → List (List Char)
  | [] => [[]]
  | c :: rest =>
    if c = separator then [] :: splitChars separator rest
    else
      match splitChars separator rest with
      | [] => [[c]]
      | piece :: pieces => (c :: piece) :: pieces

/-- An address of version 4, the number made up of its four bytes. -/
structure Ipv4 where
  bits : UInt32
deriving DecidableEq, Repr

namespace Ipv4

/-- The four bytes, the most significant one first. -/
def bytes (a : Ipv4) : List Nat :=
  [a.bits.toNat / 2 ^ 24, a.bits.toNat / 2 ^ 16 % 256, a.bits.toNat / 2 ^ 8 % 256,
    a.bits.toNat % 256]

def ofBytes (a b c d : Nat) : Ipv4 := ⟨UInt32.ofNat (((a * 256 + b) * 256 + c) * 256 + d)⟩

/-- A byte in decimal, without needless zeros. -/
def byte? (digits : List Char) : Option Nat :=
  if digits.length > 1 ∧ digits.head? = some '0' then none else decimalBelow? 256 digits

def parse? (cs : List Char) : Option Ipv4 :=
  match (splitChars '.' cs).map byte? with
  | [some a, some b, some c, some d] => some (ofBytes a b c d)
  | _ => none

def print (a : Ipv4) : String := ".".intercalate (a.bytes.map Nat.repr)

end Ipv4

/-- An address of version 6, as its eight groups of 16 bits. -/
structure Ipv6 where
  groups : List Nat
deriving DecidableEq, Repr

namespace Ipv6

/-- A group of one to four hexadecimal digits. -/
def group? (digits : List Char) : Option Nat :=
  if digits.isEmpty || digits.length > 4 then none else hexNumber? digits

/-- The groups between colons. Where `embeds` holds the last two may be written as an address
of version 4. -/
def groupsOf? (embeds : Bool) : List (List Char) → Option (List Nat)
  | [] => some []
  | [last] =>
    match group? last with
    | some g => some [g]
    | none =>
      if embeds then
        (Ipv4.parse? last).map fun a => [a.bits.toNat / 2 ^ 16, a.bits.toNat % 2 ^ 16]
      else none
  | piece :: pieces => do return (← group? piece) :: (← groupsOf? embeds pieces)

/-- The groups of a text, which may be empty. -/
def groupsIn? (embeds : Bool) (cs : List Char) : Option (List Nat) :=
  if cs.isEmpty then some [] else groupsOf? embeds (splitChars ':' cs)

/-- What stands before the first double colon and what stands after it. -/
def cutAtGap? : List Char → Option (List Char × List Char)
  | ':' :: ':' :: rest => some ([], rest)
  | c :: rest => (cutAtGap? rest).map fun (before, after) => (c :: before, after)
  | [] => none

/-- A double colon stands for at least one group of zeros. -/
def parse? (cs : List Char) : Option Ipv6 :=
  match cutAtGap? cs with
  | none =>
    match groupsOf? true (splitChars ':' cs) with
    | some groups => if groups.length = 8 then some ⟨groups⟩ else none
    | none => none
  | some (before, after) =>
    match groupsIn? false before, groupsIn? true after with
    | some head, some tail =>
      if head.length + tail.length < 8 then
        some ⟨head ++ List.replicate (8 - head.length - tail.length) 0 ++ tail⟩
      else none
    | _, _ => none

def printGroup (g : Nat) : String := String.ofList (Nat.toDigits 16 g)

def printGroups (groups : List Nat) : String := ":".intercalate (groups.map printGroup)

/-- The length of the run of zeros at the start. -/
def zeroRun (groups : List Nat) : Nat := (groups.takeWhile (· = 0)).length

/-- The length of the longest run of zeros. -/
def longestRun : List Nat → Nat
  | [] => 0
  | g :: gs => max (zeroRun (g :: gs)) (longestRun gs)

/-- Where the first run of `length` zeros starts. -/
def runStart (length : Nat) : List Nat → Nat
  | [] => 0
  | g :: gs => if zeroRun (g :: gs) = length then 0 else runStart length gs + 1

/-- The first of the longest runs of zeros is abbreviated if it has more than one group. -/
def print (a : Ipv6) : String :=
  let run := longestRun a.groups
  if run ≤ 1 then printGroups a.groups
  else
    let start := runStart run a.groups
    printGroups (a.groups.take start) ++ "::" ++ printGroups (a.groups.drop (start + run))

/-- The address of version 4 that stands for itself in version 6. -/
def mapped? (a : Ipv6) : Option Ipv4 :=
  match a.groups with
  | [0, 0, 0, 0, 0, 0xFFFF, high, low] => some ⟨UInt32.ofNat (high * 2 ^ 16 + low)⟩
  | _ => none

/-- The address with a mapped address of version 4 in the notation of that version. -/
def printMixed (a : Ipv6) : String :=
  match a.mapped? with
  | some v4 => "::ffff:" ++ v4.print
  | none => a.print

end Ipv6

end FormSieve
