import FormSieve.Net.Ip
import FormSieve.Text.Percent

/-!
# Hosts

What a URL names as its host: an internet address or a name. Names are compared without regard
to case and are kept in lower case.

A name whose last part is a number is an address of version 4, which may have fewer than four
parts, each decimal, octal or hexadecimal; the last part then takes up all bytes that are left.

Internationalized names are left out. A name with characters outside ASCII stands for one in ASCII,
which begins with `xn--` somewhere, by rules that are not described here: such a name is refused,
and one with `xn--` is taken as it is, whether it stands for another or not.
-/

namespace FormSieve

inductive Host where
  | name (cs : List Char)
  | v4 (address : Ipv4)
  | v6 (address : Ipv6)
deriving DecidableEq, Repr

namespace Host

/-- The characters that no name may have. -/
def forbidden : List Char :=
  [' ', '#', '%', '/', ':', '<', '>', '?', '@', '[', '\\', ']', '^', '\x60', '\x7b', '|',
    '\x7d']

/-- A character that a name may have. -/
def allows (c : Char) : Bool := 0x20 < c.toNat && c.toNat < 0x7F && !forbidden.contains c

/-- The number that octal digits denote; zero if there are none. -/
def octalNumber? (digits : List Char) : Option Nat :=
  if digits.all fun c => '0' ≤ c && c ≤ '7' then some (Nat.ofDigitChars 8 digits 0) else none

/-- A part of an address of version 4. -/
def addressPart? (cs : List Char) : Option Nat :=
  match cs with
  | [] => none
  | '0' :: 'x' :: digits => hexNumber? digits
  | '0' :: d :: digits => octalNumber? (d :: digits)
  | digits => if digits.all Char.isDigit then some (Nat.ofDigitChars 10 digits 0) else none

/-- The parts of a name. A point at the end does not open another part. -/
def parts (cs : List Char) : List (List Char) :=
  let pieces := splitChars '.' cs
  if pieces.length > 1 ∧ pieces.getLast? = some [] then pieces.dropLast else pieces

/-- Whether the last part of a name makes it an address. -/
def endsInNumber (cs : List Char) : Bool :=
  match (parts cs).getLast? with
  | none => false
  | some [] => false
  | some last => last.all Char.isDigit || (last.take 2 = ['0', 'x'] && (addressPart? last).isSome)

/-- The number made up of all parts but the last, one byte each, and of the last, which takes
up the `room` bytes that are left. -/
def addressOf? (room : Nat) : List Nat → Option Nat
  | [] => none
  | [last] => if last < 256 ^ room then some last else none
  | part :: rest =>
    if part < 256 then (addressOf? (room - 1) rest).map (part * 256 ^ (room - 1) + ·) else none

def address? (cs : List Char) : Option Ipv4 := do
  let numbers ← (parts cs).mapM addressPart?
  if numbers.length ≤ 4 then return ⟨UInt32.ofNat (← addressOf? 4 numbers)⟩ else none

/-- A host as it is written in a URL where the host is resolved, if it is in ASCII. -/
def parse? (cs : List Char) : Option Host :=
  match cs with
  | '[' :: rest =>
    if rest.getLast? = some ']' then (Ipv6.parse? rest.dropLast).map v6 else none
  | cs =>
    match Text.ofBytes? (Percent.decode (Text.bytes (String.ofList cs))) with
    | none => none
    | some decoded =>
      let lowered := decoded.toList.map Char.toLower
      if lowered.isEmpty || !lowered.all allows then none
      else if endsInNumber lowered then (address? lowered).map v4
      else some (name lowered)

def print : Host → List Char
  | name cs => cs
  | v4 address => address.print.toList
  | v6 address => '[' :: (address.print.toList ++ [']'])

end Host

end FormSieve
