import FormSieve.Net.Ip

/-!
# Socket addresses

An internet address with the number of a service on it. Addresses of version 6 stand in
brackets, where a scope may follow them.
-/

namespace FormSieve

inductive SocketAddress where
  | v4 (address : Ipv4) (service : UInt16)
  | v6 (address : Ipv6) (scope : UInt32) (service : UInt16)
deriving DecidableEq, Repr

namespace SocketAddress

def service? (digits : List Char) : Option UInt16 :=
  (decimalBelow? (2 ^ 16) digits).map UInt16.ofNat

/-- What stands before the first `c` and what stands after it. -/
def cutAt? (c : Char) (cs : List Char) : Option (List Char × List Char) :=
  match cs.dropWhile (· ≠ c) with
  | [] => none
  | _ :: after => some (cs.takeWhile (· ≠ c), after)

/-- An address of version 6 with its scope, which is zero if none is given. -/
def scoped? (cs : List Char) : Option (Ipv6 × UInt32) :=
  match cutAt? '%' cs with
  | none => (Ipv6.parse? cs).map (·, 0)
  | some (address, scope) => do
    return (← Ipv6.parse? address, UInt32.ofNat (← decimalBelow? (2 ^ 32) scope))

def parse? (s : String) : Option SocketAddress :=
  match s.toList with
  | '[' :: rest => do
    let (inner, after) ← cutAt? ']' rest
    let (address, scope) ← scoped? inner
    match after with
    | ':' :: digits => return v6 address scope (← service? digits)
    | _ => none
  | cs => do
    let (address, digits) ← cutAt? ':' cs
    return v4 (← Ipv4.parse? address) (← service? digits)

def print : SocketAddress → String
  | v4 address service => address.print ++ ":" ++ service.toNat.repr
  | v6 address scope service =>
    "[" ++ address.printMixed ++ (if scope = 0 then "" else "%" ++ scope.toNat.repr) ++ "]:" ++
      service.toNat.repr

end SocketAddress

end FormSieve
