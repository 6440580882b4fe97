import FormSieve.Json.Decoder
import Mathlib.Data.List.Induction

/-!
# Documents as they are written

Reading sorts the members of an object and keeps the last of those with one name. The same
document can also be read as it is written, with all members in their order, repeated ones
included. `Value.canonical` takes that reading to the usual one, so what is known of a value as it
is written is known of the value that is worked with. Both readings refuse the same documents for
the same reasons.
-/

namespace FormSieve.Json

/-! ## Mapping what was read -/

/-- Changes what was read. -/
def Reading.map (f : α → β) (r : Reading α) : Reading β := r.andThen fun a rest => .ok (f a, rest)

namespace Reading

@[simp] theorem map_ok (f : α → β) (a : α) (rest : Bytes) :
    Reading.map f (.ok (a, rest)) = .ok (f a, rest) := rfl

@[simp] theorem map_error (f : α → β) (fault : Fault) :
    Reading.map f (.error fault) = .error fault := rfl

@[simp] theorem map_faultAt (f : α → β) (cause : Cause) (rest : Bytes) :
    Reading.map f (faultAt cause rest) = faultAt cause rest := rfl

@[simp] theorem map_andThen (f : β → γ) (r : Reading α) (next : α → Bytes → Reading β) :
    Reading.map f (r.andThen next) = r.andThen fun a rest => Reading.map f (next a rest) := by
  cases r <;> rfl

@[simp] theorem andThen_map (f : α → β) (r : Reading α) (next : β → Bytes → Reading γ) :
    (Reading.map f r).andThen next = r.andThen fun a rest => next (f a) rest := by
  cases r <;> rfl

theorem andThen_congr {r : Reading α} {next next' : α → Bytes → Reading β}
    (h : ∀ a rest, next a rest = next' a rest) : r.andThen next = r.andThen next' := by
  rw [show next = next' from funext fun a => funext (h a)]

end Reading

theorem closed_map (close : Bytes → Closing) (f : α → β) (r : Reading α) :
    closed close (Reading.map f r) = Reading.map f (closed close r) := by
  cases r with
  | error fault => simp only [Reading.map_error, closed]; split <;> rfl
  | ok read =>
      obtain ⟨a, rest⟩ := read
      simp only [Reading.map_ok, closed]
      split <;> rfl

/-- A list of changed items is the changed list. -/
theorem itemsFrom_map {item : Bytes → Reading α} {item' : Bytes → Reading β} {f : α → β}
    (h : ∀ bs, item' bs = Reading.map f (item bs)) (bound : Nat) (first : Bool) (bs : Bytes) :
    itemsFrom item' bound first bs = Reading.map (List.map f) (itemsFrom item bound first bs) := by
  induction bound generalizing first bs with
  | zero => rfl
  | succ bound ih =>
      simp only [itemsFrom, Reading.map_andThen]
      refine Reading.andThen_congr fun more rest => ?_
      cases more with
      | false => rfl
      | true => simp [h, ih]

theorem items_map {item : Bytes → Reading α} {item' : Bytes → Reading β} {f : α → β}
    (h : ∀ bs, item' bs = Reading.map f (item bs)) (bs : Bytes) :
    items item' bs = Reading.map (List.map f) (items item bs) := by
  rw [items, items, itemsFrom_map h, closed_map]

/-- Folding the members of an object keeps any correspondence that each of them keeps. -/
theorem membersFrom_map {member : σ → String → Bytes → Reading σ}
    {member' : τ → String → Bytes → Reading τ} {f : σ → τ}
    (h : ∀ state name bs, member' (f state) name bs = Reading.map f (member state name bs))
    (bound : Nat) (first : Bool) (state : σ) (bs : Bytes) :
    membersFrom member' bound first (f state) bs =
      Reading.map f (membersFrom member bound first state bs) := by
  induction bound generalizing first state bs with
  | zero => rfl
  | succ bound ih =>
      simp only [membersFrom, Reading.map_andThen]
      refine Reading.andThen_congr fun name rest => ?_
      cases name with
      | none => rfl
      | some name => simp [h, ih]

theorem members_map {member : σ → String → Bytes → Reading σ}
    {member' : τ → String → Bytes → Reading τ} {f : σ → τ}
    (h : ∀ state name bs, member' (f state) name bs = Reading.map f (member state name bs))
    (state : σ) (bs : Bytes) :
    members member' (f state) bs = Reading.map f (members member state bs) :=
  membersFrom_map h _ _ _ _

/-! ## Members in their order -/

namespace Members

/-- The members that are left when those given again replace the earlier ones. -/
def ofWritten (ms : Members) : Members := ms.foldl (fun ms m => ms.insert m.1 m.2) []

/-- The value that a name is given last. -/
def last? (name : String) (ms : Members) : Option Value :=
  ((ms.filter (·.1 = name)).getLast?).map (·.2)

@[simp] theorem ofWritten_nil : ofWritten [] = [] := rfl

@[simp] theorem ofWritten_append (ms : Members) (name : String) (v : Value) :
    ofWritten (ms ++ [(name, v)]) = (ofWritten ms).insert name v := by
  simp [ofWritten]

@[simp] theorem last?_nil (name : String) : last? name [] = none := rfl

theorem last?_append (ms : Members) (other name : String) (v : Value) :
    last? name (ms ++ [(other, v)]) = if name = other then some v else last? name ms := by
  by_cases same : name = other
  · simp [last?, same]
  · simp [last?, same, Ne.symm same]

/-- Of the values of one name the last is kept. -/
theorem find?_ofWritten (name : String) (ms : Members) :
    (ofWritten ms).find? name = last? name ms := by
  induction ms using List.reverseRecOn with
  | nil => rfl
  | append_singleton ms m ih =>
      rw [ofWritten_append, find?_insert, last?_append, ih]

end Members

/-! ## The two readings of a value -/

mutual

/-- A value as it is written, with the members of its objects sorted and none repeated. -/
def Value.canonical : Value → Value
  | .null => .null
  | .boolean b => .boolean b
  | .number n => .number n
  | .text s => .text s
  | .array items => .array (canonicalAll items)
  | .object ms => .object (Members.ofWritten (canonicalMembers ms))

/-- Several values, each in its canonical form. -/
def canonicalAll : List Value → List Value
  | [] => []
  | v :: vs => v.canonical :: canonicalAll vs

/-- Named values, each in its canonical form. -/
def canonicalMembers : Members → Members
  | [] => []
  | (name, v) :: ms => (name, v.canonical) :: canonicalMembers ms

end

theorem canonicalAll_eq_map (vs : List Value) : canonicalAll vs = vs.map Value.canonical := by
  induction vs with
  | nil => rfl
  | cons v vs ih => rw [canonicalAll, ih, List.map_cons]

theorem canonicalMembers_eq_map (ms : Members) :
    canonicalMembers ms = ms.map fun m => (m.1, m.2.canonical) := by
  induction ms with
  | nil => rfl
  | cons m ms ih => rw [canonicalMembers, ih, List.map_cons]

@[simp] theorem Value.canonical_array (vs : List Value) :
    (Value.array vs).canonical = .array (vs.map Value.canonical) := by
  rw [Value.canonical, canonicalAll_eq_map]

@[simp] theorem Value.canonical_object (ms : Members) :
    (Value.object ms).canonical = .object (Members.ofWritten (canonicalMembers ms)) := by
  rw [Value.canonical]

theorem canonicalMembers_append (ms : Members) (name : String) (v : Value) :
    canonicalMembers (ms ++ [(name, v)]) = canonicalMembers ms ++ [(name, v.canonical)] := by
  simp [canonicalMembers_eq_map]

/-- A member of a canonical object is the canonical form of the member written last. -/
theorem Members.find?_canonical (name : String) (ms : Members) :
    (Members.ofWritten (canonicalMembers ms)).find? name =
      (last? name ms).map Value.canonical := by
  rw [find?_ofWritten]
  induction ms using List.reverseRecOn with
  | nil => rfl
  | append_singleton ms m ih =>
      obtain ⟨other, v⟩ := m
      rw [canonicalMembers_append, last?_append, last?_append, ih]
      split <;> rfl

/-- Taking in a member and sorting later comes to the same as sorting at once. -/
theorem valueMember_canonical (read : Bytes → Reading Value) (ms : Members) (name : String)
    (bs : Bytes) :
    valueMember .sorted (fun bs => Reading.map Value.canonical (read bs))
        (Members.ofWritten (canonicalMembers ms)) name bs =
      Reading.map (fun ms => Members.ofWritten (canonicalMembers ms))
        (valueMember .written read ms name bs) := by
  simp [valueMember, Joining.sorted, Joining.written, canonicalMembers_append]

theorem object_canonical (read : Bytes → Reading Value) (bs : Bytes) :
    closed closeObject
        (members (valueMember .sorted fun bs => Reading.map Value.canonical (read bs)) [] bs) =
      Reading.map (fun ms => Members.ofWritten (canonicalMembers ms))
        (closed closeObject (members (valueMember .written read) [] bs)) := by
  rw [← closed_map, ← members_map (valueMember_canonical read)]
  rfl

/-- One bracket more. Where nested values are read in the two ways, so are those around them. -/
theorem valueWith_canonical (nested : Option (Bytes → Reading Value)) (bs : Bytes) :
    valueWith .sorted (nested.map fun read bs => Reading.map Value.canonical (read bs)) bs =
      Reading.map Value.canonical (valueWith .written nested bs) := by
  simp only [valueWith]
  cases skipSpace bs with
  | nil => rfl
  | cons b rest =>
      dsimp only
      split_ifs
      · simp [Value.canonical]
      · simp [Value.canonical]
      · simp [Value.canonical]
      · simp [Value.canonical]
      · simp [Value.canonical]
      · simp [Value.canonical]
      · cases nested with
        | none => rfl
        | some read => simp [items_map (f := Value.canonical) fun bs => rfl]
      · cases nested with
        | none => rfl
        | some read => simp [object_canonical]
      · rfl

/-- What is read with sorted members is the canonical form of what is read as it is written. -/
theorem value_eq_map_canonical (room : Nat) (bs : Bytes) :
    value room bs = Reading.map Value.canonical (valueAsWritten room bs) := by
  have all : ∀ room bs, valueJoining .sorted room bs =
      Reading.map Value.canonical (valueJoining .written room bs) := by
    intro room
    induction room with
    | zero => exact valueWith_canonical none
    | succ room ih =>
        intro bs
        rw [valueJoining, funext ih]
        exact valueWith_canonical (some (valueJoining .written room)) bs
  exact all room bs

/-- Decoding what is read differently: the same documents are refused for the same reasons. -/
theorem decode_map {decoder : Decoder α} {decoder' : Decoder β} {f : α → β}
    (h : ∀ room bs, decoder' room bs = Reading.map f (decoder room bs)) (document : Bytes) :
    decode decoder' document = (decode decoder document).map f := by
  rw [decode, decode, h]
  cases decoder maxDepth document with
  | error fault => rfl
  | ok read =>
      obtain ⟨a, rest⟩ := read
      simp only [Reading.map_ok]
      cases skipSpace rest <;> rfl

theorem decode_value_eq (document : Bytes) :
    decode Decoder.value document = (decode valueAsWritten document).map Value.canonical :=
  decode_map value_eq_map_canonical document

end FormSieve.Json
