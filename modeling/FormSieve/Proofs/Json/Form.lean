import FormSieve.Proofs.Json.Written
import FormSieve.Proofs.Text.Order

/-!
# The form of values

A value has parts: itself, its items, the values of its members, and their parts. What is said of
all objects or all numbers in a value is said of its parts. `Value.Fits` counts how many brackets
are open at once.

A value that was read has its members in ascending order everywhere and fits into the brackets
that the reader allowed. A value in that order is its own canonical form.
-/

namespace FormSieve.Json

/-- To prove something of all values, prove it of an array from its items and of an object from
the values of its members. -/
theorem Value.induction {motive : Value → Prop} (null : motive .null)
    (boolean : ∀ b, motive (.boolean b)) (number : ∀ n, motive (.number n))
    (text : ∀ s, motive (.text s)) (array : ∀ vs, (∀ v ∈ vs, motive v) → motive (.array vs))
    (object : ∀ ms, (∀ m ∈ ms, motive m.2) → motive (.object ms)) (v : Value) : motive v :=
  @Value.rec motive (fun vs => ∀ v ∈ vs, motive v) (fun ms => ∀ m ∈ ms, motive m.2)
    (fun m => motive m.2) null boolean number text array object
    (by simp) (fun _ _ first others => by simpa using And.intro first others)
    (by simp) (fun _ _ first others => by simpa using And.intro first others)
    (fun _ _ value => value) v

/-! ## Parts -/

/-- `Part part whole`: the one occurs in the other. -/
inductive Value.Part : Value → Value → Prop
  | self (v : Value) : Part v v
  | item {part v : Value} {vs : List Value} (h : v ∈ vs) (inner : Part part v) :
      Part part (.array vs)
  | member {part : Value} {m : String × Value} {ms : Members} (h : m ∈ ms)
      (inner : Part part m.2) : Part part (.object ms)

namespace Value

/-- All parts are as said. -/
def Everywhere (p : Value → Prop) (v : Value) : Prop := ∀ part, Part part v → p part

section Everywhere

variable {p : Value → Prop}

theorem Everywhere.self {v : Value} (h : Everywhere p v) : p v := h v (.self v)

theorem everywhere_array_iff {vs : List Value} :
    Everywhere p (.array vs) ↔ p (.array vs) ∧ ∀ v ∈ vs, Everywhere p v := by
  constructor
  · exact fun h => ⟨h.self, fun v hv part inner => h part (.item hv inner)⟩
  · rintro ⟨here, inside⟩ part (_ | ⟨hv, inner⟩)
    · exact here
    · exact inside _ hv part inner

theorem everywhere_object_iff {ms : Members} :
    Everywhere p (.object ms) ↔ p (.object ms) ∧ ∀ m ∈ ms, Everywhere p m.2 := by
  constructor
  · exact fun h => ⟨h.self, fun m hm part inner => h part (.member hm inner)⟩
  · rintro ⟨here, inside⟩ part (_ | _ | ⟨hm, inner⟩)
    · exact here
    · exact inside _ hm part inner

theorem everywhere_null : Everywhere p .null ↔ p .null :=
  ⟨Everywhere.self, by rintro h _ ⟨⟩; exact h⟩

theorem everywhere_boolean {b : Bool} : Everywhere p (.boolean b) ↔ p (.boolean b) :=
  ⟨Everywhere.self, by rintro h _ ⟨⟩; exact h⟩

theorem everywhere_number {n : Number} : Everywhere p (.number n) ↔ p (.number n) :=
  ⟨Everywhere.self, by rintro h _ ⟨⟩; exact h⟩

theorem everywhere_text {s : String} : Everywhere p (.text s) ↔ p (.text s) :=
  ⟨Everywhere.self, by rintro h _ ⟨⟩; exact h⟩

theorem Everywhere.mono {q : Value → Prop} {v : Value} (h : Everywhere p v)
    (weaker : ∀ v, p v → q v) : Everywhere q v :=
  fun part inner => weaker part (h part inner)

end Everywhere

end Value

/-! ## Names of members -/

namespace Members

/-- The names of some members, in their order. -/
def names (ms : Members) : List String := ms.map Prod.fst

/-- Each name comes before the names behind it. -/
def Ascending (ms : Members) : Prop := ms.Pairwise fun a b => Text.Before a.1 b.1

theorem Ascending.nodup {ms : Members} (h : ms.Ascending) : ms.names.Nodup :=
  List.pairwise_map.2 (h.imp Text.Before.ne)

/-- A name that comes behind all others is put at the end. -/
theorem insert_of_before {name : String} {ms : Members} (v : Value)
    (h : ∀ m ∈ ms, Text.Before m.1 name) : ms.insert name v = ms ++ [(name, v)] := by
  induction ms with
  | nil => rfl
  | cons m ms ih =>
      obtain ⟨other, w⟩ := m
      have behind : Text.order name other = .gt := Text.order_eq_gt_iff.2 (h (other, w) (by simp))
      have others : insert name v ms = ms ++ [(name, v)] :=
        ih fun m hm => h m (List.mem_cons_of_mem _ hm)
      simp only [insert, behind, others, List.cons_append]

theorem mem_insert {name : String} {v : Value} {ms : Members} {m : String × Value}
    (h : m ∈ ms.insert name v) : m = (name, v) ∨ m ∈ ms := by
  induction ms with
  | nil => exact .inl (by simpa [insert] using h)
  | cons first ms ih =>
      obtain ⟨other, w⟩ := first
      simp only [insert] at h
      split at h
      · simpa using h
      · exact (List.mem_cons.1 h).imp id (List.mem_cons_of_mem _)
      · rcases List.mem_cons.1 h with rfl | h
        · exact .inr (by simp)
        · exact (ih h).imp id (List.mem_cons_of_mem _)

theorem Ascending.insert {ms : Members} (h : ms.Ascending) (name : String) (v : Value) :
    (ms.insert name v).Ascending := by
  induction ms with
  | nil => simp [Ascending, Members.insert]
  | cons first ms ih =>
      obtain ⟨other, w⟩ := first
      obtain ⟨behind, rest⟩ := List.pairwise_cons.1 h
      simp only [Members.insert]
      split
      · next before =>
        refine List.pairwise_cons.2 ⟨fun m hm => ?_, h⟩
        rcases List.mem_cons.1 hm with rfl | hm
        · exact before
        · exact Text.Before.trans before (behind m hm)
      · next same =>
        obtain rfl := Text.order_eq_iff.1 same
        exact List.pairwise_cons.2 ⟨behind, rest⟩
      · next after =>
        refine List.pairwise_cons.2 ⟨fun m hm => ?_, ih rest⟩
        rcases mem_insert hm with rfl | hm
        · exact Text.order_eq_gt_iff.1 after
        · exact behind m hm

theorem mem_ofWritten {ms : Members} {m : String × Value} (h : m ∈ ofWritten ms) : m ∈ ms := by
  induction ms using List.reverseRecOn with
  | nil => exact h
  | append_singleton ms last ih =>
      rw [ofWritten_append] at h
      rcases mem_insert h with rfl | h
      · simp
      · exact List.mem_append_left _ (ih h)

theorem ascending_ofWritten (ms : Members) : (ofWritten ms).Ascending := by
  induction ms using List.reverseRecOn with
  | nil => exact List.Pairwise.nil
  | append_singleton ms last ih =>
      rw [ofWritten_append]
      exact ih.insert _ _

/-- Members in ascending order stay as they are. -/
theorem ofWritten_of_ascending {ms : Members} (h : ms.Ascending) : ofWritten ms = ms := by
  induction ms using List.reverseRecOn with
  | nil => rfl
  | append_singleton ms last ih =>
      have ⟨front, _, behind⟩ := List.pairwise_append.1 h
      rw [ofWritten_append, ih front]
      exact insert_of_before _ fun m hm => behind m hm last (by simp)

theorem mem_of_find? {name : String} {v : Value} {ms : Members} (h : ms.find? name = some v) :
    (name, v) ∈ ms := by
  induction ms with
  | nil => cases h
  | cons first ms ih =>
      obtain ⟨other, w⟩ := first
      rw [find?] at h
      split at h
      · next same =>
        obtain rfl := Option.some.inj h
        rw [same]
        exact List.mem_cons_self ..
      · exact List.mem_cons_of_mem _ (ih h)

theorem mem_of_last? {name : String} {v : Value} {ms : Members} (h : last? name ms = some v) :
    (name, v) ∈ ms := by
  obtain ⟨m, hm, rfl⟩ := Option.map_eq_some_iff.1 h
  obtain ⟨inside, same⟩ := List.mem_filter.1 (List.mem_of_getLast? hm)
  rwa [← of_decide_eq_true same]

theorem find?_eq_none_iff {name : String} {ms : Members} :
    ms.find? name = none ↔ name ∉ ms.names := by
  induction ms with
  | nil => simp [find?, names]
  | cons first ms ih =>
      obtain ⟨other, w⟩ := first
      rw [find?, names, List.map_cons, List.mem_cons, not_or]
      split
      · next same => simp [same]
      · next other' => simp [ih, names, Ne.symm other']

theorem find?_filter (p : String → Bool) (name : String) (ms : Members) :
    Members.find? name (ms.filter fun m => p m.1) = if p name then ms.find? name else none := by
  induction ms with
  | nil => simp [find?]
  | cons first ms ih =>
      obtain ⟨other, w⟩ := first
      rw [List.filter_cons, find?]
      by_cases same : other = name
      · subst same
        cases keep : p other <;> simp [keep, find?, ih]
      · cases p other <;> simp [find?, ih, same]

/-- Where no name is repeated, the last value of a name is its only one. -/
theorem last?_eq_find? {name : String} {ms : Members} (h : ms.names.Nodup) :
    last? name ms = ms.find? name := by
  induction ms with
  | nil => rfl
  | cons first ms ih =>
      obtain ⟨other, w⟩ := first
      rw [names, List.map_cons, List.nodup_cons] at h
      have others : ms.filter (·.1 = other) = [] := by
        refine List.filter_eq_nil_iff.2 fun m hm same => h.1 ?_
        exact List.mem_map.2 ⟨m, hm, of_decide_eq_true same⟩
      rw [find?, ← ih h.2, last?, last?, List.filter_cons]
      by_cases same : other = name
      · subst same
        simp [others]
      · simp [same]

theorem Ascending.find?_tail {first : String × Value} {ms : Members}
    (h : Ascending (first :: ms)) : ms.find? first.1 = none := by
  refine find?_eq_none_iff.2 fun repeated => ?_
  obtain ⟨m, hm, same⟩ := List.mem_map.1 repeated
  exact ((List.pairwise_cons.1 h).1 m hm).ne same.symm

/-- Members in ascending order are the same if each name has the same value in them. -/
theorem Ascending.ext {ms ms' : Members} (h : ms.Ascending) (h' : ms'.Ascending)
    (same : ∀ name, ms.find? name = ms'.find? name) : ms = ms' := by
  induction ms generalizing ms' with
  | nil =>
      cases ms' with
      | nil => rfl
      | cons first ms' => simpa [find?] using same first.1
  | cons first ms ih =>
      obtain ⟨name, v⟩ := first
      cases ms' with
      | nil => simpa [find?] using same name
      | cons first' ms' =>
          obtain ⟨name', v'⟩ := first'
          obtain ⟨behind, rest⟩ := List.pairwise_cons.1 h
          obtain ⟨behind', rest'⟩ := List.pairwise_cons.1 h'
          have here : name = name' := by
            by_contra other
            have inside : (name, v) ∈ ms' := by
              refine mem_of_find? ?_
              rw [← (same name).symm.trans (if_pos rfl), find?, if_neg (Ne.symm other)]
            have inside' : (name', v') ∈ ms := by
              refine mem_of_find? ?_
              rw [← (same name').trans (if_pos rfl), find?, if_neg other]
            exact ((behind _ inside').trans (behind' _ inside)).ne rfl
          subst here
          obtain rfl : v = v' := by simpa [find?] using same name
          refine congrArg _ (ih rest rest' fun other => ?_)
          by_cases here : name = other
          · subst here
            exact h.find?_tail.trans h'.find?_tail.symm
          · simpa [find?, here] using same other

end Members

/-! ## Ordered values -/

namespace Value

/-- The members of all objects are in ascending order. -/
def Ordered : Value → Prop :=
  Everywhere fun part => ∀ ms, part = .object ms → Members.Ascending ms

/-- No object has two members of one name. -/
def Distinct : Value → Prop :=
  Everywhere fun part => ∀ ms, part = .object ms → (Members.names ms).Nodup

/-- All numbers are whole numbers. -/
def Whole : Value → Prop :=
  Everywhere fun part => ∀ n, part = .number n → ∃ k fits, n = .integer k fits

theorem Ordered.distinct {v : Value} (h : Ordered v) : Distinct v :=
  h.mono fun _ ascending ms same => (ascending ms same).nodup

theorem ordered_null : Ordered .null := by simp [Ordered, everywhere_null]

theorem ordered_text (s : String) : Ordered (.text s) := by simp [Ordered, everywhere_text]

theorem ordered_array_iff {vs : List Value} : Ordered (.array vs) ↔ ∀ v ∈ vs, Ordered v := by
  simp [Ordered, everywhere_array_iff]

theorem ordered_object_iff {ms : Members} :
    Ordered (.object ms) ↔ Members.Ascending ms ∧ ∀ m ∈ ms, Ordered m.2 := by
  simp [Ordered, everywhere_object_iff]

theorem distinct_array_iff {vs : List Value} : Distinct (.array vs) ↔ ∀ v ∈ vs, Distinct v := by
  simp [Distinct, everywhere_array_iff]

theorem distinct_object_iff {ms : Members} :
    Distinct (.object ms) ↔ (Members.names ms).Nodup ∧ ∀ m ∈ ms, Distinct m.2 := by
  simp [Distinct, everywhere_object_iff]

theorem distinct_number (n : Number) : Distinct (.number n) := by
  simp [Distinct, everywhere_number]

theorem whole_null : Whole .null := by simp [Whole, everywhere_null]

theorem whole_boolean (b : Bool) : Whole (.boolean b) := by simp [Whole, everywhere_boolean]

theorem whole_text (s : String) : Whole (.text s) := by simp [Whole, everywhere_text]

theorem whole_integer (n : Int) (fits : -2 ^ 63 ≤ n ∧ n < 2 ^ 64) :
    Whole (.number (.integer n fits)) := by
  rw [Whole, everywhere_number]
  rintro _ ⟨⟩
  exact ⟨n, fits, rfl⟩

theorem whole_array_iff {vs : List Value} : Whole (.array vs) ↔ ∀ v ∈ vs, Whole v := by
  simp [Whole, everywhere_array_iff]

theorem whole_object_iff {ms : Members} : Whole (.object ms) ↔ ∀ m ∈ ms, Whole m.2 := by
  simp [Whole, everywhere_object_iff]

theorem ordered_canonical (v : Value) : Ordered v.canonical := by
  induction v using Value.induction with
  | null => simp [Ordered, canonical, everywhere_null]
  | boolean b => simp [Ordered, canonical, everywhere_boolean]
  | number n => simp [Ordered, canonical, everywhere_number]
  | text s => simp [Ordered, canonical, everywhere_text]
  | array vs ih => simpa [ordered_array_iff] using ih
  | object ms ih =>
      rw [canonical_object, ordered_object_iff, canonicalMembers_eq_map]
      refine ⟨Members.ascending_ofWritten _, fun m hm => ?_⟩
      obtain ⟨original, horiginal, rfl⟩ := List.mem_map.1 (Members.mem_ofWritten hm)
      exact ih original horiginal

/-- A value in order is its own canonical form. -/
theorem Ordered.canonical_eq {v : Value} (h : Ordered v) : v.canonical = v := by
  induction v using Value.induction with
  | array vs ih =>
      rw [ordered_array_iff] at h
      rw [canonical_array, List.map_congr_left fun v hv => ih v hv (h v hv), List.map_id']
  | object ms ih =>
      rw [ordered_object_iff] at h
      have values : canonicalMembers ms = ms := by
        rw [canonicalMembers_eq_map]
        conv_rhs => rw [← List.map_id ms]
        exact List.map_congr_left fun m hm => by rw [ih m hm (h.2 m hm)]; rfl
      rw [canonical_object, values, Members.ofWritten_of_ascending h.1]
  | _ => rfl

/-! ## Nesting -/

/-- At most so many brackets are open at once. -/
inductive Fits : Nat → Value → Prop
  | null (room : Nat) : Fits room .null
  | boolean (room : Nat) (b : Bool) : Fits room (.boolean b)
  | number (room : Nat) (n : Number) : Fits room (.number n)
  | text (room : Nat) (s : String) : Fits room (.text s)
  | array {room : Nat} {vs : List Value} (h : ∀ v ∈ vs, Fits room v) : Fits (room + 1) (.array vs)
  | object {room : Nat} {ms : Members} (h : ∀ m ∈ ms, Fits room m.2) :
      Fits (room + 1) (.object ms)

theorem Fits.canonical {room : Nat} {v : Value} (h : Fits room v) : Fits room v.canonical := by
  induction h with
  | null => exact .null _
  | boolean => exact .boolean _ _
  | number => exact .number _ _
  | text => exact .text _ _
  | array h ih =>
      rw [canonical_array]
      refine .array fun v hv => ?_
      obtain ⟨original, horiginal, rfl⟩ := List.mem_map.1 hv
      exact ih original horiginal
  | object h ih =>
      rw [canonical_object, canonicalMembers_eq_map]
      refine .object fun m hm => ?_
      obtain ⟨original, horiginal, rfl⟩ := List.mem_map.1 (Members.mem_ofWritten hm)
      exact ih original horiginal

end Value

/-! ## What a reader yields -/

/-- Whatever is read is as said. -/
def Reading.Ensures (r : Reading α) (p : α → Prop) : Prop := ∀ a rest, r = .ok (a, rest) → p a

namespace Reading.Ensures

variable {p : α → Prop} {q : β → Prop}

theorem ok {a : α} {rest : Bytes} (h : p a) : Reading.Ensures (.ok (a, rest)) p := by
  rintro _ _ ⟨⟩
  exact h

theorem error (fault : Fault) : Reading.Ensures (.error fault) p := by
  rintro _ _ ⟨⟩

theorem faultAt (cause : Cause) (rest : Bytes) : Reading.Ensures (Json.faultAt cause rest) p :=
  error _

theorem andThen {r : Reading α} {next : α → Bytes → Reading β} (first : r.Ensures p)
    (then' : ∀ a rest, p a → (next a rest).Ensures q) : (r.andThen next).Ensures q := by
  cases r with
  | error fault => exact error fault
  | ok read =>
      obtain ⟨a, rest⟩ := read
      exact then' a rest (first a rest rfl)

theorem trivial (r : Reading α) : r.Ensures fun _ => True := fun _ _ _ => True.intro

theorem closed {r : Reading α} (h : r.Ensures p) (close : Bytes → Closing) :
    (Json.closed close r).Ensures p := by
  cases r with
  | error fault =>
      simp only [Json.closed]
      split <;> exact error _
  | ok read =>
      obtain ⟨a, rest⟩ := read
      simp only [Json.closed]
      split
      · exact ok (h a rest rfl)
      · exact error _

theorem items {item : Bytes → Reading α} (h : ∀ bs, (item bs).Ensures p) (bs : Bytes) :
    (Json.items item bs).Ensures fun as => ∀ a ∈ as, p a := by
  have all : ∀ bound first bs,
      (itemsFrom item bound first bs).Ensures fun as => ∀ a ∈ as, p a := by
    intro bound
    induction bound with
    | zero => exact fun first bs => faultAt _ _
    | succ bound ih =>
        intro first bs
        refine andThen (trivial _) fun more rest _ => ?_
        cases more with
        | false => exact ok (by simp)
        | true =>
            refine andThen (h rest) fun a rest ha => ?_
            exact andThen (ih false rest) fun as rest has => ok (by simpa using And.intro ha has)
  exact (all _ _ _).closed _

/-- What the members of an object leave unchanged is so at the end. -/
theorem members {member : σ → String → Bytes → Reading σ} {p : σ → Prop} {start : σ}
    (begin : p start) (step : ∀ state name bs, p state → (member state name bs).Ensures p)
    (bs : Bytes) : (Json.members member start bs).Ensures p := by
  have all : ∀ bound first state bs, p state →
      (membersFrom member bound first state bs).Ensures p := by
    intro bound
    induction bound with
    | zero => exact fun first state bs _ => faultAt _ _
    | succ bound ih =>
        intro first state bs hstate
        refine andThen (trivial _) fun name rest _ => ?_
        cases name with
        | none => exact ok hstate
        | some name =>
            exact andThen (step state name rest hstate) fun state rest h => ih false state rest h
  exact all _ _ _ _ begin

end Reading.Ensures

/-! ## What a value starts with -/

section Starts

open Ascii

/-- The reader of nested values, if there may be any. -/
def nestedReader : Nat → Option (Bytes → Reading Value)
  | 0 => none
  | room + 1 => some (valueAsWritten room)

theorem valueAsWritten_eq (room : Nat) :
    valueAsWritten room = valueWith .written (nestedReader room) := by
  cases room <;> rfl

theorem ne_of_digit {b c : UInt8} (h : (digit? b).isSome = true) (other : digit? c = none) :
    b ≠ c := by
  rintro rfl
  simp [other] at h

variable {joining : Joining} {nested : Option (Bytes → Reading Value)} {bs rest : Bytes}

theorem valueWith_nil (h : skipSpace bs = []) :
    valueWith joining nested bs = faultAt .unfinishedValue [] := by
  rw [valueWith, h]

theorem valueWith_null (h : skipSpace bs = 0x6E :: rest) :
    valueWith joining nested bs = (word ull rest).andThen fun _ rest => .ok (.null, rest) := by
  rw [valueWith, h]
  rfl

theorem valueWith_true (h : skipSpace bs = 0x74 :: rest) :
    valueWith joining nested bs =
      (word rue rest).andThen fun _ rest => .ok (.boolean true, rest) := by
  rw [valueWith, h]
  rfl

theorem valueWith_false (h : skipSpace bs = 0x66 :: rest) :
    valueWith joining nested bs =
      (word alse rest).andThen fun _ rest => .ok (.boolean false, rest) := by
  rw [valueWith, h]
  rfl

theorem valueWith_minus (h : skipSpace bs = minus :: rest) :
    valueWith joining nested bs =
      (number true rest).andThen fun n rest => .ok (.number n, rest) := by
  rw [valueWith, h]
  rfl

theorem valueWith_digit {b : UInt8} (h : skipSpace bs = b :: rest)
    (digit : (digit? b).isSome = true) :
    valueWith joining nested bs =
      (number false (b :: rest)).andThen fun n rest => .ok (.number n, rest) := by
  rw [valueWith, h]
  dsimp only
  rw [if_neg (ne_of_digit digit (by decide)), if_neg (ne_of_digit digit (by decide)),
    if_neg (ne_of_digit digit (by decide)), if_neg (ne_of_digit digit (by decide)), if_pos digit]

theorem valueWith_quote (h : skipSpace bs = quote :: rest) :
    valueWith joining nested bs = (text rest).andThen fun s rest => .ok (.text s, rest) := by
  rw [valueWith, h]
  rfl

theorem valueWith_leftBracket (h : skipSpace bs = leftBracket :: rest) :
    valueWith joining nested bs =
      match nested with
      | none => faultAt .nestedTooDeeply rest
      | some read => (items read rest).andThen fun vs rest => .ok (.array vs, rest) := by
  rw [valueWith, h]
  rfl

theorem valueWith_leftBrace (h : skipSpace bs = leftBrace :: rest) :
    valueWith joining nested bs =
      match nested with
      | none => faultAt .nestedTooDeeply rest
      | some read =>
        (closed closeObject (members (valueMember joining read) [] rest)).andThen fun ms rest =>
          .ok (.object ms, rest) := by
  rw [valueWith, h]
  rfl

end Starts

/-- A value fits into the brackets that were allowed in reading it. -/
theorem valueAsWritten_fits (room : Nat) (bs : Bytes) :
    (valueAsWritten room bs).Ensures (Value.Fits room) := by
  have layer : ∀ (nested : Option (Bytes → Reading Value)) (room : Nat),
      (∀ read ∈ nested, ∃ inner, room = inner + 1 ∧ ∀ bs, (read bs).Ensures (Value.Fits inner)) →
      ∀ bs, (valueWith .written nested bs).Ensures (Value.Fits room) := by
    intro nested room inside bs
    simp only [valueWith]
    cases skipSpace bs with
    | nil => exact .faultAt _ _
    | cons b rest =>
        dsimp only
        split_ifs
        · exact .andThen (.trivial _) fun _ _ _ => .ok (.null _)
        · exact .andThen (.trivial _) fun _ _ _ => .ok (.boolean _ _)
        · exact .andThen (.trivial _) fun _ _ _ => .ok (.boolean _ _)
        · exact .andThen (.trivial _) fun _ _ _ => .ok (.number _ _)
        · exact .andThen (.trivial _) fun _ _ _ => .ok (.number _ _)
        · exact .andThen (.trivial _) fun _ _ _ => .ok (.text _ _)
        · cases nested with
          | none => exact .faultAt _ _
          | some read =>
              obtain ⟨inner, rfl, fits⟩ := inside read rfl
              exact .andThen (.items fits rest) fun vs _ h => .ok (.array h)
        · cases nested with
          | none => exact .faultAt _ _
          | some read =>
              obtain ⟨inner, rfl, fits⟩ := inside read rfl
              refine .andThen (.closed (.members (p := fun ms => ∀ m ∈ ms, Value.Fits inner m.2)
                (by simp) (fun ms name bs hms => ?_) rest) _) fun ms _ h => .ok (.object h)
              refine .andThen (.trivial _) fun _ rest _ => ?_
              refine .andThen (fits rest) fun v rest hv => .ok fun m hm => ?_
              rcases List.mem_append.1 hm with hm | hm
              · exact hms m hm
              · obtain rfl := List.mem_singleton.1 hm
                exact hv
        · exact .faultAt _ _
  induction room generalizing bs with
  | zero => exact layer none 0 (by simp) bs
  | succ room ih =>
      refine layer (some (valueAsWritten room)) (room + 1) ?_ bs
      rintro read ⟨⟩
      exact ⟨room, rfl, ih⟩

end FormSieve.Json
