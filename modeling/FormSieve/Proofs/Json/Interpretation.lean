import FormSieve.Proofs.Json.Printing
import FormSieve.Proofs.Json.Progress

/-!
# What decoders make of documents

A decoder goes over a document by its own way. It is understood through the value that is written
there: whatever it yields is what some function makes of that value, and it yields something
whenever the function does. Faults are not compared.
-/

namespace FormSieve.Json

open Ascii

namespace Reading

theorem andThen_eq_ok_iff {r : Reading α} {next : α → Bytes → Reading β} {b : β} {rest : Bytes} :
    r.andThen next = .ok (b, rest) ↔
      ∃ a between, r = .ok (a, between) ∧ next a between = .ok (b, rest) := by
  cases r with
  | error fault => simp
  | ok read =>
      obtain ⟨a, between⟩ := read
      simp

theorem andThen_andThen (r : Reading α) (next : α → Bytes → Reading β)
    (last : β → Bytes → Reading γ) :
    (r.andThen next).andThen last = r.andThen fun a rest => (next a rest).andThen last := by
  cases r <;> rfl

/-- `r` yields what `f` makes of what `base` yields and leaves the same. -/
def Follows (r : Reading β) (base : Reading α) (f : α → Option β) : Prop :=
  ∀ b rest, r = .ok (b, rest) ↔ ∃ a, base = .ok (a, rest) ∧ f a = some b

namespace Follows

variable {r : Reading β} {base : Reading α} {f : α → Option β}

theorem self (r : Reading α) : r.Follows r some := by
  simp [Follows]

theorem ok {a : α} {b : β} {rest : Bytes} (h : f a = some b) :
    Reading.Follows (.ok (b, rest)) (.ok (a, rest)) f := by
  intro b' rest'
  simp [and_comm, h]

/-- A reader that finds a fault follows another of which nothing can be made. -/
theorem nothing {fault : Fault} (h : base.Ensures fun a => f a = none) :
    Reading.Follows (.error fault) base f := by
  intro b rest
  constructor
  · intro read
    cases read
  · rintro ⟨a, read, made⟩
    rw [h a rest read] at made
    cases made

theorem congr {g : α → Option β} (h : r.Follows base f) (same : base.Ensures fun a => f a = g a) :
    r.Follows base g := by
  intro b rest
  rw [h b rest]
  exact exists_congr fun a => and_congr_right fun read => by rw [same a rest read]

theorem map (h : r.Follows base f) (g : β → γ) :
    (r.andThen fun b rest => .ok (g b, rest)).Follows base fun a => (f a).map g := by
  intro c rest
  rw [andThen_eq_ok_iff]
  constructor
  · rintro ⟨b, between, read, same⟩
    cases same
    obtain ⟨a, first, made⟩ := (h b rest).1 read
    exact ⟨a, first, Option.map_eq_some_iff.2 ⟨b, made, rfl⟩⟩
  · rintro ⟨a, read, made⟩
    obtain ⟨b, hb, rfl⟩ := Option.map_eq_some_iff.1 made
    exact ⟨b, rest, (h b rest).2 ⟨a, read, hb⟩, rfl⟩

/-- Either both readers go on, or one finds a fault and nothing can be made of the other. -/
theorem cases (h : r.Follows base f) :
    (∃ a b rest, base = .ok (a, rest) ∧ f a = some b ∧ r = .ok (b, rest)) ∨
      (∃ fault, r = .error fault) ∧ base.Ensures fun a => f a = none := by
  cases r with
  | ok read =>
      obtain ⟨b, rest⟩ := read
      obtain ⟨a, read, made⟩ := (h b rest).1 rfl
      exact .inl ⟨a, b, rest, read, made, rfl⟩
  | error fault =>
      refine .inr ⟨⟨fault, rfl⟩, fun a rest read => ?_⟩
      cases made : f a with
      | none => exact made
      | some b => cases (h b rest).2 ⟨a, read, made⟩

/-- What is followed may be wrapped up. -/
theorem wrap {g : γ → Option β} (h : r.Follows base f) {wrapped : α → γ}
    (same : ∀ a, g (wrapped a) = f a) :
    r.Follows (base.andThen fun a rest => .ok (wrapped a, rest)) g := by
  intro b rest
  rw [h b rest]
  constructor
  · rintro ⟨a, read, made⟩
    exact ⟨wrapped a, by rw [read]; rfl, by rw [same, made]⟩
  · rintro ⟨c, read, made⟩
    obtain ⟨a, between, first, again⟩ := andThen_eq_ok_iff.1 read
    cases again
    exact ⟨a, first, by rw [← same, made]⟩

theorem andThen {first : Reading δ} {next : δ → Bytes → Reading β} {next' : δ → Bytes → Reading α}
    (h : ∀ d rest, (next d rest).Follows (next' d rest) f) :
    (first.andThen next).Follows (first.andThen next') f := by
  intro b rest
  rw [andThen_eq_ok_iff]
  constructor
  · rintro ⟨d, between, read, more⟩
    obtain ⟨a, more, made⟩ := (h d between b rest).1 more
    exact ⟨a, andThen_eq_ok_iff.2 ⟨d, between, read, more⟩, made⟩
  · rintro ⟨a, read, made⟩
    obtain ⟨d, between, read, more⟩ := andThen_eq_ok_iff.1 read
    exact ⟨d, between, read, (h d between b rest).2 ⟨a, more, made⟩⟩

/-- What is followed may be worked on further. -/
theorem bind {next : β → Bytes → Reading γ} {g : β → Option γ} (h : r.Follows base f)
    (last : ∀ b rest, (next b rest).Follows (.ok (b, rest)) g) :
    (r.andThen next).Follows base fun a => (f a).bind g := by
  intro c rest
  rw [andThen_eq_ok_iff]
  constructor
  · rintro ⟨b, between, read, more⟩
    obtain ⟨_, ⟨⟩, hc⟩ := (last b between c rest).1 more
    obtain ⟨a, first, hb⟩ := (h b rest).1 read
    exact ⟨a, first, Option.bind_eq_some_iff.2 ⟨b, hb, hc⟩⟩
  · rintro ⟨a, first, made⟩
    obtain ⟨b, hb, hc⟩ := Option.bind_eq_some_iff.1 made
    exact ⟨b, rest, (h b rest).2 ⟨a, first, hb⟩, (last b rest c rest).2 ⟨b, rfl, hc⟩⟩

/-- Going on after what is followed: where nothing can be made of the beginning, nothing can be
made of the whole. -/
theorem andThen_of_follows {next : β → Bytes → Reading γ} {next' : α → Bytes → Reading δ}
    {g : δ → Option γ} (h : r.Follows base f)
    (made : ∀ a b rest, f a = some b → (next b rest).Follows (next' a rest) g)
    (unmade : ∀ a rest, f a = none → (next' a rest).Ensures fun d => g d = none) :
    (r.andThen next).Follows (base.andThen next') g := by
  intro c rest
  rw [andThen_eq_ok_iff]
  constructor
  · rintro ⟨b, between, read, more⟩
    obtain ⟨a, first, hb⟩ := (h b between).1 read
    obtain ⟨d, more, hc⟩ := (made a b between hb c rest).1 more
    exact ⟨d, andThen_eq_ok_iff.2 ⟨a, between, first, more⟩, hc⟩
  · rintro ⟨d, read, hc⟩
    obtain ⟨a, between, first, more⟩ := andThen_eq_ok_iff.1 read
    cases hb : f a with
    | none =>
        rw [unmade a between hb d rest more] at hc
        cases hc
    | some b =>
        exact ⟨b, between, (h b between).2 ⟨a, first, hb⟩,
          (made a b between hb c rest).2 ⟨d, more, hc⟩⟩

end Follows

end Reading

theorem closed_eq_ok_iff {close : Bytes → Closing} {r : Reading α} {a : α} {rest : Bytes} :
    closed close r = .ok (a, rest) ↔
      ∃ between, r = .ok (a, between) ∧ close between = ⟨rest, none⟩ := by
  cases r with
  | error fault =>
      simp only [closed]
      split <;> simp
  | ok read =>
      obtain ⟨a', between⟩ := read
      simp only [closed]
      split
      · next left closing =>
        constructor
        · rintro ⟨⟩
          exact ⟨between, rfl, closing⟩
        · rintro ⟨_, ⟨⟩, closing'⟩
          rw [closing] at closing'
          cases closing'
          rfl
      · next left fault closing =>
        constructor
        · intro h
          cases h
        · rintro ⟨_, ⟨⟩, closing'⟩
          rw [closing] at closing'
          cases closing'

theorem Reading.Follows.closed {r : Reading β} {base : Reading α} {f : α → Option β}
    (h : r.Follows base f) (close : Bytes → Closing) :
    (Json.closed close r).Follows (Json.closed close base) f := by
  intro b rest
  simp only [closed_eq_ok_iff, h b]
  constructor
  · rintro ⟨between, ⟨a, read, made⟩, closing⟩
    exact ⟨a, ⟨between, read, closing⟩, made⟩
  · rintro ⟨a, ⟨between, read, closing⟩, made⟩
    exact ⟨between, ⟨a, read, made⟩, closing⟩

/-- Items that follow other items make up a list that follows theirs. -/
theorem items_follows {item : Bytes → Reading β} {base : Bytes → Reading α} {f : α → Option β}
    (h : ∀ bs, (item bs).Follows (base bs) f) (bs : Bytes) :
    (items item bs).Follows (items base bs) (List.mapM f) := by
  have all : ∀ bound first bs,
      (itemsFrom item bound first bs).Follows (itemsFrom base bound first bs) (List.mapM f) := by
    intro bound
    induction bound with
    | zero => exact fun first bs => .nothing (.faultAt _ _)
    | succ bound ih =>
        intro first bs
        refine .andThen fun more rest => ?_
        cases more with
        | false =>
            intro bs' rest'
            simp [eq_comm, and_comm]
        | true =>
            intro made rest'
            simp only [if_true, Reading.andThen_eq_ok_iff, h _ _ _, ih _ _ _ _]
            constructor
            · rintro ⟨b, between, ⟨a, read, one⟩, bs, behind, ⟨as, others, many⟩, ⟨⟩⟩
              exact ⟨a :: as, ⟨a, between, read, as, rest', others, rfl⟩, by simp [one, many]⟩
            · rintro ⟨_, ⟨a, between, read, as, behind, others, ⟨⟩⟩, many⟩
              simp only [List.mapM_cons, Option.pure_def, Option.bind_eq_bind,
                Option.bind_eq_some_iff] at many
              obtain ⟨b, one, bs, many, ⟨⟩⟩ := many
              exact ⟨b, between, ⟨a, read, one⟩, bs, rest', ⟨as, others, many⟩, rfl⟩
  exact (all _ _ _).closed _

/-! ## The first byte of a value -/

/-- The bytes that a value may start with. -/
def Value.Opens : Value → UInt8 → Prop
  | .null, b => b = 0x6E
  | .boolean true, b => b = 0x74
  | .boolean false, b => b = 0x66
  | .number _, b => b = minus ∨ (digit? b).isSome = true
  | .text _, b => b = quote
  | .array _, b => b = leftBracket
  | .object _, b => b = leftBrace

theorem valueAsWritten_opens {bs rest : Bytes} {b : UInt8} (h : skipSpace bs = b :: rest)
    (room : Nat) : (valueAsWritten room bs).Ensures (Value.Opens · b) := by
  rw [valueAsWritten_eq, valueWith, h]
  dsimp only
  split_ifs with null true' false' negative digit text array object
  · exact .andThen (.trivial _) fun _ _ _ => .ok null
  · exact .andThen (.trivial _) fun _ _ _ => .ok true'
  · exact .andThen (.trivial _) fun _ _ _ => .ok false'
  · exact .andThen (.trivial _) fun _ _ _ => .ok (.inl negative)
  · exact .andThen (.trivial _) fun _ _ _ => .ok (.inr digit)
  · exact .andThen (.trivial _) fun _ _ _ => .ok text
  · split
    · exact .faultAt _ _
    · exact .andThen (.trivial _) fun _ _ _ => .ok array
  · split
    · exact .faultAt _ _
    · exact .andThen (.trivial _) fun _ _ _ => .ok object
  · exact .faultAt _ _

/-- Something else than expected is always a fault. -/
theorem exists_mismatch (expected : Expected) (bs : Bytes) :
    ∃ fault, (mismatch expected bs : Reading α) = .error fault := by
  have faulty : ∀ {β : Type} (r : Reading β) (cause : β → Cause),
      ∃ fault, (r.andThen fun b rest => faultAt (cause b) rest : Reading α) = .error fault := by
    intro β r cause
    cases r with
    | error fault => exact ⟨fault, rfl⟩
    | ok read => exact ⟨_, rfl⟩
  unfold mismatch
  split
  · exact ⟨_, rfl⟩
  · split_ifs
    · exact faulty _ _
    · exact faulty _ _
    · exact faulty _ _
    · exact faulty _ _
    · exact faulty _ _
    · exact faulty _ _
    · exact ⟨_, rfl⟩
    · exact ⟨_, rfl⟩
    · exact ⟨_, rfl⟩

/-- A decoder that refuses what starts with some byte follows the values of which nothing can be
made if they start so. -/
theorem mismatch_follows {f : Value → Option α} {bs rest : Bytes} {b : UInt8}
    (h : skipSpace bs = b :: rest) (expected : Expected) (room : Nat)
    (nothing : ∀ v : Value, v.Opens b → f v = none) :
    (mismatch expected (b :: rest)).Follows (valueAsWritten room bs) f := by
  obtain ⟨fault, refused⟩ := exists_mismatch (α := α) expected (b :: rest)
  rw [refused]
  exact .nothing fun v left read => nothing v (valueAsWritten_opens h room v left read)

/-! ## Decoders of plain values -/

/-- What the decoder yields is what `f` makes of the value as it is written. -/
def Decoder.Interprets (decoder : Decoder α) (f : Value → Option α) : Prop :=
  ∀ room bs, (decoder room bs).Follows (valueAsWritten room bs) f

namespace Value

def asText : Value → Option String
  | .text s => some s
  | _ => none

def asBoolean : Value → Option Bool
  | .boolean b => some b
  | _ => none

/-- Nothing but `null`. -/
def asUnit : Value → Option Unit
  | .null => some ()
  | _ => none

/-- A whole number from zero up to but not including `limit`. -/
def asNatural (limit : Nat) : Value → Option Nat
  | .number (.integer n _) => if 0 ≤ n ∧ n < limit then some n.toNat else none
  | _ => none

def asUnsigned64 (v : Value) : Option UInt64 := (v.asNatural (2 ^ 64)).map UInt64.ofNat

def asUnsigned16 (v : Value) : Option UInt16 := (v.asNatural (2 ^ 16)).map UInt16.ofNat

/-- `none` stands for `null`. -/
def asOptional (f : Value → Option α) : Value → Option (Option α)
  | .null => some none
  | v => (f v).map some

/-- The items of a list, all of which must be as expected. -/
def asList (f : Value → Option α) : Value → Option (List α)
  | .array vs => vs.mapM f
  | _ => none

@[simp] theorem asText_canonical (v : Value) : v.canonical.asText = v.asText := by
  cases v <;> rfl

@[simp] theorem asNatural_canonical (limit : Nat) (v : Value) :
    v.canonical.asNatural limit = v.asNatural limit := by
  cases v <;> rfl

theorem asUnsigned64_canonical (v : Value) : v.canonical.asUnsigned64 = v.asUnsigned64 := by
  rw [asUnsigned64, asNatural_canonical, asUnsigned64]

theorem asNatural_natural {limit n : Nat} (fits : n < 2 ^ 64) (h : n < limit) :
    (natural n fits).asNatural limit = some n := by
  simp [natural, asNatural, h]

theorem asUnsigned64_natural (n : UInt64) :
    (natural n.toNat n.toNat_lt).asUnsigned64 = some n := by
  rw [asUnsigned64, asNatural_natural _ n.toNat_lt, Option.map_some, UInt64.ofNat_toNat]

theorem asUnsigned16_natural (n : UInt16) (fits : n.toNat < 2 ^ 64) :
    (natural n.toNat fits).asUnsigned16 = some n := by
  rw [asUnsigned16, asNatural_natural _ n.toNat_lt, Option.map_some, UInt16.ofNat_toNat]

theorem asOptional_canonical {f : Value → Option α} (h : ∀ v : Value, f v.canonical = f v)
    (v : Value) : v.canonical.asOptional f = v.asOptional f := by
  have same := h v
  cases v <;> simp only [canonical, asOptional] at same ⊢ <;> rw [same]

/-- A list is made item by item. -/
theorem mapM_eq_some_iff {f : α → Option β} {as : List α} {bs : List β} :
    as.mapM f = some bs ↔ List.Forall₂ (fun a b => f a = some b) as bs := by
  induction as generalizing bs with
  | nil => simp [eq_comm]
  | cons a as ih =>
      simp only [List.mapM_cons, Option.pure_def, Option.bind_eq_bind, Option.bind_eq_some_iff, ih,
        List.forall₂_cons_left_iff, Option.some.injEq]
      constructor
      · rintro ⟨b, first, bs, others, rfl⟩
        exact ⟨b, bs, first, others, rfl⟩
      · rintro ⟨b, bs, first, others, rfl⟩
        exact ⟨b, first, bs, others, rfl⟩

theorem map_eq_map_of_mapM {f : α → Option β} {g : β → γ} {g' : α → γ} {as : List α}
    {bs : List β} (h : as.mapM f = some bs) (same : ∀ a ∈ as, ∀ b, f a = some b → g b = g' a) :
    bs.map g = as.map g' := by
  induction mapM_eq_some_iff.1 h with
  | nil => rfl
  | @cons a b as bs first others ih =>
      rw [List.map_cons, List.map_cons, same a (List.mem_cons_self ..) b first,
        ih (mapM_eq_some_iff.2 others) fun a ha => same a (List.mem_cons_of_mem _ ha)]

theorem exists_of_mem_mapM {f : α → Option β} {as : List α} {bs : List β}
    (h : as.mapM f = some bs) {b : β} (hb : b ∈ bs) : ∃ a ∈ as, f a = some b := by
  induction mapM_eq_some_iff.1 h with
  | nil => cases hb
  | @cons a b' as bs first others ih =>
      rcases List.mem_cons.1 hb with rfl | hb
      · exact ⟨a, List.mem_cons_self .., first⟩
      · obtain ⟨a', ha', made⟩ := ih (mapM_eq_some_iff.2 others) hb
        exact ⟨a', List.mem_cons_of_mem _ ha', made⟩

/-- A list is made of the canonical items if each of its items is. -/
theorem asList_canonical_of {f g : Value → Option α}
    (h : ∀ v a, f v = some a → g v.canonical = some a) {v : Value} {as : List α}
    (made : v.asList f = some as) : v.canonical.asList g = some as := by
  cases v with
  | array vs =>
      rw [canonical_array]
      refine mapM_eq_some_iff.2 (List.forall₂_map_left_iff.2 ?_)
      exact (mapM_eq_some_iff.1 made).imp h
  | _ => cases made

theorem asList_canonical {f g : Value → Option α} {vs : List Value}
    (h : ∀ v ∈ vs, f v = g v.canonical) :
    (Value.array vs).asList f = (Value.array vs).canonical.asList g := by
  rw [canonical_array]
  change vs.mapM f = (vs.map canonical).mapM g
  induction vs with
  | nil => rfl
  | cons v vs ih =>
      rw [List.mapM_cons, List.map_cons, List.mapM_cons, h v (List.mem_cons_self ..),
        ih fun v hv => h v (List.mem_cons_of_mem _ hv)]

end Value

namespace Decoder.Interprets

theorem map {decoder : Decoder α} {f : Value → Option α} (h : decoder.Interprets f) (g : α → β) :
    Interprets (fun room bs => (decoder room bs).andThen fun a rest => .ok (g a, rest))
      fun v => (f v).map g :=
  fun room bs => (h room bs).map g

theorem value : Decoder.value.Interprets fun v => some v.canonical := by
  intro room bs
  rw [Decoder.value, value_eq_map_canonical]
  exact (Reading.Follows.self _).map Value.canonical

/-- A decoder that finds nothing where there is no value. -/
theorem missing {f : Value → Option α} {bs : Bytes} {fault : Fault} (h : skipSpace bs = [])
    (room : Nat) : Reading.Follows (.error fault) (valueAsWritten room bs) f := by
  rw [valueAsWritten_eq, valueWith_nil h]
  exact .nothing (.faultAt _ _)

theorem text : Decoder.text.Interprets Value.asText := by
  intro room bs
  rw [Decoder.text]
  split
  · next h => exact missing h room
  · next b rest h =>
    split
    · next opens =>
      subst opens
      rw [valueAsWritten_eq, valueWith_quote h]
      exact (Reading.Follows.self _).wrap fun _ => rfl
    · next other =>
      refine mismatch_follows h _ room fun v opens => ?_
      cases v with
      | text s => exact absurd opens other
      | _ => rfl

theorem boolean : Decoder.boolean.Interprets Value.asBoolean := by
  intro room bs
  rw [Decoder.boolean]
  split
  · next h => exact missing h room
  · next b rest h =>
    split_ifs with true' false'
    · subst true'
      rw [valueAsWritten_eq, valueWith_true h]
      exact .andThen fun _ _ => .ok rfl
    · subst false'
      rw [valueAsWritten_eq, valueWith_false h]
      exact .andThen fun _ _ => .ok rfl
    · refine mismatch_follows h _ room fun v opens => ?_
      cases v with
      | boolean b => cases b <;> contradiction
      | _ => rfl

theorem unit : Decoder.unit.Interprets Value.asUnit := by
  intro room bs
  rw [Decoder.unit]
  split
  · next h => exact missing h room
  · next b rest h =>
    split
    · next null =>
      subst null
      rw [valueAsWritten_eq, valueWith_null h]
      exact (Reading.Follows.self _).wrap fun _ => rfl
    · next other =>
      refine mismatch_follows h _ room fun v opens => ?_
      cases v with
      | null => exact absurd opens other
      | _ => rfl

theorem natural (limit : Nat) (expected : Expected) :
    (Decoder.natural limit expected).Interprets (Value.asNatural limit) := by
  intro room bs
  have whole (n : Int) (fits) (rest : Bytes) :
      Reading.Follows
        (if 0 ≤ n ∧ n < limit then .ok (n.toNat, rest) else faultAt (.wrongValue n expected) rest)
        (.ok (.number (.integer n fits), rest)) (Value.asNatural limit) := by
    intro k rest'
    split <;> simp_all [Value.asNatural, faultAt, eq_comm, and_comm]
  have double (x) (rest : Bytes) :
      Reading.Follows (faultAt (.wrongType (.float x) expected) rest)
        (.ok (.number (.float x), rest)) (Value.asNatural limit) := by
    intro k rest'
    simp [Value.asNatural, faultAt]
  rw [Decoder.natural]
  split
  · next h => exact missing h room
  · next b rest h =>
    split_ifs with negative digit
    · subst negative
      rw [valueAsWritten_eq, valueWith_minus h]
      refine .andThen fun n rest => ?_
      cases n with
      | integer n fits => exact whole n fits rest
      | float x => exact double x rest
    · rw [valueAsWritten_eq, valueWith_digit h digit]
      refine .andThen fun n rest => ?_
      cases n with
      | integer n fits => exact whole n fits rest
      | float x => exact double x rest
    · refine mismatch_follows h _ room fun v opens => ?_
      cases v with
      | number n => exact absurd opens (not_or.2 ⟨negative, digit⟩)
      | _ => rfl

theorem unsigned16 : Decoder.unsigned16.Interprets Value.asUnsigned16 :=
  (natural _ _).map UInt16.ofNat

theorem unsigned64 : Decoder.unsigned64.Interprets Value.asUnsigned64 :=
  (natural _ _).map UInt64.ofNat

theorem optional {decoder : Decoder α} {f : Value → Option α} (h : decoder.Interprets f) :
    (Decoder.optional decoder).Interprets (Value.asOptional f) := by
  intro room bs
  have present : ∀ v : Value, v ≠ .null → (f v).map some = Value.asOptional f v := by
    intro v other
    cases v <;> first | rfl | contradiction
  rw [Decoder.optional]
  split
  · next b rest opens =>
    split
    · next null =>
      subst null
      rw [valueAsWritten_eq, valueWith_null opens]
      exact .andThen fun _ _ => .ok rfl
    · next other =>
      refine ((h room bs).map some).congr fun v left read => present v ?_
      rintro rfl
      exact other (valueAsWritten_opens opens room .null left read)
  · next opens =>
    refine ((h room bs).map some).congr ?_
    rw [valueAsWritten_eq, valueWith_nil opens]
    exact .faultAt _ _

theorem list {decoder : Decoder α} {f : Value → Option α} (h : decoder.Interprets f) :
    (Decoder.list decoder).Interprets (Value.asList f) := by
  intro room bs
  rw [Decoder.list]
  split
  · next opens => exact missing opens room
  · next b rest opens =>
    split
    · next bracket =>
      subst bracket
      rw [valueAsWritten_eq, valueWith_leftBracket opens]
      cases room with
      | zero => exact .nothing (.faultAt _ _)
      | succ room => exact (items_follows (h room) rest).wrap fun _ => rfl
    · next other =>
      refine mismatch_follows opens _ room fun v opens => ?_
      cases v with
      | array vs => exact absurd opens other
      | _ => rfl

end Decoder.Interprets

/-! ## Whole documents -/

theorem decode_eq_ok_iff {decoder : Decoder α} {document : Bytes} {a : α} :
    decode decoder document = .ok a ↔
      ∃ rest, decoder maxDepth document = .ok (a, rest) ∧ skipSpace rest = [] := by
  rw [decode]
  cases decoder maxDepth document with
  | error fault => simp
  | ok read =>
      obtain ⟨b, rest⟩ := read
      cases blank : skipSpace rest with
      | nil => simp [blank]
      | cons c left => simp [blank]

/-- What is followed in every place is followed in whole documents. -/
theorem decode_eq_ok_iff_of_follows {decoder : Decoder β} {base : Decoder α} {f : α → Option β}
    (h : ∀ room bs, (decoder room bs).Follows (base room bs) f) {document : Bytes} {b : β} :
    decode decoder document = .ok b ↔ ∃ a, decode base document = .ok a ∧ f a = some b := by
  simp only [decode_eq_ok_iff, h _ _ _ _]
  constructor
  · rintro ⟨rest, ⟨a, read, made⟩, blank⟩
    exact ⟨a, ⟨rest, read, blank⟩, made⟩
  · rintro ⟨a, ⟨rest, read, blank⟩, made⟩
    exact ⟨rest, ⟨a, read, made⟩, blank⟩

end FormSieve.Json
