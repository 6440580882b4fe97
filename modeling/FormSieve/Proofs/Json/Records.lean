import FormSieve.Proofs.Json.Interpretation

/-!
# What records make of documents

Each field of a record is a function of a value, and a record is what comes of taking in the
members of an object one after the other. Some records pass over the members that they do not
know, which need not be values at all; for them the document is read without those members. A
record may also be written as the list of its fields.
-/

namespace FormSieve.Json

open Ascii

/-! ## Members -/

/-- The value of a member, from behind its name. -/
def memberValue (read : Bytes → Reading Value) (bs : Bytes) : Reading Value :=
  (pastColon bs).andThen fun _ rest => read rest

/-- What becomes of a field that may be given once when one more member comes: a member of
another name leaves it as it is. -/
def takeField (name : String) (f : Value → Option α) (known : Option α) (m : String × Value) :
    Option (Option α) :=
  if m.1 = name then if known.isSome then none else (f m.2).map some else some known

/-- What becomes of the members without a meaning when one more member comes. -/
def takeExtra (fields : List String) (extra : Members) (m : String × Value) : Members :=
  if m.1 ∈ fields then extra else extra.insert m.1 m.2.canonical

theorem takeField_other {name : String} {m : String × Value} (h : m.1 ≠ name)
    (f : Value → Option α) (known : Option α) : takeField name f known m = some known :=
  if_neg h

theorem bind_some_eq_map (o : Option α) (f : α → β) : (o.bind fun a => some (f a)) = o.map f :=
  Option.map_eq_bind.symm

theorem field_follows {decoder : Decoder α} {f : Value → Option α} (h : decoder.Interprets f)
    {name : String} {known : Option α} (put : Option α → δ) {g : Value → Option δ}
    (same : ∀ v, (takeField name f known (name, v)).map put = g v) (room : Nat) (bs : Bytes) :
    (Decoder.field name known decoder (fun a => put (some a)) room bs).Follows
      (memberValue (valueAsWritten room) bs) g := by
  rw [Decoder.field]
  split
  · next given => exact .nothing fun v _ _ => by simp [← same, takeField, given]
  · next given =>
    refine .andThen fun _ rest => ((h room rest).map _).congr fun v _ _ => ?_
    simp [← same, takeField, given, Function.comp_def]

theorem extraField_follows {extra : Members} {name : String} (put : Members → δ)
    {g : Value → Option δ} (same : ∀ v, some (put (extra.insert name v.canonical)) = g v)
    (room : Nat) (bs : Bytes) :
    (Decoder.extraField extra name put room bs).Follows (memberValue (valueAsWritten room) bs)
      g := by
  rw [Decoder.extraField, valueMember, Reading.andThen_andThen]
  refine .andThen fun _ rest => ?_
  rw [Reading.andThen_andThen, ← funext same]
  exact (Decoder.Interprets.value room rest).map fun v => put (extra.insert name v)

/-- Reads one more member of an object as it is written if its name is to be kept, and passes
over it otherwise. -/
def outlineMember (keeps : String → Bool) (read : Bytes → Reading Value) (ms : Members)
    (name : String) (bs : Bytes) : Reading Members :=
  if keeps name then valueMember .written read ms name bs else Decoder.unknownField ms bs

/-- Reads a value as it is written, without those members of an outermost object that are not to
be kept. -/
def outline (keeps : String → Bool) (room : Nat) (bs : Bytes) : Reading Value :=
  match skipSpace bs, room with
  | 0x7B :: rest, room + 1 =>
    (closed closeObject (members (outlineMember keeps (valueAsWritten room)) [] rest)).andThen
      fun ms rest => .ok (.object ms, rest)
  | _, _ => valueAsWritten room bs

theorem outline_leftBrace (keeps : String → Bool) {bs rest : Bytes}
    (h : skipSpace bs = leftBrace :: rest) (room : Nat) :
    outline keeps (room + 1) bs =
      (closed closeObject
        (members (outlineMember keeps (valueAsWritten room)) [] rest)).andThen
          fun ms rest => .ok (.object ms, rest) := by
  simp only [outline, h]

theorem outline_zero (keeps : String → Bool) (bs : Bytes) :
    outline keeps 0 bs = valueAsWritten 0 bs := by
  unfold outline
  split
  · contradiction
  · rfl

/-- A document that is no object is read as it is written. -/
theorem outline_of_ne (keeps : String → Bool) {bs : Bytes}
    (h : ∀ rest, skipSpace bs ≠ leftBrace :: rest) (room : Nat) :
    outline keeps room bs = valueAsWritten room bs := by
  unfold outline
  split
  · next rest _ brace => exact absurd brace (h rest)
  · rfl

/-- Where all members are kept, a document is read as it is written. -/
theorem outline_all (room : Nat) (bs : Bytes) :
    outline (fun _ => true) room bs = valueAsWritten room bs := by
  unfold outline
  split
  · next rest room h =>
    rw [valueAsWritten_eq room.succ, valueWith_leftBrace h]
    rfl
  · rfl

theorem outlineMember_cons (keeps : String → Bool) (read : Bytes → Reading Value)
    (m : String × Value) (ms : Members) (name : String) (bs : Bytes) :
    outlineMember keeps read (m :: ms) name bs =
      Reading.map (m :: ·) (outlineMember keeps read ms name bs) := by
  unfold outlineMember
  split
  · simp [valueMember, Joining.written]
  · simp [Decoder.unknownField]

/-- The members of a record are taken in as those of the document. -/
theorem members_follows {member : δ → String → Bytes → Reading δ}
    {step : δ → String × Value → Option δ} {keeps : String → Bool}
    {read : Bytes → Reading Value}
    (kept : ∀ draft name bs, keeps name = true →
      (member draft name bs).Follows (memberValue read bs) fun v => step draft (name, v))
    (passed : ∀ draft name bs, keeps name = false →
      member draft name bs = Decoder.unknownField draft bs) (start : δ) (bs : Bytes) :
    (members member start bs).Follows (members (outlineMember keeps read) [] bs)
      (List.foldlM step start) := by
  have all : ∀ bound first draft bs,
      (membersFrom member bound first draft bs).Follows
        (membersFrom (outlineMember keeps read) bound first [] bs) (List.foldlM step draft) := by
    intro bound
    induction bound with
    | zero => exact fun _ _ _ => .nothing (.faultAt _ _)
    | succ bound ih =>
        intro first draft bs
        refine .andThen fun name rest => ?_
        cases name with
        | none => exact .ok rfl
        | some name =>
            dsimp only
            cases keep : keeps name with
            | false =>
                simp only [passed draft name rest keep, outlineMember, keep, Bool.false_eq_true,
                  if_false, Decoder.unknownField, Reading.andThen_andThen]
                exact .andThen fun _ rest => .andThen fun _ rest => ih false draft rest
            | true =>
                have first : outlineMember keeps read [] name rest =
                    (memberValue read rest).andThen fun v rest => .ok ([(name, v)], rest) := by
                  simp [outlineMember, keep, valueMember, memberValue, Joining.written,
                    Reading.andThen_andThen]
                have shift : ∀ (m : String × Value) (rest : Bytes),
                    membersFrom (outlineMember keeps read) bound false [m] rest =
                      Reading.map (m :: ·)
                        (membersFrom (outlineMember keeps read) bound false [] rest) :=
                  fun m rest => membersFrom_map (outlineMember_cons keeps read m) _ _ _ _
                rw [first, Reading.andThen_andThen]
                refine (kept draft name rest keep).andThen_of_follows ?_ ?_
                · intro v draft' rest taken
                  rw [Reading.andThen_ok, shift]
                  exact (ih false draft' rest).wrap fun ms => by simp [taken]
                · intro v rest refused
                  rw [Reading.andThen_ok, shift]
                  exact .andThen (.trivial _) fun ms rest _ => .ok (by simp [refused])
  exact all _ _ _ _

/-- What is kept of a value fits into the brackets that were allowed in reading it. -/
theorem outline_fits (keeps : String → Bool) (room : Nat) (bs : Bytes) :
    (outline keeps room bs).Ensures (Value.Fits room) := by
  unfold outline
  split
  · next rest room _ =>
    refine .andThen (.closed (.members (p := fun ms => ∀ m ∈ ms, Value.Fits room m.2)
      (by simp) (fun ms name bs hms => ?_) rest) _) fun ms _ h => .ok (.object h)
    unfold outlineMember
    split
    · refine .andThen (.trivial _) fun _ rest _ => ?_
      refine .andThen (valueAsWritten_fits room rest) fun v rest hv => .ok fun m hm => ?_
      rcases List.mem_append.1 hm with hm | hm
      · exact hms m hm
      · obtain rfl := List.mem_singleton.1 hm
        exact hv
    · exact .andThen (.trivial _) fun _ rest _ => .andThen (.trivial _) fun _ rest _ => .ok hms
  · exact valueAsWritten_fits _ bs

/-! ## Fields of all members -/

/-- A field that need not be given: `none` if it is given wrongly. -/
def ifGiven (f : Value → Option α) : Option Value → Option (Option α)
  | none => some none
  | some v => (f v).map some

theorem ifGiven_map_canonical {f : Value → Option α} (h : ∀ v : Value, f v.canonical = f v)
    (o : Option Value) : ifGiven f (o.map Value.canonical) = ifGiven f o := by
  cases o with
  | none => rfl
  | some v => rw [Option.map_some, ifGiven, ifGiven, h]

theorem count_names_append (ms : Members) (other name : String) (v : Value) :
    (Members.names (ms ++ [(other, v)])).count name =
      (Members.names ms).count name + if other = name then 1 else 0 := by
  simp [Members.names, List.count_append, List.count_singleton]

theorem Members.last?_eq_none_iff (name : String) (ms : Members) :
    last? name ms = none ↔ (names ms).count name = 0 := by
  induction ms using List.reverseRecOn with
  | nil => simp [names]
  | append_singleton ms m ih =>
      obtain ⟨other, v⟩ := m
      rw [last?_append, count_names_append]
      by_cases same : name = other
      · simp [same]
      · simp [same, Ne.symm same, ih]

/-- A field that is given at most once is what the member of its name says. -/
theorem foldlM_takeField (name : String) (f : Value → Option α) (ms : Members) :
    ms.foldlM (takeField name f) none =
      if ms.names.count name ≤ 1 then ifGiven f (ms.last? name) else none := by
  induction ms using List.reverseRecOn with
  | nil => rfl
  | append_singleton ms m ih =>
      obtain ⟨other, v⟩ := m
      rw [List.foldlM_append, ih, Members.last?_append, count_names_append]
      have absent := Members.last?_eq_none_iff name ms
      by_cases same : other = name
      · subst same
        by_cases first : (Members.names ms).count other = 0
        · simp [first, absent.2 first, ifGiven, takeField]
        · obtain ⟨w, hw⟩ := Option.ne_none_iff_exists'.1 (mt absent.1 first)
          have again : ¬(Members.names ms).count other + 1 ≤ 1 := by omega
          cases made : f w <;> simp [hw, ifGiven, takeField, made, again]
      · have stays : ∀ known, takeField name f known (other, v) = some known :=
          takeField_other same f
        simp only [List.foldlM_cons, List.foldlM_nil, stays, Ne.symm same, same, if_false,
          Nat.add_zero]
        split <;> simp

/-- A field is read if it is given once, and rightly so. -/
theorem foldlM_takeField_eq_some_iff {name : String} {f : Value → Option α} {ms : Members}
    {a : α} :
    ms.foldlM (takeField name f) none = some (some a) ↔
      ms.names.count name ≤ 1 ∧ ∃ v, ms.last? name = some v ∧ f v = some a := by
  rw [foldlM_takeField, Option.ite_none_right_eq_some]
  refine and_congr_right fun _ => ?_
  cases ms.last? name with
  | none => simp [ifGiven]
  | some v => simp [ifGiven]

/-- The members without a meaning are those that a document gives last. -/
theorem find?_foldl_takeExtra (fields : List String) (name : String) (ms : Members) :
    Members.find? name (ms.foldl (takeExtra fields) []) =
      if name ∈ fields then none else (ms.last? name).map Value.canonical := by
  induction ms using List.reverseRecOn with
  | nil => simp [Members.find?]
  | append_singleton ms m ih =>
      obtain ⟨other, v⟩ := m
      rw [List.foldl_append, Members.last?_append]
      by_cases known : other ∈ fields
      · have away : name ∉ fields → name ≠ other := fun h same => h (same ▸ known)
        rw [List.foldl_cons, List.foldl_nil, takeExtra, if_pos known, ih]
        split
        · rfl
        · next unknown => rw [if_neg (away unknown)]
      · have away : name ∈ fields → name ≠ other := fun h same => known (same ▸ h)
        rw [List.foldl_cons, List.foldl_nil, takeExtra, if_neg known, Members.find?_insert, ih]
        by_cases given : name ∈ fields
        · rw [if_neg (away given), if_pos given, if_pos given]
        · simp only [given, if_false]
          split <;> rfl

theorem ascending_foldl_takeExtra (fields : List String) (ms : Members) :
    Members.Ascending (ms.foldl (takeExtra fields) []) := by
  induction ms using List.reverseRecOn with
  | nil => exact .nil
  | append_singleton ms m ih =>
      rw [List.foldl_append, List.foldl_cons, List.foldl_nil, takeExtra]
      split
      · exact ih
      · exact ih.insert _ _

/-- The members without a meaning are those of the canonical object that are no fields. -/
theorem foldl_takeExtra (fields : List String) (ms : Members) :
    ms.foldl (takeExtra fields) [] =
      (Members.ofWritten (canonicalMembers ms)).filter (·.1 ∉ fields) := by
  have ascending := Members.ascending_ofWritten (canonicalMembers ms)
  refine (ascending_foldl_takeExtra _ ms).ext (ascending.filter _) fun name => ?_
  rw [find?_foldl_takeExtra, Members.find?_filter (fun name => name ∉ fields),
    Members.find?_canonical]
  simp

/-! ## Records -/

/-- What comes of the members of a record. -/
def Decoder.Fields.ofMembers (fields : Decoder.Fields δ α) (step : δ → String × Value → Option δ)
    (ms : Members) : Option α :=
  (ms.foldlM step fields.empty).bind fun draft => (fields.finish draft).toOption

/-- A record may be given by an object or, if so, by a list. -/
def Value.asRecord (ofMembers : Members → Option α) (ofItems : List Value → Option α) :
    Value → Option α
  | .object ms => ofMembers ms
  | .array vs => ofItems vs
  | _ => none

theorem record_follows {fields : Decoder.Fields δ α} {step : δ → String × Value → Option δ}
    {keeps : String → Bool} {ofItems : List Value → Option α}
    (kept : ∀ room draft name bs, keeps name = true →
      (fields.member room draft name bs).Follows (memberValue (valueAsWritten room) bs)
        fun v => step draft (name, v))
    (passed : ∀ room draft name bs, keeps name = false →
      fields.member room draft name bs = Decoder.unknownField draft bs)
    (unlisted : fields.inOrder = none → ∀ vs, ofItems vs = none)
    (listed : ∀ read ∈ fields.inOrder, ∀ room bs,
      (closed closeList (read room bs)).Follows (items (valueAsWritten room) bs) ofItems)
    (room : Nat) (bs : Bytes) :
    (Decoder.record fields room bs).Follows (outline keeps room bs)
      (Value.asRecord (fields.ofMembers step) ofItems) := by
  rw [Decoder.record]
  split
  · next h =>
    rw [outline_of_ne keeps (by simp [h]) room]
    exact Decoder.Interprets.missing h room
  · next b rest h =>
    split
    · next brace =>
      subst brace
      cases room with
      | zero =>
          rw [outline_zero, valueAsWritten_eq, valueWith_leftBrace h]
          exact .nothing (.faultAt _ _)
      | succ room =>
          rw [outline_leftBrace keeps h]
          refine Reading.Follows.wrap (.closed ?_ _) fun _ => rfl
          refine (members_follows (kept room) (passed room) fields.empty rest).bind ?_
          intro draft rest
          cases finished : fields.finish draft with
          | error cause => exact .nothing (.ok (by rw [finished]; rfl))
          | ok a => exact .ok (by rw [finished]; rfl)
    · next brace =>
      rw [outline_of_ne keeps (by simp [h, brace]) room]
      split
      · next bracket =>
        subst bracket
        cases order : fields.inOrder with
        | none =>
            refine mismatch_follows h _ room fun v opens => ?_
            cases v with
            | array vs => exact unlisted order vs
            | object ms => exact absurd opens brace
            | _ => rfl
        | some read =>
            rw [valueAsWritten_eq, valueWith_leftBracket h]
            cases room with
            | zero => exact .nothing (.faultAt _ _)
            | succ room => exact (listed read order room rest).wrap fun _ => rfl
      · next bracket =>
        refine mismatch_follows h _ room fun v opens => ?_
        cases v with
        | object ms => exact absurd opens brace
        | array vs => exact absurd opens bracket
        | _ => rfl

/-- Members that follow those of the document are taken in from every spelling. -/
theorem takesIn_of_follows {member : δ → String → Bytes → Reading δ}
    {step : δ → String × Value → Option δ} {names : List String} {room : Nat}
    (kept : ∀ draft name bs, name ∈ names →
      (member draft name bs).Follows (memberValue (valueAsWritten room) bs)
        fun v => step draft (name, v)) :
    TakesIn member (fun draft name v => if name ∈ names then step draft (name, v) else none)
      (Value.Spelling room) := by
  intro draft draft' name v before after text rest taken h front behind ended
  obtain ⟨known, taken⟩ := Option.ite_none_right_eq_some.1 taken
  refine (kept draft name _ known draft' rest).2 ⟨v, ?_, taken⟩
  rw [memberValue, pastColon_of_blank front, Reading.andThen_ok,
    reads_valueAsWritten room h behind ended]

theorem foldlM_of_known (step : δ → String × Value → Option δ) {names : List String}
    {ms : Members} (known : ∀ m ∈ ms, m.1 ∈ names) (start : δ) :
    ms.foldlM (fun draft m => if m.1 ∈ names then step draft m else none) start =
      ms.foldlM step start := by
  induction ms generalizing start with
  | nil => rfl
  | cons m ms ih =>
      rw [List.foldlM_cons, List.foldlM_cons, if_pos (known m (by simp)),
        funext (ih fun m hm => known m (List.mem_cons_of_mem _ hm))]

/-- A record is read from every spelling of an object with the right members. -/
theorem record_of_spelling {fields : Decoder.Fields δ α}
    {step : δ → String × Value → Option δ} {names : List String} {room : Nat}
    (kept : ∀ draft name bs, name ∈ names →
      (fields.member room draft name bs).Follows (memberValue (valueAsWritten room) bs)
        fun v => step draft (name, v))
    {ms : Members} (known : ∀ m ∈ ms, m.1 ∈ names) {a : α}
    (made : fields.ofMembers step ms = some a) {text : Bytes}
    (h : (Value.object ms).Spelling (room + 1) text) (rest : Bytes) :
    Decoder.record fields (room + 1) (text ++ rest) = .ok (a, rest) := by
  obtain ⟨draft, taken, finished⟩ := Option.bind_eq_some_iff.1 made
  rw [← foldlM_of_known step known] at taken
  cases h with
  | object h =>
      rw [Decoder.record, List.cons_append, skipSpace_cons (by decide), List.append_assoc,
        List.singleton_append]
      dsimp only
      rw [if_pos rfl, members_of_entries (takesIn_of_follows kept) h taken, Reading.andThen_ok]
      cases done : fields.finish draft with
      | error cause => simp [done, Except.toOption] at finished
      | ok b =>
          obtain rfl : b = a := by simpa [done, Except.toOption] using finished
          simp only [closed, closeObject_rightBrace]

/-- A record is read from what is written for an object with the right members, if all numbers
in it are whole. -/
theorem decode_print_of_record {fields : Decoder.Fields δ α}
    {step : δ → String × Value → Option δ} {names : List String}
    (kept : ∀ room draft name bs, name ∈ names →
      (fields.member room draft name bs).Follows (memberValue (valueAsWritten room) bs)
        fun v => step draft (name, v))
    {ms : Members} (known : ∀ m ∈ ms, m.1 ∈ names) {a : α}
    (made : fields.ofMembers step ms = some a) (fits : (Value.object ms).Fits maxDepth)
    (whole : (Value.object ms).Whole) :
    decode (Decoder.record fields) (Text.bytes (Value.object ms).print) = .ok a := by
  have spelled : (Value.object ms).Spelling (126 + 1) _ := spelling_print_of_whole fits whole
  have read := record_of_spelling (kept 126) known made spelled []
  rw [List.append_nil] at read
  simp only [decode, maxDepth, read]
  rfl

/-! ## Records written as lists -/

/-- The items of a list from some place on, and its closing bracket. -/
def itemsFromHere (first : Bool) (room : Nat) (bs : Bytes) : Reading (List Value) :=
  closed closeList (itemsFrom (valueAsWritten room) (bs.length + 1) first bs)

/-- What is made of one more item and what follows it. -/
def takeItem (f : Value → Option α) (others : α → List Value → Option β) :
    List Value → Option β
  | [] => none
  | v :: vs => (f v).bind fun a => others a vs

/-- Nothing may follow. -/
def takeEnd (b : β) : List Value → Option β
  | [] => some b
  | _ :: _ => none

theorem takeItem_canonical {f g : Value → Option α} {others others' : α → List Value → Option β}
    {vs : List Value} (item : ∀ v ∈ vs.head?, f v = g v.canonical)
    (behind : ∀ a, others a vs.tail = others' a (vs.tail.map Value.canonical)) :
    takeItem f others vs = takeItem g others' (vs.map Value.canonical) := by
  cases vs with
  | nil => rfl
  | cons v vs =>
      rw [List.map_cons, takeItem, takeItem, item v rfl]
      exact congrArg _ (funext behind)

theorem takeEnd_canonical (b : β) (vs : List Value) :
    takeEnd b vs = takeEnd b (vs.map Value.canonical) := by
  cases vs <;> rfl

theorem takeItem_eq_some_iff {f : Value → Option α} {others : α → List Value → Option β}
    {vs : List Value} {b : β} :
    takeItem f others vs = some b ↔
      ∃ v rest a, vs = v :: rest ∧ f v = some a ∧ others a rest = some b := by
  cases vs with
  | nil => simp [takeItem]
  | cons v rest => simp [takeItem, Option.bind_eq_some_iff]

theorem takeEnd_eq_some_iff {b b' : β} {vs : List Value} :
    takeEnd b vs = some b' ↔ vs = [] ∧ b = b' := by
  cases vs <;> simp [takeEnd]

theorem closed_error (close : Bytes → Closing) (fault : Fault) :
    ∃ fault', closed close (.error fault : Reading α) = .error fault' := by
  simp only [closed]
  split <;> exact ⟨_, rfl⟩

theorem takeEnd_follows (b : β) (room : Nat) (bs : Bytes) :
    (closed closeList (.ok (b, bs))).Follows (itemsFromHere false room bs) (takeEnd b) := by
  rw [itemsFromHere, itemsFrom]
  cases h : skipSpace bs with
  | nil =>
      simp only [closed, closeList, nextItem, h]
      exact .nothing (.error _)
  | cons c rest =>
      by_cases bracket : c = rightBracket
      · subst bracket
        have closing : closeList (rightBracket :: rest) = ⟨rest, none⟩ := by
          rw [closeList, skipSpace_cons (by decide)]
          rfl
        simp only [nextItem, h, if_true, Reading.andThen_ok, Bool.false_eq_true, if_false, closed,
          closing]
        simp only [closeList, h, if_true]
        exact .ok rfl
      · have more : (nextItem false bs).Ensures (· = true) := by
          simp only [nextItem, h, if_neg bracket, Bool.false_eq_true, if_false]
          split
          · split
            · exact .faultAt _ _
            · split
              · exact .faultAt _ _
              · exact .ok rfl
          · exact .faultAt _ _
        have refused : ∃ fault, closed closeList (.ok (b, bs)) = .error fault := by
          simp only [closed, closeList, h, if_neg bracket]
          split_ifs <;> exact ⟨_, rfl⟩
        obtain ⟨fault, refused⟩ := refused
        rw [refused]
        refine .nothing (.closed (more.andThen ?_) _)
        rintro _ rest rfl
        exact .andThen (.trivial _) fun _ _ _ => .andThen (.trivial _) fun _ _ _ => .ok rfl

theorem takeItem_follows {decoder : Decoder α} {f : Value → Option α} (h : decoder.Interprets f)
    (index : Nat) (cause : Cause) {next : α → Bytes → Reading β}
    {others : α → List Value → Option β} {room : Nat}
    (behind : ∀ a rest,
      (closed closeList (next a rest)).Follows (itemsFromHere false room rest) (others a))
    (bs : Bytes) :
    (closed closeList ((Decoder.item index (.error cause) decoder room bs).andThen next)).Follows
      (itemsFromHere (index = 0) room bs) (takeItem f others) := by
  have found := nextItem_leaves (index = 0) bs
  rw [itemsFromHere, itemsFrom, Decoder.item, Reading.andThen_andThen]
  cases more : nextItem (index = 0) bs with
  | error fault =>
      obtain ⟨fault', refused⟩ := closed_error (α := β) closeList fault
      rw [Reading.andThen_error, refused]
      exact .nothing (.closed (.error _) _)
  | ok read =>
      obtain ⟨more', rest⟩ := read
      have left := found more' rest more
      cases more' with
      | false =>
          obtain ⟨fault', refused⟩ := closed_error (α := β) closeList ⟨cause, rest, true⟩
          simp only [Reading.andThen_ok, Bool.false_eq_true, if_false, pendingAt,
            Reading.andThen_error, refused]
          exact .nothing (.closed (p := fun vs => takeItem f others vs = none) (.ok rfl) _)
      | true =>
          simp only [Reading.andThen_ok, if_true]
          rcases (h room rest).cases with
            ⟨v, a, rest', first, made, read⟩ | ⟨⟨fault, refused⟩, unread⟩
          · have left' := valueAsWritten_leaves room rest v rest' first
            rw [read, first, Reading.andThen_ok, Reading.andThen_ok,
              itemsFrom_of_enough (valueAsWritten_leaves room) false (by omega)]
            rw [show (itemsFrom (valueAsWritten room) (rest'.length + 1) false rest').andThen
                (fun vs rest => .ok (v :: vs, rest)) = Reading.map (v :: ·)
                  (itemsFrom (valueAsWritten room) (rest'.length + 1) false rest') from rfl,
              closed_map]
            exact (behind a rest').wrap fun vs => by rw [takeItem, made, Option.bind_some]
          · obtain ⟨fault', refused'⟩ := closed_error (α := β) closeList fault
            rw [refused, Reading.andThen_error, refused']
            refine .nothing (.closed (unread.andThen fun v rest unmade => ?_) _)
            exact .andThen (.trivial _) fun vs rest _ => .ok (by rw [takeItem, unmade]; rfl)

end FormSieve.Json
