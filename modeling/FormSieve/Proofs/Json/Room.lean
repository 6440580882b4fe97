import FormSieve.Proofs.Json.Records

/-!
# More room

What is read within some number of brackets is read just so when more brackets are allowed. In
the other direction, what is spelled with many brackets allowed is also spelled with as few as the
value needs.
-/

namespace FormSieve.Json

open Ascii

/-- Whatever `r` reads, `r'` reads as well. -/
def Reading.Extends (r r' : Reading α) : Prop := ∀ a rest, r = .ok (a, rest) → r' = .ok (a, rest)

namespace Reading.Extends

theorem refl (r : Reading α) : r.Extends r := fun _ _ h => h

theorem error (fault : Fault) (r : Reading α) : Reading.Extends (.error fault) r := by
  rintro _ _ ⟨⟩

theorem andThen {r r' : Reading α} {next next' : α → Bytes → Reading β} (first : r.Extends r')
    (then' : ∀ a rest, (next a rest).Extends (next' a rest)) :
    (r.andThen next).Extends (r'.andThen next') := by
  intro b rest h
  obtain ⟨a, between, read, more⟩ := andThen_eq_ok_iff.1 h
  exact andThen_eq_ok_iff.2 ⟨a, between, first a between read, then' a between b rest more⟩

theorem closed {r r' : Reading α} (h : r.Extends r') (close : Bytes → Closing) :
    (Json.closed close r).Extends (Json.closed close r') := by
  intro a rest read
  obtain ⟨between, inside, closing⟩ := closed_eq_ok_iff.1 read
  exact closed_eq_ok_iff.2 ⟨between, h a between inside, closing⟩

theorem items {item item' : Bytes → Reading α} (h : ∀ bs, (item bs).Extends (item' bs))
    (bs : Bytes) : (Json.items item bs).Extends (Json.items item' bs) := by
  have all : ∀ bound first bs,
      (itemsFrom item bound first bs).Extends (itemsFrom item' bound first bs) := by
    intro bound
    induction bound with
    | zero => exact fun _ _ => .refl _
    | succ bound ih =>
        refine fun first bs => .andThen (.refl _) fun more rest => ?_
        cases more with
        | false => exact .refl _
        | true => exact .andThen (h rest) fun a rest => .andThen (ih false rest) fun _ _ => .refl _
  exact (all _ _ _).closed _

theorem members {member member' : σ → String → Bytes → Reading σ}
    (h : ∀ state name bs, (member state name bs).Extends (member' state name bs)) (start : σ)
    (bs : Bytes) : (Json.members member start bs).Extends (Json.members member' start bs) := by
  have all : ∀ bound first state bs,
      (membersFrom member bound first state bs).Extends
        (membersFrom member' bound first state bs) := by
    intro bound
    induction bound with
    | zero => exact fun _ _ _ => .refl _
    | succ bound ih =>
        refine fun first state bs => .andThen (.refl _) fun name rest => ?_
        cases name with
        | none => exact .refl _
        | some name => exact .andThen (h state name rest) fun state rest => ih false state rest
  exact all _ _ _ _

end Reading.Extends

theorem valueMember_extends {joining : Joining} {read read' : Bytes → Reading Value}
    (h : ∀ bs, (read bs).Extends (read' bs)) (ms : Members) (name : String) (bs : Bytes) :
    (valueMember joining read ms name bs).Extends (valueMember joining read' ms name bs) :=
  .andThen (.refl _) fun _ rest => .andThen (h rest) fun _ _ => .refl _

theorem valueWith_extends {nested nested' : Option (Bytes → Reading Value)}
    (h : ∀ read ∈ nested, ∃ read' ∈ nested', ∀ bs, (read bs).Extends (read' bs)) (bs : Bytes) :
    (valueWith .written nested bs).Extends (valueWith .written nested' bs) := by
  rw [valueWith, valueWith]
  cases skipSpace bs with
  | nil => exact .refl _
  | cons b rest =>
      dsimp only
      split_ifs
      · exact .refl _
      · exact .refl _
      · exact .refl _
      · exact .refl _
      · exact .refl _
      · exact .refl _
      · cases nested with
        | none => exact .error _ _
        | some read =>
            obtain ⟨read', rfl, inside⟩ := h read rfl
            exact .andThen (.items inside rest) fun _ _ => .refl _
      · cases nested with
        | none => exact .error _ _
        | some read =>
            obtain ⟨read', rfl, inside⟩ := h read rfl
            exact .andThen (.closed (.members (valueMember_extends inside) [] rest) _)
              fun _ _ => .refl _
      · exact .refl _

/-- A value is read the same with more brackets allowed. -/
theorem valueAsWritten_extends {room room' : Nat} (h : room ≤ room') (bs : Bytes) :
    (valueAsWritten room bs).Extends (valueAsWritten room' bs) := by
  rw [valueAsWritten_eq, valueAsWritten_eq]
  induction room generalizing room' bs with
  | zero => exact valueWith_extends (by rintro read ⟨⟩) bs
  | succ room ih =>
      obtain ⟨room', rfl⟩ := Nat.exists_eq_add_of_le' (Nat.le_trans (Nat.succ_pos room) h)
      refine valueWith_extends ?_ bs
      rintro read ⟨⟩
      refine ⟨valueAsWritten room', rfl, fun bs => ?_⟩
      rw [valueAsWritten_eq, valueAsWritten_eq]
      exact ih (Nat.le_of_succ_le_succ h) bs

theorem outline_extends (keeps : String → Bool) {room room' : Nat} (h : room ≤ room')
    (bs : Bytes) : (outline keeps room bs).Extends (outline keeps room' bs) := by
  by_cases brace : ∃ rest, skipSpace bs = leftBrace :: rest
  · obtain ⟨rest, brace⟩ := brace
    cases room with
    | zero =>
        rw [outline_zero, valueAsWritten_eq, valueWith_leftBrace brace]
        exact .error _ _
    | succ room =>
        obtain ⟨room', rfl⟩ := Nat.exists_eq_add_of_le' (Nat.le_trans (Nat.succ_pos room) h)
        have inside := valueAsWritten_extends (Nat.le_of_succ_le_succ h)
        rw [outline_leftBrace keeps brace, outline_leftBrace keeps brace]
        refine .andThen (.closed (.members (fun ms name bs => ?_) [] rest) _) fun _ _ => .refl _
        unfold outlineMember
        split
        · exact valueMember_extends inside ms name bs
        · exact .refl _
  · have other : ∀ rest, skipSpace bs ≠ leftBrace :: rest := not_exists.1 brace
    rw [outline_of_ne keeps other, outline_of_ne keeps other]
    exact valueAsWritten_extends h bs

/-! ## Spellings with as few brackets as needed -/

theorem Separated.imp_mem {entry entry' : α → Bytes → Prop} {as : List α} {bs : Bytes}
    (h : Separated entry as bs) (imp : ∀ a ∈ as, ∀ text, entry a text → entry' a text) :
    Separated entry' as bs := by
  induction h with
  | last front h behind => exact .last front (imp _ (by simp) _ h) behind
  | more front h behind _ ih =>
      exact .more front (imp _ (by simp) _ h) behind
        (ih fun a ha => imp a (List.mem_cons_of_mem _ ha))

theorem Entries.imp_mem {entry entry' : α → Bytes → Prop} {as : List α} {bs : Bytes}
    (h : Entries entry as bs) (imp : ∀ a ∈ as, ∀ text, entry a text → entry' a text) :
    Entries entry' as bs := by
  cases h with
  | none blank => exact .none blank
  | some h => exact .some (h.imp_mem imp)

theorem MemberSpelling.imp {item item' : β → Bytes → Prop} {m : String × β} {bs : Bytes}
    (h : MemberSpelling item m bs) (imp : ∀ text, item m.2 text → item' m.2 text) :
    MemberSpelling item' m bs := by
  obtain ⟨hname, front, behind, h⟩ := h
  exact .intro hname front behind (imp _ h)

/-- How brackets are spelled does not matter where there are none. -/
theorem SpellingWith.of_plain {nested nested' : Option (Value → Bytes → Prop)} {v : Value}
    {bs : Bytes} (h : SpellingWith nested v bs) (list : ∀ vs, v ≠ .array vs)
    (object : ∀ ms, v ≠ .object ms) : SpellingWith nested' v bs := by
  cases h with
  | null => exact .null _
  | true => exact .true _
  | false => exact .false _
  | number _ h => exact .number _ h
  | text _ h => exact .text _ h
  | array => exact absurd rfl (list _)
  | object => exact absurd rfl (object _)

theorem Value.spelling_eq (room : Nat) :
    ∃ nested, Value.Spelling room = SpellingWith nested := by
  cases room <;> exact ⟨_, rfl⟩

theorem Value.Spelling.of_plain {room room' : Nat} {v : Value} {bs : Bytes}
    (h : v.Spelling room bs) (list : ∀ vs, v ≠ .array vs) (object : ∀ ms, v ≠ .object ms) :
    v.Spelling room' bs := by
  obtain ⟨nested, same⟩ := Value.spelling_eq room
  obtain ⟨nested', same'⟩ := Value.spelling_eq room'
  rw [same] at h
  rw [same']
  exact h.of_plain list object

/-- A value is spelled with as few brackets allowed as it needs. -/
theorem Value.Spelling.of_fits {room room' : Nat} {v : Value} {bs : Bytes}
    (h : v.Spelling room bs) (fits : v.Fits room') : v.Spelling room' bs := by
  induction fits generalizing room bs with
  | @array room' vs _ ih =>
      cases room with
      | zero => cases h
      | succ room =>
          cases h with
          | array h => exact .array (h.imp_mem fun v hv text h => ih v hv h)
  | @object room' ms _ ih =>
      cases room with
      | zero => cases h
      | succ room =>
          cases h with
          | object h => exact .object (h.imp_mem fun m hm text h => h.imp fun text h => ih m hm h)
  | _ => exact h.of_plain (by rintro _ ⟨⟩) (by rintro _ ⟨⟩)

end FormSieve.Json
