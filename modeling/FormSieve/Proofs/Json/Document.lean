import FormSieve.Proofs.Json.Passing
import FormSieve.Proofs.Json.Reordered
import FormSieve.Proofs.Json.Room

/-!
# Documents that spell a value

A document spells a value, with blanks around it and any number of brackets open. What a reader
that passes over some members makes of it depends on that value alone, and it depends on what is
kept of the value how many brackets the reader has to allow.
-/

namespace FormSieve.Json

open Ascii

/-- The document spells the value. -/
def Value.SpelledBy (v : Value) (document : Bytes) : Prop :=
  ∃ room before text after, Blank before ∧ v.Spelling room text ∧ Blank after ∧
    document = before ++ (text ++ after)

/-- The value, without those members of an outermost object that are not kept. -/
def Value.keeping (keeps : String → Bool) : Value → Value
  | .object ms => .object (ms.filter fun m => keeps m.1)
  | v => v

/-- What is spelled within so many brackets fits into them. -/
theorem Value.Spelling.fits {room : Nat} {v : Value} {bs : Bytes} (h : v.Spelling room bs) :
    v.Fits room := by
  have read := reads_valueAsWritten room h Blank.nil Ended.nil
  exact valueAsWritten_fits room _ v [] read

theorem Value.Fits.keeping {room : Nat} {v : Value} (h : v.Fits room) (keeps : String → Bool) :
    (v.keeping keeps).Fits room := by
  cases h with
  | object h => exact .object fun m hm => h m (List.mem_filter.1 hm).1
  | array h => exact .array h
  | _ => constructor

theorem Value.Distinct.keeping {v : Value} (h : v.Distinct) (keeps : String → Bool) :
    (v.keeping keeps).Distinct := by
  cases v with
  | object ms =>
      obtain ⟨nodup, inside⟩ := distinct_object_iff.1 h
      refine distinct_object_iff.2 ⟨?_, fun m hm => inside m (List.mem_filter.1 hm).1⟩
      exact nodup.sublist (List.filter_sublist.map Prod.fst)
  | _ => exact h

/-- Values that differ in the order of members still do so when members are left out. -/
theorem Value.Reordered.keeping {v v' : Value} (h : Reordered v v') (keeps : String → Bool) :
    Reordered (v.keeping keeps) (v'.keeping keeps) := by
  induction h with
  | refl => exact .refl _
  | trans _ _ first second => exact first.trans second
  | swap front m m' back =>
      simp only [Value.keeping, List.filter_append, List.filter_cons]
      cases keeps m.1 <;> cases keeps m'.1
      · exact .refl _
      · exact .refl _
      · exact .refl _
      · exact .swap _ _ _ _
  | item front inner back _ => exact .item front inner back
  | member front name inner back _ =>
      simp only [Value.keeping, List.filter_append, List.filter_cons]
      cases keeps name
      · exact .refl _
      · exact .member _ name inner _

section Keeping

variable (keeps : String → Bool) (room : Nat)

open Classical in
/-- Takes in one more member, which must fit if it is kept. -/
noncomputable def keepMember (ms : Members) (name : String) (v : Value) : Option Members :=
  if keeps name then if v.Fits room then some (ms ++ [(name, v)]) else none else some ms

/-- The members that are kept are taken in and the others passed over. -/
theorem takesIn_outlineMember (wide : Nat) :
    TakesIn (outlineMember keeps (valueAsWritten room)) (keepMember keeps room)
      (Value.Spelling wide) := by
  intro ms ms' name v before after text rest taken h front behind ended
  unfold keepMember at taken
  unfold outlineMember
  split at taken
  · next keep =>
    obtain ⟨fits, same⟩ := Option.ite_none_right_eq_some.1 taken
    obtain rfl := Option.some.inj same
    rw [if_pos keep]
    exact takesIn_valueMember (reads_valueAsWritten room) rfl (h.of_fits fits) front behind ended
  · next keep =>
    obtain rfl := Option.some.inj taken
    have read := reads_valueAsWritten wide h behind ended
    rw [if_neg keep, Decoder.unknownField, pastColon_of_blank front, Reading.andThen_ok,
      valueAsWritten_passed wide _ v rest read, Reading.andThen_ok]

theorem foldlM_keepMember {ms : Members} (fits : ∀ m ∈ ms, keeps m.1 = true → m.2.Fits room)
    (start : Members) :
    ms.foldlM (fun ms m => keepMember keeps room ms m.1 m.2) start =
      some (start ++ ms.filter fun m => keeps m.1) := by
  induction ms generalizing start with
  | nil => simp
  | cons m ms ih =>
      have here := fits m (List.mem_cons_self ..)
      have others := ih fun m hm => fits m (List.mem_cons_of_mem _ hm)
      rw [List.foldlM_cons, keepMember]
      cases keep : keeps m.1 with
      | false => simp [keep, others]
      | true => simp [keep, here keep, others]

end Keeping

/-- Nothing is left out of a value that does not open with a brace. -/
theorem Value.keeping_of_opens {keeps : String → Bool} {room : Nat} {bs rest : Bytes} {v : Value}
    (h : valueAsWritten room bs = .ok (v, rest))
    (other : ∀ left, skipSpace bs ≠ leftBrace :: left) :
    v.keeping keeps = v := by
  cases blank : skipSpace bs with
  | nil =>
      rw [valueAsWritten_eq, valueWith_nil blank] at h
      cases h
  | cons b left =>
      have opens := valueAsWritten_opens blank room v rest h
      cases v with
      | object ms => exact absurd (opens ▸ blank) (other left)
      | _ => rfl

/-- What is kept of a value is read from every spelling of it, if it fits. -/
theorem outline_of_spelling (keeps : String → Bool) {room wide : Nat} {v : Value}
    {before text after : Bytes} (front : Blank before) (h : v.Spelling wide text)
    (behind : Blank after) (fits : (v.keeping keeps).Fits room) :
    outline keeps room (before ++ (text ++ after)) = .ok (v.keeping keeps, after) := by
  by_cases object : ∃ ms, v = .object ms
  · obtain ⟨ms, rfl⟩ := object
    cases fits with
    | @object room _ fits =>
        have inside : ∀ m ∈ ms, keeps m.1 = true → m.2.Fits room := fun m hm keep =>
          fits m (List.mem_filter.2 ⟨hm, keep⟩)
        cases wide with
        | zero => cases h
        | succ wide =>
            cases h with
            | @object _ _ bs h =>
                have opens : skipSpace (before ++ (leftBrace :: (bs ++ [rightBrace]) ++ after)) =
                    leftBrace :: (bs ++ rightBrace :: after) := by
                  rw [skipSpace_append front, List.cons_append, skipSpace_cons (by decide),
                    List.append_assoc, List.singleton_append]
                have taken := members_of_entries (takesIn_outlineMember keeps room wide) h
                  (foldlM_keepMember keeps room inside []) after
                rw [outline_leftBrace keeps opens, taken, closed, closeObject_rightBrace]
                rfl
  · have same : v.keeping keeps = v := by
      cases v with
      | object ms => exact absurd ⟨ms, rfl⟩ object
      | _ => rfl
    rw [same] at fits ⊢
    have ended : Ended after := by simpa using Ended.append behind .nil
    have read := reads_valueAsWritten room (h.of_fits fits) front ended
    rw [outline_of_ne, read]
    intro rest brace
    have opens := valueAsWritten_opens brace room v after read
    cases v with
    | object ms => exact object ⟨ms, rfl⟩
    | boolean b => cases b <;> exact absurd opens (show ¬leftBrace = _ by decide)
    | number n => exact absurd opens (show ¬(_ ∨ _) by decide)
    | _ => exact absurd opens (show ¬leftBrace = _ by decide)

/-- Whatever is kept in reading a document that spells a value is what is kept of that value. -/
theorem Value.SpelledBy.eq_of_outline {v w : Value} {document rest : Bytes}
    (h : v.SpelledBy document) {keeps : String → Bool} {room : Nat}
    (read : outline keeps room document = .ok (w, rest)) :
    w = v.keeping keeps ∧ skipSpace rest = [] := by
  obtain ⟨wide, before, text, after, front, h, behind, rfl⟩ := h
  have fits : (v.keeping keeps).Fits wide := h.fits.keeping keeps
  have read' := outline_of_spelling keeps front h behind fits
  have wider := outline_extends keeps (Nat.le_max_left room wide) _ w rest read
  have wider' := outline_extends keeps (Nat.le_max_right room wide) _ _ after read'
  rw [wider'] at wider
  cases wider
  exact ⟨rfl, by simpa [skipSpace] using skipSpace_append behind []⟩

/-- What is kept of a spelled value is read within the brackets that it needs. -/
theorem Value.SpelledBy.exists_outline {v : Value} {document : Bytes} (h : v.SpelledBy document)
    {keeps : String → Bool} {room : Nat} (fits : (v.keeping keeps).Fits room) :
    ∃ rest, outline keeps room document = .ok (v.keeping keeps, rest) ∧ skipSpace rest = [] := by
  obtain ⟨wide, before, text, after, front, h, behind, rfl⟩ := h
  exact ⟨after, outline_of_spelling keeps front h behind fits,
    by simpa [skipSpace] using skipSpace_append behind []⟩

/-- A member that is read as a value is taken in if it is kept and passed over otherwise. -/
theorem outlineMember_of_valueMember (keeps : String → Bool) {room : Nat} {ms ms' : Members}
    {name : String} {bs rest : Bytes}
    (h : valueMember .written (valueAsWritten room) ms name bs = .ok (ms', rest)) :
    outlineMember keeps (valueAsWritten room) (ms.filter fun m => keeps m.1) name bs =
      .ok (ms'.filter fun m => keeps m.1, rest) := by
  obtain ⟨_, between, colon, h⟩ := Reading.andThen_eq_ok_iff.1 h
  obtain ⟨v, _, read, same⟩ := Reading.andThen_eq_ok_iff.1 h
  cases same
  have passed := valueAsWritten_passed room between v rest read
  rw [outlineMember]
  cases keep : keeps name with
  | true =>
      rw [if_pos rfl, valueMember, colon, Reading.andThen_ok, read]
      simp [Joining.written, keep]
  | false =>
      rw [if_neg Bool.false_ne_true, Decoder.unknownField, colon, Reading.andThen_ok, passed]
      simp [Joining.written, keep]

/-- What is written for a value spells it, if all numbers in it are whole. -/
theorem Value.spelledBy_print {room : Nat} {v : Value} (fits : v.Fits room) (whole : v.Whole) :
    v.SpelledBy (Text.bytes v.print) :=
  ⟨room, [], _, [], .nil, spelling_print_of_whole fits whole, .nil, by simp⟩

/-- What is kept in reading a document that is a value is what is kept of that value. -/
theorem outline_of_valueAsWritten (keeps : String → Bool) {room : Nat} {bs rest : Bytes}
    {v : Value} (h : valueAsWritten room bs = .ok (v, rest)) :
    outline keeps room bs = .ok (v.keeping keeps, rest) := by
  by_cases brace : ∃ left, skipSpace bs = leftBrace :: left
  · obtain ⟨left, brace⟩ := brace
    rw [valueAsWritten_eq, valueWith_leftBrace brace] at h
    cases room with
    | zero => cases h
    | succ room =>
        have all : ∀ bound first ms bs ms' rest,
            membersFrom (valueMember .written (valueAsWritten room)) bound first ms bs =
                .ok (ms', rest) →
              membersFrom (outlineMember keeps (valueAsWritten room)) bound first
                  (ms.filter fun m => keeps m.1) bs =
                .ok (ms'.filter fun m => keeps m.1, rest) := by
          intro bound
          induction bound with
          | zero => rintro _ _ _ _ _ ⟨⟩
          | succ bound ih =>
              intro first ms bs ms' rest h
              obtain ⟨name, between, next, h⟩ := Reading.andThen_eq_ok_iff.1 h
              rw [membersFrom, next, Reading.andThen_ok]
              cases name with
              | none =>
                  cases h
                  rfl
              | some name =>
                  obtain ⟨ms, between, one, h⟩ := Reading.andThen_eq_ok_iff.1 h
                  dsimp only
                  rw [outlineMember_of_valueMember keeps one, Reading.andThen_ok]
                  exact ih false ms between ms' rest h
        obtain ⟨ms, _, read, same⟩ := Reading.andThen_eq_ok_iff.1 h
        cases same
        obtain ⟨between, read, closing⟩ := closed_eq_ok_iff.1 read
        have kept : members (outlineMember keeps (valueAsWritten room)) [] left =
            .ok (ms.filter fun m => keeps m.1, between) := all _ _ [] _ _ _ read
        rw [outline_leftBrace keeps brace, kept, closed, closing]
        rfl
  · have other : ∀ left, skipSpace bs ≠ leftBrace :: left := not_exists.1 brace
    rw [outline_of_ne keeps other, h, Value.keeping_of_opens h other]

/-! ## Lists -/

/-- Where decoders follow others, the lists of what they yield follow theirs. -/
theorem Decoder.list_follows {decoder : Decoder β} {base : Decoder α} {f : α → Option β}
    (h : ∀ room bs, (decoder room bs).Follows (base room bs) f) (room : Nat) (bs : Bytes) :
    (Decoder.list decoder room bs).Follows (Decoder.list base room bs) (List.mapM f) := by
  rw [Decoder.list, Decoder.list]
  split
  · exact .nothing (.faultAt _ _)
  · next b rest _ =>
    split
    · cases room with
      | zero => exact .nothing (.faultAt _ _)
      | succ room => exact items_follows (h room) rest
    · obtain ⟨fault, refused⟩ := exists_mismatch (α := List β) .sequence (b :: rest)
      obtain ⟨fault', refused'⟩ := exists_mismatch (α := List α) .sequence (b :: rest)
      rw [refused, refused']
      exact .nothing (.error _)

/-- What is kept in reading the items of a list that is a value is what is kept of each item. -/
theorem decode_list_outline (keeps : String → Bool) {document : Bytes} {vs : List Value}
    (h : decode valueAsWritten document = .ok (.array vs)) :
    decode (Decoder.list (outline keeps)) document = .ok (vs.map (Value.keeping keeps)) := by
  obtain ⟨rest, read, behind⟩ := decode_eq_ok_iff.1 h
  refine decode_eq_ok_iff.2 ⟨rest, ?_, behind⟩
  cases blank : skipSpace document with
  | nil =>
      rw [valueAsWritten_eq, valueWith_nil blank] at read
      exact nomatch read
  | cons b left =>
      obtain rfl : b = leftBracket := valueAsWritten_opens blank maxDepth _ rest read
      rw [valueAsWritten_eq, valueWith_leftBracket blank] at read
      obtain ⟨_, _, inside, same⟩ := Reading.andThen_eq_ok_iff.1 read
      cases same
      have kept : (items (fun bs => Reading.map (Value.keeping keeps) (valueAsWritten 126 bs))
          left).Extends (items (outline keeps 126) left) := by
        refine .items (fun bs => ?_) left
        intro v rest mapped
        obtain ⟨w, _, one, same⟩ := Reading.andThen_eq_ok_iff.1 mapped
        cases same
        exact outline_of_valueAsWritten keeps one
      rw [Decoder.list, blank]
      refine kept _ rest ?_
      rw [items_map fun bs => rfl]
      exact congrArg _ inside

/-! ## Documents that differ in the order of members -/

section Reordered

variable {decoder : Decoder α} {keeps : String → Bool} {f g : Value → Option α}

/-- Of documents of which the kept members differ in their order, the same is made. -/
theorem decode_eq_ok_iff_of_reordered
    (follows : ∀ room bs, (decoder room bs).Follows (outline keeps room bs) f)
    (canonical : ∀ v : Value, v.Distinct → f v = g v.canonical) {v v' : Value}
    {document document' : Bytes} (read : decode (outline keeps) document = .ok v)
    (read' : decode (outline keeps) document' = .ok v') (reordered : v.Reordered v')
    (distinct : v.Distinct) {a : α} :
    decode decoder document = .ok a ↔ decode decoder document' = .ok a := by
  have same : f v = f v' := by
    rw [canonical v distinct, canonical v' (reordered.distinct distinct),
      reordered.canonical_eq distinct]
  simp only [decode_eq_ok_iff_of_follows follows, read, read', Except.ok.injEq,
    exists_eq_left', same]

/-- Of documents that spell values which differ in the order of members, the same is made. -/
theorem decode_eq_ok_iff_of_spelledBy
    (follows : ∀ room bs, (decoder room bs).Follows (outline keeps room bs) f)
    (canonical : ∀ v : Value, v.Distinct → f v = g v.canonical) {v v' : Value}
    {document document' : Bytes} (h : v.SpelledBy document) (h' : v'.SpelledBy document')
    (reordered : v.Reordered v') (distinct : v.Distinct) {a : α} :
    decode decoder document = .ok a ↔ decode decoder document' = .ok a := by
  -- Both documents are in the same position, so one direction is enough.
  have one : ∀ {v v' : Value} {document document' : Bytes}, v.SpelledBy document →
      v'.SpelledBy document' → v.Reordered v' → v.Distinct →
        decode decoder document = .ok a → decode decoder document' = .ok a := by
    intro v v' document document' h h' reordered distinct made
    obtain ⟨w, read, -⟩ := (decode_eq_ok_iff_of_follows follows).1 made
    obtain ⟨rest, inside, -⟩ := decode_eq_ok_iff.1 read
    obtain ⟨rfl, -⟩ := h.eq_of_outline inside
    have kept := reordered.keeping keeps
    have fits := kept.fits (outline_fits keeps _ _ _ _ inside)
    have read' := decode_eq_ok_iff.2 (h'.exists_outline fits)
    exact (decode_eq_ok_iff_of_reordered follows canonical read read' kept
      (distinct.keeping keeps)).1 made
  exact ⟨one h h' reordered distinct, one h' h reordered.symm (reordered.distinct distinct)⟩

end Reordered

end FormSieve.Json
