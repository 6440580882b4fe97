import FormSieve.Proofs.Json.Form
import FormSieve.Proofs.Json.Numeral

/-!
# Readers go forward

Every reader leaves fewer bytes than it was given, or at least not more. The bounds on the number
of items of a list are therefore never reached: with any larger bound the same is read.
-/

namespace FormSieve.Json

open Ascii

/-- What is read leaves fewer than `n` bytes. -/
def Reading.Leaves (n : Nat) (r : Reading α) : Prop := ∀ a rest, r = .ok (a, rest) → rest.length < n

namespace Reading.Leaves

variable {n m : Nat}

theorem ok {a : α} {rest : Bytes} (h : rest.length < n) : Reading.Leaves n (.ok (a, rest)) := by
  rintro _ _ ⟨⟩
  exact h

theorem error (fault : Fault) : Reading.Leaves n (.error fault : Reading α) := by
  rintro _ _ ⟨⟩

theorem faultAt (cause : Cause) (rest : Bytes) :
    Reading.Leaves n (Json.faultAt cause rest : Reading α) :=
  error _

theorem mono {r : Reading α} (h : r.Leaves m) (le : m ≤ n) : r.Leaves n :=
  fun a rest read => Nat.lt_of_lt_of_le (h a rest read) le

theorem andThen {r : Reading α} {next : α → Bytes → Reading β} (first : r.Leaves m)
    (then' : ∀ a rest, rest.length < m → (next a rest).Leaves n) : (r.andThen next).Leaves n := by
  cases r with
  | error fault => exact error fault
  | ok read =>
      obtain ⟨a, rest⟩ := read
      exact then' a rest (first a rest rfl)

theorem map {r : Reading α} (h : r.Leaves n) (f : α → Bytes → β) :
    (r.andThen fun a rest => .ok (f a rest, rest)).Leaves n :=
  h.andThen fun _ _ => ok

theorem closed {r : Reading α} (h : r.Leaves n) {close : Bytes → Closing}
    (le : ∀ bs, (close bs).rest.length ≤ bs.length) : (Json.closed close r).Leaves n := by
  cases r with
  | error fault =>
      simp only [Json.closed]
      split <;> exact error _
  | ok read =>
      obtain ⟨a, rest⟩ := read
      simp only [Json.closed]
      split
      · next left closing =>
        have shorter := le rest
        rw [closing] at shorter
        exact ok (Nat.lt_of_le_of_lt shorter (h a rest rfl))
      · exact error _

end Reading.Leaves

/-! ## Parts of values -/

theorem length_skipSpace_le (bs : Bytes) : (skipSpace bs).length ≤ bs.length :=
  (List.dropWhile_suffix _).length_le

theorem word_leaves (letters bs : Bytes) : (word letters bs).Leaves (bs.length + 1) := by
  induction letters generalizing bs with
  | nil => exact .ok (Nat.lt_succ_self _)
  | cons w letters ih =>
      cases bs with
      | nil => exact .faultAt _ _
      | cons b bs =>
          rw [word]
          split
          · exact (ih bs).mono (by simp)
          · exact .faultAt _ _

theorem textBytes_leaves (state : TextState) (bs : Bytes) :
    (textBytes state bs).Leaves bs.length := by
  have shorter : ∀ (b : UInt8) {bs : Bytes} {r : Reading Bytes}, r.Leaves bs.length →
      r.Leaves (b :: bs).length := fun b bs r h => h.mono (by simp)
  fun_induction textBytes state bs with
  | case1 => exact .faultAt _ _
  | case2 rest => exact .ok (by simp)
  | case3 rest _ ih => exact shorter _ ih
  | case4 => exact .faultAt _ _
  | case5 b rest _ _ _ ih => exact (shorter b ih).map _
  | case6 rest ih => exact shorter _ ih
  | case7 b rest _ c _ ih => exact (shorter b ih).map _
  | case8 => exact .faultAt _ _
  | case9 lead left value b rest _ _ ih => exact shorter b ih
  | case10 lead left value b rest _ _ c _ ih => exact (shorter b ih).map _
  | case11 lead left value b rest _ _ u _ ih => exact shorter b ih
  | case12 => exact .faultAt _ _
  | case13 lead rest ih => exact shorter _ ih
  | case14 => exact .faultAt _ _
  | case15 lead rest ih => exact shorter _ ih
  | case16 => exact .faultAt _ _

theorem text_leaves (bs : Bytes) : (text bs).Leaves bs.length := by
  refine (textBytes_leaves .plain bs).andThen fun content rest h => ?_
  split
  · exact .ok h
  · exact .faultAt _ _

theorem length_takeDigits_le (significand : Nat) (bs : Bytes) :
    (takeDigits significand bs).2.2.length ≤ bs.length := by
  fun_induction takeDigits significand bs with
  | case1 => simp
  | case2 => simp
  | case3 significand b rest d _ _ s count left taken ih =>
      rw [taken] at ih
      dsimp only at ih
      simp only [List.length_cons]
      omega
  | case4 => simp

theorem length_countDigits_le (bs : Bytes) : (countDigits bs).2.length ≤ bs.length := by
  fun_induction countDigits bs with
  | case1 => simp
  | case2 b rest _ count left counted ih =>
      rw [counted] at ih
      dsimp only at ih
      simp only [List.length_cons]
      omega
  | case3 => simp

theorem length_exponentDigits_le (value : Nat) (bs : Bytes) :
    (exponentDigits value bs).2.length ≤ bs.length := by
  fun_induction exponentDigits value bs with
  | case1 => simp
  | case2 => simp
  | case3 value b rest d _ _ ih =>
      simp only [List.length_cons]
      omega
  | case4 => simp

theorem floatOfParts_leaves (negative : Bool) (significand : Nat) (exponent : Int) (bs : Bytes) :
    (floatOfParts negative significand exponent bs).Leaves (bs.length + 1) := by
  unfold floatOfParts
  split
  · exact .ok (Nat.lt_succ_self _)
  · exact .faultAt _ _

theorem wholeNumber_leaves (negative : Bool) (significand : Nat) (bs : Bytes) :
    (wholeNumber negative significand bs).Leaves (bs.length + 1) := by
  unfold wholeNumber
  split_ifs
  · exact .ok (Nat.lt_succ_self _)
  · exact floatOfParts_leaves _ _ _ _
  · exact .ok (Nat.lt_succ_self _)
  · exact floatOfParts_leaves _ _ _ _

theorem exponentValue_leaves (negative down : Bool) (significand : Nat) (exponent : Int)
    (bs : Bytes) : (exponentValue negative down significand exponent bs).Leaves bs.length := by
  cases bs with
  | nil => exact .faultAt _ _
  | cons b bs =>
      simp only [exponentValue]
      cases digit? b with
      | none => exact .faultAt _ _
      | some d =>
          have shorter := length_exponentDigits_le d bs
          cases read : exponentDigits d bs with
          | mk value left =>
              rw [read] at shorter
              simp only [read]
              cases value with
              | some e => exact (floatOfParts_leaves _ _ _ _).mono (Nat.succ_le_succ shorter)
              | none =>
                  dsimp only
                  split
                  · exact .faultAt _ _
                  · exact .ok (Nat.lt_succ_of_le (Nat.le_trans (length_countDigits_le _) shorter))

theorem exponentPart_leaves (negative : Bool) (significand : Nat) (exponent : Int) (bs : Bytes) :
    (exponentPart negative significand exponent bs).Leaves bs.length := by
  cases bs with
  | nil => exact .faultAt _ _
  | cons b bs =>
      rw [exponentPart_cons]
      split_ifs
      · exact (exponentValue_leaves _ _ _ _ _).mono (by simp)
      · exact (exponentValue_leaves _ _ _ _ _).mono (by simp)
      · exact exponentValue_leaves _ _ _ _ _

theorem length_of_exponentMark? {bs rest : Bytes} (h : exponentMark? bs = some rest) :
    rest.length < bs.length := by
  cases bs with
  | nil => cases h
  | cons b bs =>
      simp only [exponentMark?] at h
      split at h
      · obtain rfl := Option.some.inj h
        simp
      · cases h

theorem fractionPart_leaves (negative : Bool) (significand : Nat) (exponent : Int) (bs : Bytes) :
    (fractionPart negative significand exponent bs).Leaves (bs.length + 1) := by
  have taken := length_takeDigits_le significand bs
  have dropped := length_countDigits_le (takeDigits significand bs).2.2
  simp only [fractionPart]
  split
  · split
    · exact .faultAt _ _
    · exact .faultAt _ _
  · cases mark : exponentMark? (countDigits (takeDigits significand bs).2.2).2 with
    | none =>
        exact (floatOfParts_leaves _ _ _ _).mono (Nat.succ_le_succ (Nat.le_trans dropped taken))
    | some behind =>
        have behind := Nat.le_of_lt (length_of_exponentMark? mark)
        exact (exponentPart_leaves _ _ _ _).mono
          (Nat.le_succ_of_le (Nat.le_trans behind (Nat.le_trans dropped taken)))

theorem numberTail_leaves (negative : Bool) (significand exponent : Nat) (bs : Bytes) :
    (numberTail negative significand exponent bs).Leaves (bs.length + 1) := by
  have whole : ∀ bs : Bytes, Reading.Leaves (bs.length + 1)
      (if exponent = 0 then wholeNumber negative significand bs
        else floatOfParts negative significand exponent bs) := by
    intro bs
    split
    · exact wholeNumber_leaves _ _ _
    · exact floatOfParts_leaves _ _ _ _
  cases bs with
  | nil => exact whole []
  | cons b bs =>
      simp only [numberTail]
      split
      · exact (fractionPart_leaves _ _ _ _).mono (by simp)
      · cases mark : exponentMark? (b :: bs) with
        | none => exact whole (b :: bs)
        | some behind =>
            have behind := length_of_exponentMark? mark
            exact (exponentPart_leaves _ _ _ _).mono (by omega)

theorem number_leaves (negative : Bool) (bs : Bytes) : (number negative bs).Leaves bs.length := by
  cases bs with
  | nil => exact .faultAt _ _
  | cons b bs =>
      simp only [number]
      rcases digit? b with _ | _ | d
      · exact .faultAt _ _
      · cases bs with
        | nil => exact numberTail_leaves _ _ _ _
        | cons c bs =>
            change Reading.Leaves _ (if (digit? c).isSome then faultOn .badNumber (c :: bs)
              else numberTail negative 0 0 (c :: bs))
            split
            · exact .faultAt _ _
            · exact numberTail_leaves _ _ _ _
      · have taken := length_takeDigits_le (d + 1) bs
        have dropped := length_countDigits_le (takeDigits (d + 1) bs).2.2
        exact (numberTail_leaves _ _ _ _).mono (Nat.succ_le_succ (Nat.le_trans dropped taken))

/-! ## Lists and objects -/

theorem nextItem_leaves (first : Bool) (bs : Bytes) :
    (nextItem first bs).Leaves (bs.length + 1) := by
  have shorter := length_skipSpace_le bs
  simp only [nextItem]
  cases blank : skipSpace bs with
  | nil => exact .faultAt _ _
  | cons b rest =>
      rw [blank] at shorter
      have shorter' := length_skipSpace_le rest
      dsimp only
      split_ifs
      · exact .ok (by omega)
      · exact .ok (by omega)
      · cases blank' : skipSpace rest with
        | nil => exact .faultAt _ _
        | cons c rest =>
            rw [blank'] at shorter'
            simp only [List.length_cons] at shorter shorter'
            dsimp only
            split_ifs
            · exact .faultAt _ _
            · exact .ok (by simp only [List.length_cons]; omega)
      · exact .faultAt _ _

theorem nextName_leaves (first : Bool) (bs : Bytes) :
    (nextName first bs).Leaves (bs.length + 1) := by
  have shorter := length_skipSpace_le bs
  simp only [nextName]
  cases blank : skipSpace bs with
  | nil => exact .faultAt _ _
  | cons b rest =>
      rw [blank] at shorter
      simp only [List.length_cons] at shorter
      have shorter' := length_skipSpace_le rest
      dsimp only
      split_ifs
      · exact .ok (by simp only [List.length_cons]; omega)
      · exact (text_leaves rest).andThen fun s left h => .ok (by omega)
      · exact .faultAt _ _
      · cases blank' : skipSpace rest with
        | nil => exact .faultAt _ _
        | cons c rest =>
            rw [blank'] at shorter'
            simp only [List.length_cons] at shorter'
            dsimp only
            split_ifs
            · exact (text_leaves rest).andThen fun s left h => .ok (by omega)
            · exact .faultAt _ _
            · exact .faultAt _ _
      · exact .faultAt _ _

theorem pastColon_leaves (bs : Bytes) : (pastColon bs).Leaves bs.length := by
  have shorter := length_skipSpace_le bs
  simp only [pastColon]
  cases blank : skipSpace bs with
  | nil => exact .faultAt _ _
  | cons b rest =>
      rw [blank] at shorter
      dsimp only
      split
      · exact .ok shorter
      · exact .faultAt _ _

theorem length_closeList_le (bs : Bytes) : (closeList bs).rest.length ≤ bs.length := by
  have shorter := length_skipSpace_le bs
  simp only [closeList]
  cases blank : skipSpace bs with
  | nil => simp
  | cons b rest =>
      rw [blank] at shorter
      simp only [List.length_cons] at shorter
      have shorter' := length_skipSpace_le rest
      dsimp only
      split_ifs
      · exact Nat.le_of_succ_le shorter
      · exact Nat.le_trans shorter' (Nat.le_of_succ_le shorter)
      · exact Nat.le_trans shorter' (Nat.le_of_succ_le shorter)
      · exact shorter

theorem length_closeObject_le (bs : Bytes) : (closeObject bs).rest.length ≤ bs.length := by
  have shorter := length_skipSpace_le bs
  simp only [closeObject]
  cases blank : skipSpace bs with
  | nil => simp
  | cons b rest =>
      rw [blank] at shorter
      simp only [List.length_cons] at shorter
      dsimp only
      split_ifs
      · exact Nat.le_of_succ_le shorter
      · exact shorter
      · exact shorter

section Items

variable {item : Bytes → Reading α} (takes : ∀ bs, (item bs).Leaves bs.length)
include takes

theorem itemsFrom_leaves (bound : Nat) (first : Bool) (bs : Bytes) :
    (itemsFrom item bound first bs).Leaves (bs.length + 1) := by
  induction bound generalizing first bs with
  | zero => exact .faultAt _ _
  | succ bound ih =>
      refine (nextItem_leaves first bs).andThen fun more rest hrest => ?_
      cases more with
      | false => exact .ok hrest
      | true =>
          refine (takes rest).andThen fun a rest' hrest' => ?_
          exact ((ih false rest').map _).mono (by omega)

theorem items_leaves (bs : Bytes) : (items item bs).Leaves (bs.length + 1) :=
  (itemsFrom_leaves takes _ _ _).closed length_closeList_le

/-- The bound on the number of items is never reached. -/
theorem itemsFrom_of_enough {bound : Nat} (first : Bool) {bs : Bytes} (h : bs.length < bound) :
    itemsFrom item bound first bs = itemsFrom item (bs.length + 1) first bs := by
  have all : ∀ bound bound' first (bs : Bytes), bs.length < bound → bs.length < bound' →
      itemsFrom item bound first bs = itemsFrom item bound' first bs := by
    intro bound
    induction bound with
    | zero => exact fun _ _ _ h => absurd h (Nat.not_lt_zero _)
    | succ bound ih =>
        intro bound' first bs h h'
        match bound', h' with
        | bound' + 1, h' =>
          rw [itemsFrom, itemsFrom]
          have found := nextItem_leaves first bs
          cases next : nextItem first bs with
          | error fault => rfl
          | ok read =>
              obtain ⟨more, rest⟩ := read
              have hrest := found more rest next
              rw [Reading.andThen_ok, Reading.andThen_ok]
              cases more with
              | false => rfl
              | true =>
                  have taken := takes rest
                  cases here : item rest with
                  | error fault => rfl
                  | ok read =>
                      obtain ⟨a, rest'⟩ := read
                      have hrest' := taken a rest' here
                      simp only [if_true, Reading.andThen_ok]
                      rw [ih bound' false rest' (by omega) (by omega)]
  exact all _ _ _ _ h (Nat.lt_succ_self _)

end Items

theorem members_leaves {member : σ → String → Bytes → Reading σ}
    (takes : ∀ state name bs, (member state name bs).Leaves bs.length) (start : σ) (bs : Bytes) :
    (members member start bs).Leaves (bs.length + 1) := by
  have all : ∀ bound first state bs,
      (membersFrom member bound first state bs).Leaves (bs.length + 1) := by
    intro bound
    induction bound with
    | zero => exact fun _ _ _ => .faultAt _ _
    | succ bound ih =>
        intro first state bs
        refine (nextName_leaves first bs).andThen fun name rest hrest => ?_
        cases name with
        | none => exact .ok hrest
        | some name =>
            refine (takes state name rest).andThen fun state rest' hrest' => ?_
            exact (ih false state rest').mono (by omega)
  exact all _ _ _ _

/-! ## Values -/

theorem valueMember_leaves {joining : Joining} {read : Bytes → Reading Value}
    (takes : ∀ bs, (read bs).Leaves bs.length) (ms : Members) (name : String) (bs : Bytes) :
    (valueMember joining read ms name bs).Leaves bs.length := by
  refine (pastColon_leaves bs).andThen fun _ rest hrest => ?_
  exact ((takes rest).map _).mono (Nat.le_of_lt hrest)

theorem valueWith_leaves {joining : Joining} {nested : Option (Bytes → Reading Value)}
    (takes : ∀ read ∈ nested, ∀ bs, (read bs).Leaves bs.length) (bs : Bytes) :
    (valueWith joining nested bs).Leaves bs.length := by
  have shorter := length_skipSpace_le bs
  simp only [valueWith]
  cases blank : skipSpace bs with
  | nil => exact .faultAt _ _
  | cons b rest =>
      rw [blank] at shorter
      have here : ∀ {r : Reading Value}, r.Leaves (rest.length + 1) → r.Leaves bs.length :=
        fun h => h.mono shorter
      refine here ?_
      dsimp only
      split_ifs
      · exact (word_leaves _ _).map _
      · exact (word_leaves _ _).map _
      · exact (word_leaves _ _).map _
      · exact ((number_leaves _ _).map _).mono (by simp)
      · exact (number_leaves _ _).map _
      · exact ((text_leaves _).map _).mono (by simp)
      · cases nested with
        | none => exact .faultAt _ _
        | some read => exact (items_leaves (takes read rfl) rest).map _
      · cases nested with
        | none => exact .faultAt _ _
        | some read =>
            exact ((members_leaves (valueMember_leaves (takes read rfl)) [] rest).closed
              length_closeObject_le).map _
      · exact .faultAt _ _

/-- Every value takes at least one byte. -/
theorem valueAsWritten_leaves (room : Nat) (bs : Bytes) :
    (valueAsWritten room bs).Leaves bs.length := by
  induction room generalizing bs with
  | zero =>
      change (valueWith .written none bs).Leaves bs.length
      exact valueWith_leaves (by simp) bs
  | succ room ih =>
      change (valueWith .written (some (valueAsWritten room)) bs).Leaves bs.length
      refine valueWith_leaves ?_ bs
      rintro _ ⟨⟩
      exact ih

end FormSieve.Json
