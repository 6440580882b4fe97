import FormSieve.Proofs.Json.Form

/-!
# Values that differ in the order of members

Two values differ only in the order of members if the one comes from the other by exchanging
neighbouring members, anywhere and any number of times. As long as no member is repeated, such
values have one canonical form.
-/

namespace FormSieve.Json

/-- The one value comes from the other by exchanging neighbouring members. -/
inductive Value.Reordered : Value → Value → Prop
  | refl (v : Value) : Reordered v v
  | trans {u v w : Value} (first : Reordered u v) (second : Reordered v w) : Reordered u w
  | swap (front : Members) (m m' : String × Value) (back : Members) :
      Reordered (.object (front ++ m :: m' :: back)) (.object (front ++ m' :: m :: back))
  | item (front : List Value) {v v' : Value} (inner : Reordered v v') (back : List Value) :
      Reordered (.array (front ++ v :: back)) (.array (front ++ v' :: back))
  | member (front : Members) (name : String) {v v' : Value} (inner : Reordered v v')
      (back : Members) :
      Reordered (.object (front ++ (name, v) :: back)) (.object (front ++ (name, v') :: back))

namespace Members

theorem find?_of_mem {name : String} {v : Value} {ms : Members} (nodup : ms.names.Nodup)
    (h : (name, v) ∈ ms) : ms.find? name = some v := by
  induction ms with
  | nil => cases h
  | cons first ms ih =>
      obtain ⟨other, w⟩ := first
      obtain ⟨unique, rest⟩ := List.nodup_cons.1 nodup
      rcases List.mem_cons.1 h with same | h
      · cases same
        exact if_pos rfl
      · have different : other ≠ name := by
          rintro rfl
          exact unique (List.mem_map.2 ⟨_, h, rfl⟩)
        rw [find?, if_neg different]
        exact ih rest h

theorem find?_perm {ms ms' : Members} (perm : ms.Perm ms') (nodup : ms.names.Nodup)
    (name : String) : ms.find? name = ms'.find? name := by
  have nodup' : ms'.names.Nodup := (perm.map Prod.fst).nodup_iff.1 nodup
  cases found : ms'.find? name with
  | some v => exact find?_of_mem nodup (perm.mem_iff.2 (mem_of_find? found))
  | none =>
      rw [find?_eq_none_iff] at found ⊢
      exact fun inside => found ((perm.map Prod.fst).mem_iff.1 inside)

/-- The order of members that are not repeated does not matter. -/
theorem ofWritten_perm {ms ms' : Members} (perm : ms.Perm ms') (nodup : ms.names.Nodup) :
    ofWritten ms = ofWritten ms' := by
  have nodup' : ms'.names.Nodup := (perm.map Prod.fst).nodup_iff.1 nodup
  refine (ascending_ofWritten ms).ext (ascending_ofWritten ms') fun name => ?_
  rw [find?_ofWritten, find?_ofWritten, last?_eq_find? nodup, last?_eq_find? nodup',
    find?_perm perm nodup]

theorem names_canonicalMembers (ms : Members) : (canonicalMembers ms).names = ms.names := by
  rw [canonicalMembers_eq_map, names, names, List.map_map]
  rfl

end Members

namespace Value.Reordered

variable {v v' : Value}

theorem symm (h : Reordered v v') : Reordered v' v := by
  induction h with
  | refl => exact .refl _
  | trans _ _ first second => exact second.trans first
  | swap front m m' back => exact .swap front m' m back
  | item front _ back ih => exact .item front ih back
  | member front name _ back ih => exact .member front name ih back

theorem distinct (h : Reordered v v') : v.Distinct → v'.Distinct := by
  induction h with
  | refl => exact id
  | trans _ _ first second => exact fun h => second (first h)
  | swap front m m' back =>
      have perm : (front ++ m :: m' :: back).Perm (front ++ m' :: m :: back) :=
        (List.Perm.swap m' m back).append_left front
      intro h
      obtain ⟨nodup, inside⟩ := distinct_object_iff.1 h
      refine distinct_object_iff.2 ⟨(perm.map Prod.fst).nodup_iff.1 nodup, fun m hm => ?_⟩
      exact inside m (perm.mem_iff.2 hm)
  | item front _ back ih =>
      intro h
      rw [distinct_array_iff] at h ⊢
      simp only [List.mem_append, List.mem_cons] at h ⊢
      rintro v (hv | rfl | hv)
      · exact h v (.inl hv)
      · exact ih (h _ (.inr (.inl rfl)))
      · exact h v (.inr (.inr hv))
  | member front name _ back ih =>
      intro h
      rw [distinct_object_iff] at h ⊢
      refine ⟨by simpa [Members.names] using h.1, ?_⟩
      have inside := h.2
      simp only [List.mem_append, List.mem_cons] at inside ⊢
      rintro m (hm | rfl | hm)
      · exact inside m (.inl hm)
      · exact ih (inside _ (.inr (.inl rfl)))
      · exact inside m (.inr (.inr hm))

/-- Values that differ in the order of members have one canonical form, if none is repeated. -/
theorem canonical_eq (h : Reordered v v') : v.Distinct → v.canonical = v'.canonical := by
  induction h with
  | refl => exact fun _ => rfl
  | trans first _ one two => exact fun h => (one h).trans (two (first.distinct h))
  | swap front m m' back =>
      have perm : (front ++ m :: m' :: back).Perm (front ++ m' :: m :: back) :=
        (List.Perm.swap m' m back).append_left front
      intro h
      rw [canonical_object, canonical_object]
      refine congrArg Value.object (Members.ofWritten_perm ?_ ?_)
      · rw [canonicalMembers_eq_map, canonicalMembers_eq_map]
        exact perm.map _
      · rw [Members.names_canonicalMembers]
        exact (distinct_object_iff.1 h).1
  | item front _ back ih =>
      intro h
      rw [distinct_array_iff] at h
      rw [canonical_array, canonical_array, List.map_append, List.map_append, List.map_cons,
        List.map_cons, ih (h _ (by simp))]
  | member front name _ back ih =>
      intro h
      rw [distinct_object_iff] at h
      rw [canonical_object, canonical_object, canonicalMembers_eq_map, canonicalMembers_eq_map,
        List.map_append, List.map_append, List.map_cons, List.map_cons,
        ih (h.2 (name, _) (by simp))]

theorem fits (h : Reordered v v') {room : Nat} : v.Fits room → v'.Fits room := by
  induction h generalizing room with
  | refl => exact id
  | trans _ _ first second => exact fun h => second (first h)
  | swap front m m' back =>
      have perm : (front ++ m :: m' :: back).Perm (front ++ m' :: m :: back) :=
        (List.Perm.swap m' m back).append_left front
      intro h
      cases h with
      | object inside => exact .object fun m hm => inside m (perm.mem_iff.2 hm)
  | item front _ back ih =>
      intro h
      cases h with
      | array inside =>
          refine .array fun v hv => ?_
          simp only [List.mem_append, List.mem_cons] at inside hv
          rcases hv with hv | rfl | hv
          · exact inside v (.inl hv)
          · exact ih (inside _ (.inr (.inl rfl)))
          · exact inside v (.inr (.inr hv))
  | member front name _ back ih =>
      intro h
      cases h with
      | object inside =>
          refine .object fun m hm => ?_
          simp only [List.mem_append, List.mem_cons] at inside hm
          rcases hm with hm | rfl | hm
          · exact inside m (.inl hm)
          · exact ih (inside _ (.inr (.inl rfl)))
          · exact inside m (.inr (.inr hm))

end Value.Reordered

end FormSieve.Json
