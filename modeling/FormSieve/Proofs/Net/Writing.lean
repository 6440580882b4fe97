import FormSieve.Proofs.Net.Continuation
import FormSieve.Proofs.Text.Form

/-!
# URLs as they are written

The host of a URL of the web is written with no character that would end it, and its path with
none but bytes that a path keeps.
-/

namespace FormSieve

open Url

/-! ## Hosts -/

theorem isAlphanum_of_mem_toDigits {n : Nat} {c : Char} (h : c ∈ Nat.toDigits 16 n) :
    c.isAlphanum = true := by
  have digit : ∀ d < 16, d.digitChar.isAlphanum = true := by decide
  induction n using Nat.strongRecOn with
  | ind n ih =>
      rcases Nat.lt_or_ge n 16 with small | large
      · rw [Nat.toDigits_of_lt_base small] at h
        obtain rfl := List.mem_singleton.1 h
        exact digit n small
      · rw [Nat.toDigits_of_base_le (by decide) large] at h
        rcases List.mem_append.1 h with front | last
        · exact ih (n / 16) (Nat.div_lt_self (by omega) (by decide)) front
        · obtain rfl := List.mem_singleton.1 last
          exact digit _ (Nat.mod_lt _ (by decide))

theorem inAuthority_of_ne {c : Char} (slash : c ≠ '/') (backslash : c ≠ '\\') (question : c ≠ '?')
    (number : c ≠ '#') : inAuthority true c = true := by
  simp [inAuthority, isSlash, endsPath, slash, backslash, question, number]

theorem inAuthority_of_isAlphanum {c : Char} (h : c.isAlphanum = true) :
    inAuthority true c = true := by
  have other (d : Char) (mark : d.isAlphanum = false) : c ≠ d := by
    rintro rfl
    exact absurd h (by simp [mark])
  exact inAuthority_of_ne (other _ (by decide)) (other _ (by decide)) (other _ (by decide))
    (other _ (by decide))

/-- What stands in the pieces and between them stands everywhere in what is joined of them. -/
theorem forall_mem_intercalate {p : Char → Prop} {separator : String} {pieces : List String}
    (between : ∀ c ∈ separator.toList, p c) (inside : ∀ s ∈ pieces, ∀ c ∈ s.toList, p c) :
    ∀ c ∈ (separator.intercalate pieces).toList, p c := by
  intro c member
  rw [String.toList_intercalate] at member
  rcases mem_of_mem_intercalate member with mark | ⟨piece, listed, member⟩
  · exact between c mark
  · obtain ⟨s, given, rfl⟩ := List.mem_map.1 listed
    exact inside s given c member

theorem Ipv4.inAuthority_of_mem_print (a : Ipv4) :
    ∀ c ∈ a.print.toList, inAuthority true c = true := by
  refine forall_mem_intercalate (List.all_eq_true.1 rfl) fun s given c member => ?_
  obtain ⟨n, -, rfl⟩ := List.mem_map.1 given
  rw [Nat.repr_eq_ofList_toDigits, String.toList_ofList] at member
  have digit : c.isDigit = true := Nat.isDigit_of_mem_toDigits (by decide) (by decide) member
  exact inAuthority_of_isAlphanum (by simp [Char.isAlphanum, digit])

theorem Ipv6.inAuthority_of_mem_printGroups (groups : List Nat) :
    ∀ c ∈ (printGroups groups).toList, inAuthority true c = true := by
  refine forall_mem_intercalate (List.all_eq_true.1 rfl) fun s given c member => ?_
  obtain ⟨n, -, rfl⟩ := List.mem_map.1 given
  rw [printGroup, String.toList_ofList] at member
  exact inAuthority_of_isAlphanum (isAlphanum_of_mem_toDigits member)

theorem Ipv6.inAuthority_of_mem_print (a : Ipv6) :
    ∀ c ∈ a.print.toList, inAuthority true c = true := by
  intro c member
  simp only [print] at member
  split at member
  · exact inAuthority_of_mem_printGroups _ c member
  · rw [String.toList_append, String.toList_append] at member
    rcases List.mem_append.1 member with front | back
    · rcases List.mem_append.1 front with before | gap
      · exact inAuthority_of_mem_printGroups _ c before
      · have colons : "::".toList.all (inAuthority true) = true := rfl
        exact List.all_eq_true.1 colons c gap
    · exact inAuthority_of_mem_printGroups _ c back

theorem Host.inAuthority_of_allows {c : Char} (h : Host.allows c = true) :
    inAuthority true c = true := by
  have other (d : Char) (mark : Host.allows d = false) : c ≠ d := by
    rintro rfl
    exact absurd h (by simp [mark])
  exact inAuthority_of_ne (other _ (by decide)) (other _ (by decide)) (other _ (by decide))
    (other _ (by decide))

/-- Nothing that is written for a host ends it. -/
theorem Host.inAuthority_of_mem_print {cs : List Char} {host : Host}
    (read : Host.parse? cs = some host) : ∀ c ∈ host.print, inAuthority true c = true := by
  intro c member
  rw [Host.parse?.eq_def] at read
  split at read
  · split at read
    · obtain ⟨a, -, rfl⟩ := Option.map_eq_some_iff.1 read
      rcases List.mem_cons.1 member with rfl | member
      · decide
      · rcases List.mem_append.1 member with inside | close
        · exact a.inAuthority_of_mem_print c inside
        · obtain rfl := List.mem_singleton.1 close
          decide
    · exact nomatch read
  · split at read
    · exact nomatch read
    · next decoded _ =>
      simp only at read
      split at read
      · exact nomatch read
      · split at read
        · obtain ⟨a, -, rfl⟩ := Option.map_eq_some_iff.1 read
          exact a.inAuthority_of_mem_print c member
        · obtain rfl := Option.some.inj read
          next fits _ =>
          simp only [Bool.or_eq_true, Bool.not_eq_true', not_or, Bool.not_eq_false] at fits
          exact Host.inAuthority_of_allows (List.all_eq_true.1 fits.2 c member)

/-! ## Schemes and authorities -/

namespace Url

theorem scheme_of_located? {scheme cs : List Char} {web : Bool} {u : Url}
    (h : located? scheme web cs = some u) : u.scheme = scheme := by
  obtain ⟨found, -, rfl⟩ := Option.map_eq_some_iff.1 h
  rfl

theorem scheme_of_localFile? {scheme cs : List Char} {u : Url}
    (h : localFile? scheme cs = some u) : u.scheme = scheme := by
  simp only [localFile?] at h
  split at h
  · split at h
    · split at h
      · obtain rfl := Option.some.inj h
        rfl
      · obtain ⟨host, -, rfl⟩ := Option.map_eq_some_iff.1 h
        rfl
    · obtain rfl := Option.some.inj h
      rfl
  · obtain rfl := Option.some.inj h
    rfl

theorem scheme_of_ofScheme? {scheme cs : List Char} {u : Url} (h : ofScheme? scheme cs = some u) :
    u.scheme = scheme := by
  rw [ofScheme?.eq_def] at h
  split at h
  · exact scheme_of_localFile? h
  · split at h
    · exact scheme_of_located? h
    · split at h
      · exact scheme_of_located? h
      · obtain rfl := Option.some.inj h
        rfl
      · obtain rfl := Option.some.inj h
        rfl

/-- A URL of one of the two schemes for documents. -/
def IsDocument (u : Url) : Prop := u.scheme = "http".toList ∨ u.scheme = "https".toList

theorem IsDocument.isWebScheme {u : Url} (h : u.IsDocument) : isWebScheme u.scheme = true := by
  rcases h with h | h <;> rw [h] <;> decide

/-- The host of such a URL is one that is resolved. -/
theorem exists_host_of_parse? {s : String} {u : Url} (read : Url.parse? s = some u)
    (document : u.IsDocument) : ∃ cs host, Host.parse? cs = some host ∧ u.host = some host := by
  obtain ⟨⟨scheme, rest⟩, -, read⟩ := Option.bind_eq_some_iff.1 read
  obtain rfl := scheme_of_ofScheme? read
  have file : u.scheme ≠ "file".toList := by
    rcases document with h | h <;> rw [h] <;> decide
  simp only at read
  rw [ofScheme?_of_web file document.isWebScheme] at read
  obtain ⟨⟨host, service⟩, authority, same⟩ := Option.map_eq_some_iff.1 read
  simp only [authority?, if_true] at authority
  obtain ⟨host', parsed, more⟩ := Option.bind_eq_some_iff.1 authority
  obtain ⟨-, more⟩ := Option.ite_none_left_eq_some.1 more
  obtain ⟨n, -, found⟩ := Option.bind_eq_some_iff.1 more
  cases found
  refine ⟨_, host, parsed, ?_⟩
  rw [← same]
  rfl

/-- What is written for the host and the service. -/
def authority (u : Url) : List Char :=
  (match u.host with | some host => host.print | none => []) ++
    (match u.service with | some n => ':' :: Nat.toDigits 10 n.toNat | none => [])

theorem toList_print {u : Url} (host : u.host ≠ none) (fragment : u.fragment = none) :
    u.print.toList = u.scheme ++ ':' :: '/' :: '/' :: (u.authority ++ u.target) := by
  cases named : u.host with
  | none => exact absurd named host
  | some host =>
      rw [print, String.toList_ofList]
      simp only [authority, named, fragment, List.append_nil]
      rfl

/-- Nothing that is written for the host and the service ends them. -/
theorem inAuthority_of_mem_authority {s : String} {u : Url} (read : Url.parse? s = some u)
    (document : u.IsDocument) : ∀ c ∈ u.authority, inAuthority true c = true := by
  obtain ⟨cs, host, parsed, named⟩ := exists_host_of_parse? read document
  intro c member
  rw [authority, named] at member
  rcases List.mem_append.1 member with inHost | inService
  · exact Host.inAuthority_of_mem_print parsed c inHost
  · cases given : u.service with
    | none => exact absurd (given ▸ inService) List.not_mem_nil
    | some n =>
        simp only [given] at inService
        rcases List.mem_cons.1 inService with rfl | digits
        · decide
        · have digit := Nat.isDigit_of_mem_toDigits (by decide) (by decide) digits
          exact inAuthority_of_isAlphanum (by simp [Char.isAlphanum, digit])

/-! ## Paths -/

/-- A segment as it is written: what a path does not keep is encoded in it. -/
def IsWrittenSegment (segment : List Char) : Prop := ∃ cs, segment = encode pathKeeps cs

theorem isWrittenSegment_nil : IsWrittenSegment [] := ⟨[], rfl⟩

theorem isWrittenSegment_of_mem_resolve {before segments : List (List Char)}
    (written : ∀ s ∈ before, IsWrittenSegment s) :
    ∀ s ∈ resolve before segments, IsWrittenSegment s := by
  have parentWritten {before : List (List Char)} (written : ∀ s ∈ before, IsWrittenSegment s) :
      ∀ s ∈ parent before, IsWrittenSegment s := by
    cases before with
    | nil => exact written
    | cons last before =>
        rw [parent]
        split
        · exact written
        · exact (List.forall_mem_cons.1 written).2
  have closed {before : List (List Char)} (written : ∀ s ∈ before, IsWrittenSegment s) :
      ∀ s ∈ ([] :: before).reverse, IsWrittenSegment s := by
    intro s member
    rcases List.mem_cons.1 (List.mem_reverse.1 member) with rfl | old
    · exact isWrittenSegment_nil
    · exact written s old
  induction segments generalizing before with
  | nil =>
      intro s member
      exact written s (List.mem_reverse.1 member)
  | cons segment segments ih =>
      simp only [resolve]
      split
      · split
        · exact closed (parentWritten written)
        · exact ih (parentWritten written)
      · split
        · split
          · exact closed written
          · exact ih written
        · exact ih (List.forall_mem_cons.2 ⟨⟨segment, rfl⟩, written⟩)

/-- Encoding leaves none but bytes that are kept, the escapes among them. -/
theorem pathKeeps_of_mem_encode {cs : List Char} {b : UInt8}
    (h : b ∈ Text.encode (encode pathKeeps cs)) : pathKeeps b = true := by
  rw [encode_eq_encodeWith, ← Text.bytes_ofList_eq_encode,
    Percent.bytes_encodeWith keepsEscapes_pathKeeps] at h
  obtain ⟨c, -, member⟩ := List.mem_flatMap.1 h
  have digit (n : Nat) (small : n < 16) := keepsEscapes_pathKeeps.keeps_digitByte small
  exact Percent.forall_mem_written (P := (pathKeeps · = true)) keepsEscapes_pathKeeps.percent digit
    id b member

theorem isPathByte_of_pathKeeps {b : UInt8} (h : pathKeeps b = true) :
    Http.Target.isPathByte b = true := by
  simp only [pathKeeps, fragmentKeeps, isVisible, Bool.and_eq_true, decide_eq_true_eq,
    UInt8.lt_iff_toNat_lt, ne_eq, ← UInt8.toNat_inj, UInt8.reduceToNat] at h
  simp only [Http.Target.isPathByte, Bool.or_eq_true, Bool.and_eq_true, decide_eq_true_eq,
    UInt8.le_iff_toNat_le, ← UInt8.toNat_inj, UInt8.reduceToNat]
  omega

/-- What is written for a path may stand in one. -/
theorem isPathByte_of_mem_print {segments : List (List Char)}
    (written : ∀ s ∈ segments, IsWrittenSegment s) :
    ∀ b ∈ Text.encode (Path.segments segments).print, Http.Target.isPathByte b = true := by
  intro b member
  rw [Path.print, Text.encode, List.flatMap_assoc] at member
  obtain ⟨s, listed, member⟩ := List.mem_flatMap.1 member
  rw [List.flatMap_cons] at member
  rcases List.mem_append.1 member with slash | inside
  · obtain rfl := List.mem_singleton.1 slash
    decide
  · obtain ⟨cs, rfl⟩ := written s listed
    exact isPathByte_of_pathKeeps (pathKeeps_of_mem_encode inside)

end Url

end FormSieve
