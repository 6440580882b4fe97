import FormSieve.Proofs.Net.Continuation
import FormSieve.Provider.Remote

/-!
# Base addresses

The paths of the provider are appended to its base address, behind a single slash. What matters
of the address is the URL that it is with that slash. An address that is written as a scheme, an
authority and a path, without a query or a fragment, has such a URL if its authority names a host.
Hosts are those of `Host.parse?`, so base addresses with names outside ASCII are left out.
-/

namespace FormSieve

open Url

namespace Remote

/-- The base address without slashes at its end. -/
def trimmed (remote : Remote) : List Char :=
  (remote.base.toList.reverse.dropWhile (· = '/')).reverse

/-- `u` is the URL of the base address: it has a host, but neither a query nor a fragment. This
holds of no address whose host is a name outside ASCII, which `Url.parse?` does not read. -/
structure HasRoot (remote : Remote) (u : Url) : Prop where
  read : parse? (String.ofList (remote.trimmed ++ ['/'])) = some u
  isOpen : u.IsOpen

/-- The base address is written as a scheme, an authority and a path. -/
structure IsWritten (remote : Remote) (scheme authority path : List Char) : Prop where
  text : remote.base.toList = scheme ++ "://".toList ++ authority ++ path
  letter : ∃ first name, scheme = first :: name ∧ first.isAlpha = true
  inScheme : ∀ c ∈ scheme, isSchemeChar c = true
  named : authority ≠ []
  inAuthority : ∀ c ∈ authority, Url.inAuthority (isWebScheme (scheme.map Char.toLower)) c = true
  kept : ∀ c ∈ authority, isKept c = true
  slash : ∀ c ∈ path.head?, c = '/'
  inPath : ∀ c ∈ path, endsPath c = false

variable {remote : Remote} {scheme authority path : List Char}

/-- With a slash at its end, a base address has a path that begins and ends with one. -/
theorem exists_trimmed (h : remote.IsWritten scheme authority path) :
    ∃ rest, remote.trimmed ++ ['/'] = scheme ++ "://".toList ++ authority ++ '/' :: rest ∧
      ∀ c ∈ rest, endsPath c = false := by
  have stays : ∀ c ∈ (scheme ++ "://".toList ++ authority).getLast?,
      (decide (c = '/')) = false := by
    rw [getLast?_of_append _ h.named]
    intro c last
    have inside := h.inAuthority c (List.mem_of_getLast? last)
    rw [decide_eq_false_iff_not]
    rintro rfl
    exact absurd inside Bool.false_ne_true
  rw [trimmed, h.text, reverse_dropWhile_append stays]
  obtain ⟨back, parts⟩ : (path.reverse.dropWhile (· = '/')).reverse <+: path :=
    List.rdropWhile_prefix _ _
  have slash := h.slash
  have inPath := h.inPath
  rw [← parts] at slash inPath
  cases begins : (path.reverse.dropWhile (· = '/')).reverse with
  | nil => exact ⟨[], by simp, by simp⟩
  | cons c rest =>
      rw [begins] at slash inPath
      obtain rfl := slash c rfl
      refine ⟨rest ++ ['/'], by simp, ?_⟩
      intro d member
      rcases List.mem_append.1 member with front | last
      · exact inPath d (List.mem_append_left _ (List.mem_cons_of_mem _ front))
      · obtain rfl := List.mem_singleton.1 last
        rfl

theorem exists_clean_trimmed (h : remote.IsWritten scheme authority path) :
    ∃ rest, clean (remote.trimmed ++ ['/']) =
        scheme ++ ':' :: '/' :: '/' :: (authority ++ '/' :: rest) ∧
      ∀ c ∈ rest, endsPath c = false := by
  obtain ⟨rest, text, inPath⟩ := exists_trimmed h
  obtain ⟨first, name, same, -⟩ := h.letter
  have keptScheme : scheme.filter isKept = scheme :=
    List.filter_eq_self.2 fun c member =>
      isKept_of_not_isEdge (not_isEdge_of_isSchemeChar (h.inScheme c member))
  have trims : (scheme ++ "://".toList ++ authority ++ '/' :: rest).dropWhile isEdge =
      scheme ++ "://".toList ++ authority ++ '/' :: rest := by
    have edge := not_isEdge_of_isSchemeChar (h.inScheme first (same ▸ List.mem_cons_self))
    rw [same]
    exact List.dropWhile_cons_of_neg (by simp [edge])
  refine ⟨rest.filter isKept, ?_, fun c member => inPath c (List.mem_filter.1 member).1⟩
  rw [clean_of_getLast? (by rw [List.getLast?_concat]; rintro c ⟨⟩; rfl), text, trims,
    List.filter_append, List.filter_append, List.filter_append, keptScheme,
    List.filter_eq_self.2 h.kept]
  simp [isKept]

/-- The scheme of a base address is read up to its colon. -/
theorem scheme?_of_isWritten (h : remote.IsWritten scheme authority path) (rest : List Char) :
    scheme? (scheme ++ ':' :: rest) = some (scheme.map Char.toLower, rest) := by
  obtain ⟨first, name, same, letter⟩ := h.letter
  refine scheme?_eq_some_iff.2 ⟨first, name, ?_, ?_, letter, by rw [same]⟩
  · rw [List.takeWhile_append_of_pos h.inScheme, List.takeWhile_cons_of_neg (by decide),
      List.append_nil, same]
  · rw [List.dropWhile_append_of_pos h.inScheme, List.dropWhile_cons_of_neg (by decide)]

/-- An address that is written out and names a host has a URL. -/
theorem exists_hasRoot {host : Host} {service : Option UInt16}
    (h : remote.IsWritten scheme authority path)
    (notFile : scheme.map Char.toLower ≠ "file".toList)
    (read : authority? (scheme.map Char.toLower) (isWebScheme (scheme.map Char.toLower)) authority =
      some (host, service))
    (hasName : host.print ≠ []) :
    ∃ u, remote.HasRoot u ∧ u.scheme = scheme.map Char.toLower ∧ u.host = some host ∧
      u.service = service := by
  obtain ⟨rest, cleaned, inPath⟩ := exists_clean_trimmed h
  have found : parse? (String.ofList (remote.trimmed ++ ['/'])) =
      some (behindAuthority (scheme.map Char.toLower) (some host) service
        (authority ++ '/' :: rest)) := by
    rw [parse?_ofList, cleaned, scheme?_of_isWritten h, Option.bind_some,
      ofScheme?_authority notFile h.named h.inAuthority, read, Option.map_some]
  have behind : (authority ++ '/' :: rest).dropWhile
      (inAuthority (isWebScheme (scheme.map Char.toLower))) = '/' :: rest := by
    rw [List.dropWhile_append_of_pos h.inAuthority, List.dropWhile_cons_of_neg Bool.false_ne_true]
  have unended : ∀ c ∈ '/' :: rest, endsPath c = false := List.forall_mem_cons.2 ⟨rfl, inPath⟩
  refine ⟨_, ⟨found, ?_, ?_, ?_⟩, rfl, rfl, rfl⟩
  · simpa [behindAuthority, withRest, hasHost] using hasName
  · rw [behindAuthority, behind]
    exact (withRest_inPath_iff.2 unended).1
  · rw [behindAuthority, behind]
    exact (withRest_inPath_iff.2 unended).2

end Remote

end FormSieve
