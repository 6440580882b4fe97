import FormSieve.Proofs.Provider.Base

/-!
# Where the submissions of a form are asked for

The name of a form is inserted as it is into a URL that is then read. A name that is literal in a
path becomes the one segment that is meant for it, and different literal names lead to different
places. Any other name leads elsewhere: it is read as more segments or fewer, as a query, as a
fragment, or as the name of another form.
-/

namespace FormSieve

namespace Url

/-- The segments of a URL but the last, which is empty behind a slash. -/
def directory (u : Url) : List (List Char) :=
  match u.path with
  | .segments list => list.dropLast
  | .undivided _ => []

theorem directory_of_continued {u : Url} {segments : List (List Char)}
    (h : u.continued segments [] = u) : u.directory = (segments.foldl enter []).reverse := by
  have path : u.path = .segments ((segments.foldl enter []).reverse ++ [[]]) := by
    rw [← h]
    exact congrArg Path.segments (resolve_concat [] segments ⟨rfl, rfl⟩)
  rw [directory, path]
  exact List.dropLast_concat

theorem path_continued {u : Url} {segments : List (List Char)} {more : List Char}
    (inPath : ∀ c ∈ more, endsPath c = false) :
    (u.continued segments more).path =
      .segments (resolve [] (segments ++ splitSlashes (isWebScheme u.scheme) more)) := by
  have whole : more.takeWhile (!endsPath ·) = more :=
    List.takeWhile_eq_self_iff.2 (by simpa using inPath)
  rw [continued, whole]
  rfl

theorem continued_inPath_iff {u : Url} {segments : List (List Char)} {more : List Char} :
    (u.continued segments more).query = none ∧ (u.continued segments more).fragment = none ↔
      ∀ c ∈ more, endsPath c = false :=
  withRest_inPath_iff

end Url

namespace Remote

/-- The provider's path to the submissions of the form that a segment names. -/
def submissionsPath (segment : List Char) : List (List Char) :=
  ["v1".toList, "api".toList, "forms".toList, segment, "submissions".toList]

/-- What precedes that segment, last one first, behind other segments. -/
def formsBehind (stack : List (List Char)) : List (List Char) :=
  "forms".toList :: "api".toList :: "v1".toList :: stack

theorem reverse_append_submissionsPath (stack : List (List Char)) (segment : List Char) :
    stack.reverse ++ submissionsPath segment =
      (segment :: formsBehind stack).reverse ++ ["submissions".toList] := by
  simp [submissionsPath, formsBehind]

/-- `url` is where the submissions of a form are, below the URL `root`. -/
structure Addresses (root : Url) (formId : String) (url : Url) : Prop where
  path : ∃ segment, url.path = .segments (root.directory ++ submissionsPath segment) ∧
    Percent.decode (Text.bytes (String.ofList segment)) = Text.bytes formId
  query : url.query = none
  fragment : url.fragment = none

/-- What stands behind the base address, as far as it is kept. -/
def behindBase (formId : String) : List Char :=
  "v1/api/forms/".toList ++ (formId.toList.filter Url.isKept ++ "/submissions".toList)

theorem exists_parse?_submissionsUrl {remote : Remote} {u : Url} (root : remote.HasRoot u) :
    ∃ segments, u.directory = (segments.foldl Url.enter []).reverse ∧
      ∀ formId, Url.parse? (remote.submissionsUrl formId) =
        some (u.continued segments (behindBase formId)) := by
  obtain ⟨segments, goes⟩ := Url.parse?_append root.read root.isOpen
  refine ⟨segments, ?_, fun formId => ?_⟩
  · have itself := goes [] (by simp)
    rw [root.read] at itself
    exact Url.directory_of_continued (Option.some.inj itself).symm
  · have text : remote.submissionsUrl formId = String.ofList (remote.trimmed ++
        '/' :: ("v1/api/forms/".toList ++ (formId.toList ++ "/submissions".toList))) := by
      rw [← String.toList_inj]
      simp [submissionsUrl, trimmed]
    have last : ("v1/api/forms/".toList ++ (formId.toList ++ "/submissions".toList)).getLast? =
        some 's' := by
      rw [← List.append_assoc, List.getLast?_append]
      rfl
    rw [text, goes _ (by rw [last]; rintro c ⟨⟩; rfl), List.filter_append, List.filter_append]
    rfl

theorem inPath_behindBase_iff (formId : String) :
    (∀ c ∈ behindBase formId, Url.endsPath c = false) ↔
      ∀ c ∈ formId.toList, Url.endsPath c = false := by
  constructor
  · intro inPath c member
    cases ends : Url.endsPath c with
    | false => rfl
    | true =>
        have marks : c = '?' ∨ c = '#' := by simpa [Url.endsPath] using ends
        have kept : Url.isKept c = true := by rcases marks with rfl | rfl <;> rfl
        rw [← ends, inPath c]
        exact List.mem_append_right _
          (List.mem_append_left _ (List.mem_filter.2 ⟨member, kept⟩))
  · intro inPath c member
    have before : "v1/api/forms/".toList.all (!Url.endsPath ·) = true := rfl
    have after : "/submissions".toList.all (!Url.endsPath ·) = true := rfl
    simp only [List.all_eq_true, Bool.not_eq_true'] at before after
    rcases List.mem_append.1 member with front | rest
    · exact before c front
    · rcases List.mem_append.1 rest with name | back
      · exact inPath c (List.mem_filter.1 name).1
      · exact after c back

theorem splitSlashes_behindBase (web : Bool) (formId : String) :
    Url.splitSlashes web (behindBase formId) =
      ["v1".toList, "api".toList, "forms".toList] ++
        Url.splitSlashes web (formId.toList.filter Url.isKept) ++ ["submissions".toList] := by
  have slash : Url.isSlash web '/' = true := rfl
  show Url.splitSlashes web ("v1".toList ++ '/' :: ("api".toList ++ '/' :: ("forms".toList ++
    '/' :: (formId.toList.filter Url.isKept ++ '/' :: "submissions".toList)))) = _
  rw [Url.splitSlashes_append slash, Url.splitSlashes_append slash, Url.splitSlashes_append slash,
    Url.splitSlashes_append slash]
  cases web <;> rfl

/-- The segments behind the base address, with those of the name of the form among them. -/
theorem resolve_behindBase (web : Bool) (segments : List (List Char)) (formId : String) :
    Url.resolve [] (segments ++ Url.splitSlashes web (behindBase formId)) =
      ((Url.splitSlashes web (formId.toList.filter Url.isKept)).foldl Url.enter
        (formsBehind (segments.foldl Url.enter []))).reverse ++ ["submissions".toList] := by
  rw [splitSlashes_behindBase, ← List.append_assoc, ← List.append_assoc,
    Url.resolve_concat [] _ ⟨by decide, by decide⟩, List.foldl_append, List.foldl_append]
  rfl

/-- The URL that is read has the provider's path exactly if entering the name of the form has put
one segment behind the others. -/
theorem path_continued_behindBase_iff {u : Url} {segments : List (List Char)}
    (directory : u.directory = (segments.foldl Url.enter []).reverse) {formId : String}
    (inPath : ∀ c ∈ formId.toList, Url.endsPath c = false) (segment : List Char) :
    (u.continued segments (behindBase formId)).path =
        .segments (u.directory ++ submissionsPath segment) ↔
      (Url.splitSlashes (Url.isWebScheme u.scheme) (formId.toList.filter Url.isKept)).foldl
          Url.enter (formsBehind (segments.foldl Url.enter [])) =
        segment :: formsBehind (segments.foldl Url.enter []) := by
  rw [Url.path_continued ((inPath_behindBase_iff formId).2 inPath), resolve_behindBase, directory,
    reverse_append_submissionsPath, Url.Path.segments.injEq, List.append_left_inj,
    List.reverse_inj]

/-- The URL that is read addresses the form exactly if its name is literal. -/
theorem addresses_continued_iff {u : Url} {segments : List (List Char)}
    (directory : u.directory = (segments.foldl Url.enter []).reverse) (formId : String) :
    Addresses u formId (u.continued segments (behindBase formId)) ↔
      Url.Literal (Url.isWebScheme u.scheme) formId := by
  constructor
  · rintro ⟨⟨segment, path, decoded⟩, query, fragment⟩
    have inPath := (inPath_behindBase_iff formId).1
      (Url.continued_inPath_iff.1 ⟨query, fragment⟩)
    exact (Url.exists_foldl_enter_iff_literal inPath _).1
      ⟨segment, (path_continued_behindBase_iff directory inPath segment).1 path, decoded⟩
  · intro literal
    have unended : (u.continued segments (behindBase formId)).query = none ∧
        (u.continued segments (behindBase formId)).fragment = none :=
      Url.continued_inPath_iff.2 ((inPath_behindBase_iff formId).2 literal.inPath)
    obtain ⟨segment, path, decoded⟩ :=
      (Url.exists_foldl_enter_iff_literal literal.inPath _).2 literal
    have whole := (path_continued_behindBase_iff directory literal.inPath segment).2 path
    exact ⟨⟨segment, whole, decoded⟩, unended.1, unended.2⟩

/-- A URL addresses one form at most. -/
theorem Addresses.formId_eq {root url : Url} {formId other : String}
    (h : Addresses root formId url) (h' : Addresses root other url) : formId = other := by
  obtain ⟨segment, path, decoded⟩ := h.path
  obtain ⟨segment', path', decoded'⟩ := h'.path
  rw [path] at path'
  have same : segment = segment' := by simpa [submissionsPath] using path'
  rw [← Text.bytes_inj, ← decoded, ← decoded', same]

/-- A URL is always read for a form, on the host of the base address. It addresses the form
exactly if the name of the form is literal in a path, and no other literal name leads to it. -/
theorem submissionsUrl_addresses_iff {remote : Remote} {root : Url} (h : remote.HasRoot root)
    (formId : String) :
    ∃ url, Url.parse? (remote.submissionsUrl formId) = some url ∧
      (url.scheme = root.scheme ∧ url.host = root.host ∧ url.service = root.service) ∧
      (Addresses root formId url ↔ Url.Literal (Url.isWebScheme root.scheme) formId) ∧
      ∀ other, Url.Literal (Url.isWebScheme root.scheme) formId →
        Url.Literal (Url.isWebScheme root.scheme) other →
        Url.parse? (remote.submissionsUrl other) = some url → formId = other := by
  obtain ⟨segments, directory, reads⟩ := exists_parse?_submissionsUrl h
  have addresses := addresses_continued_iff directory
  refine ⟨_, reads formId, ⟨rfl, rfl, rfl⟩, addresses formId, ?_⟩
  intro other literal literal' same
  have lands := (addresses other).2 literal'
  rw [Option.some.inj ((reads other).symm.trans same)] at lands
  exact ((addresses formId).2 literal).formId_eq lands

/-- A blank is encoded, and the form is addressed. -/
theorem submissionsUrl_of_blank :
    ∃ url, Url.parse? (submissionsUrl ⟨"http://h", false, by decide⟩ "a b") = some url ∧
      Addresses ⟨"http".toList, some (.name ['h']), none, .segments [[]], none, none⟩ "a b"
        url := by
  have root : HasRoot ⟨"http://h", false, by decide⟩
      ⟨"http".toList, some (.name ['h']), none, .segments [[]], none, none⟩ :=
    ⟨by decide +kernel, by decide, rfl, rfl⟩
  obtain ⟨url, read, -, addresses, -⟩ := submissionsUrl_addresses_iff root "a b"
  exact ⟨url, read, addresses.2 (by decide +kernel)⟩

/-- A slash divides the name of a form, and the form is not addressed. -/
theorem submissionsUrl_of_slash :
    ∃ url, Url.parse? (submissionsUrl ⟨"http://h", false, by decide⟩ "a/b") = some url ∧
      url.target = "/v1/api/forms/a/b/submissions".toList ∧
      ¬Addresses ⟨"http".toList, some (.name ['h']), none, .segments [[]], none, none⟩ "a/b"
        url := by
  refine ⟨⟨"http".toList, some (.name ['h']), none, .segments ["v1".toList, "api".toList,
    "forms".toList, "a".toList, "b".toList, "submissions".toList], none, none⟩,
    by decide +kernel, by decide, ?_⟩
  rintro ⟨⟨segment, path, -⟩, -, -⟩
  simp [Url.directory, submissionsPath] at path

end Remote

end FormSieve
