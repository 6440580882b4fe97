import FormSieve.Proofs.Http.Target
import FormSieve.Proofs.Net.Writing
import FormSieve.Proofs.Provider.Address

/-!
# Requests to the provider

What is asked of the provider for a form whose name is literal in a path: the form's own place,
with the parameters as the query. The request is made unless its URL is too long to be sent, and
a server that reads the request's target finds exactly the parameters in it.
-/

namespace FormSieve

open Ascii Http

namespace Url

/-! ## URLs as they are sent -/

theorem endsAuthority_of_mem_authority {s : String} {u : Url} (read : Url.parse? s = some u)
    (document : u.IsDocument) :
    ∀ b ∈ Text.encode u.authority, Target.endsAuthority b = false := by
  intro b member
  rw [← Bool.not_eq_true]
  intro ends
  simp only [Target.endsAuthority, Bool.or_eq_true, decide_eq_true_eq] at ends
  have inside (ascii : b.toNat < 0x80) : inAuthority true (Char.ofNat b.toNat) = true :=
    inAuthority_of_mem_authority read document _ (Text.mem_of_mem_encode member ascii)
  rcases ends with (rfl | rfl) | rfl
  · exact absurd (inside (by decide)) (by decide)
  · exact absurd (inside (by decide)) (by decide)
  · exact absurd (inside (by decide)) (by decide)

theorem bytes_print {u : Url} (host : u.host ≠ none) (fragment : u.fragment = none) :
    Text.bytes u.print = Text.encode u.scheme ++
      colon :: slash :: slash :: (Text.encode u.authority ++ Text.encode u.target) := by
  rw [Text.bytes_eq_encode, toList_print host fragment, Text.encode_append, Text.encode_cons,
    Text.encode_cons, Text.encode_cons, Text.encode_append]
  rfl

theorem IsDocument.encode_scheme {u : Url} (h : u.IsDocument) :
    Text.encode u.scheme ≠ [] ∧ (∀ b ∈ Text.encode u.scheme, Target.isSchemeByte b = true) ∧
      (Text.encode u.scheme).length ≤ Target.maxSchemeLength := by
  have http : (Text.encode "http".toList).all Target.isSchemeByte = true := rfl
  have https : (Text.encode "https".toList).all Target.isSchemeByte = true := rfl
  rcases h with h | h
  · rw [h]
    exact ⟨by decide, List.all_eq_true.1 http, by decide⟩
  · rw [h]
    exact ⟨by decide, List.all_eq_true.1 https, by decide⟩

/-- Of a URL that is written out, the length, the authority and the path are judged. -/
theorem parse?_print {u : Url} (document : u.IsDocument) (host : u.host ≠ none)
    (fragment : u.fragment = none)
    (inside : ∀ b ∈ Text.encode u.authority, Target.endsAuthority b = false) {rest : Bytes}
    (target : Text.encode u.target = slash :: rest) :
    Target.parse? u.print =
      if Target.maxLength < (Text.bytes u.print).length then none
      else if Target.isAuthority (Text.encode u.authority) &&
          !(Text.encode u.authority).isEmpty then
        Target.ofPath? (Text.encode u.target)
      else none := by
  obtain ⟨named, isScheme, brief⟩ := document.encode_scheme
  have text := bytes_print host fragment
  rw [target] at text ⊢
  exact Target.parse?_of_address text named isScheme brief inside

/-- The target that is written for a path and a query. -/
theorem encode_target (u : Url) :
    Text.encode u.target =
      Target.written (Text.encode u.path.print) (u.query.map Text.encode) := by
  rw [target, Text.encode_append]
  cases u.query <;> rfl

end Url

/-! ## Plain names -/

def isPlainNameChar (c : Char) : Bool := c.isAlphanum || c = '-' || c = '_'

/-- A name of ASCII letters, digits, hyphens and underscores. -/
def IsPlainName (name : String) : Prop := ∀ c ∈ name.toList, isPlainNameChar c = true

instance (name : String) : Decidable (IsPlainName name) :=
  decidable_of_iff (name.toList.all isPlainNameChar = true) List.all_eq_true

/-- A plain name is literal in a path. -/
theorem IsPlainName.literal {name : String} (h : IsPlainName name) (web : Bool) :
    Url.Literal web name := by
  have other {c : Char} (plain : isPlainNameChar c = true) (d : Char)
      (mark : isPlainNameChar d = false) : c ≠ d := by
    rintro rfl
    exact absurd plain (by simp [mark])
  constructor
  · intro c member
    have plain := h c member
    simp [Url.isKept, other plain '\t' (by decide), other plain '\n' (by decide),
      other plain '\r' (by decide)]
  · intro c member
    have plain := h c member
    simp [Url.endsPath, other plain '?' (by decide), other plain '#' (by decide)]
  · intro c member
    have plain := h c member
    simp [Url.isSlash, other plain '/' (by decide), other plain '\\' (by decide)]
  · rintro rfl
    exact absurd (h '.' (by decide)) (by decide)
  · rintro rfl
    exact absurd (h '.' (by decide)) (by decide)
  · refine Percent.decode_of_free fun member => ?_
    rw [Text.bytes_eq_encode] at member
    exact absurd (h _ (Text.mem_of_mem_encode member (by decide))) (by decide)

namespace Remote

/-- The URL of a request for a page, before it is judged whether it can be sent. -/
def requestUrl? (remote : Remote) (formId : String) (query : PageQuery) : Option Url :=
  (Url.parse? (remote.submissionsUrl formId)).map (·.addPairs query.params)

/-- The URL of a request for a page is not too long to be sent. -/
def IsShort (remote : Remote) (formId : String) (query : PageQuery) : Prop :=
  ∀ url, remote.requestUrl? formId query = some url →
    (Text.bytes url.print).length ≤ Target.maxLength

theorem all_requestUrl?_iff {remote : Remote} {formId : String} {query : PageQuery} :
    (remote.requestUrl? formId query).all
        (fun url => (Text.bytes url.print).length ≤ Target.maxLength) = true ↔
      remote.IsShort formId query := by
  rw [IsShort]
  cases remote.requestUrl? formId query <;> simp

instance (remote : Remote) (formId : String) (query : PageQuery) :
    Decidable (remote.IsShort formId query) :=
  decidable_of_iff _ all_requestUrl?_iff

/-- `root` is the URL of the base address, and it can be requested itself. As for `HasRoot`, hosts
outside ASCII are left out. -/
structure HasRequestableRoot (remote : Remote) (root : Url) : Prop extends HasRoot remote root where
  requestable : isRequestable root = true

/-- `url` asks for the submissions of a form with some parameters, below the URL `root`. -/
structure Asks (root : Url) (formId : String) (params : List (String × String)) (url : Url) :
    Prop where
  origin : url.scheme = root.scheme ∧ url.host = root.host ∧ url.service = root.service
  path : ∃ segment, url.path = .segments (root.directory ++ submissionsPath segment) ∧
    Percent.decode (Text.encode segment) = Text.bytes formId
  written : ∀ list, url.path = .segments list → ∀ s ∈ list, Url.IsWrittenSegment s
  query : url.query.getD [] = (Form.encode params).toList
  unasked : url.query = none ↔ params = []
  fragment : url.fragment = none

theorem addPairs_query {u : Url} (unasked : u.query = none) (pairs : List (String × String)) :
    (u.addPairs pairs).query.getD [] = (Form.encode pairs).toList ∧
      ((u.addPairs pairs).query = none ↔ pairs = []) := by
  rw [← Form.encode_toList_eq_nil_iff]
  simp only [Url.addPairs, unasked]
  cases (Form.encode pairs).toList <;> simp

section Requests

variable {remote : Remote} {root : Url} {formId : String}

/-- A name that is literal in a path is asked about at the form's own place. -/
theorem exists_asks (h : remote.HasRoot root)
    (literal : Url.Literal (Url.isWebScheme root.scheme) formId) (query : PageQuery) :
    ∃ url, remote.requestUrl? formId query = some url ∧ Asks root formId query.params url := by
  obtain ⟨segments, directory, reads⟩ := exists_parse?_submissionsUrl h
  have addresses := (addresses_continued_iff directory formId).2 literal
  have inPath := (inPath_behindBase_iff formId).2 literal.inPath
  have added := addPairs_query addresses.query query.params
  obtain ⟨segment, path, decoded⟩ := addresses.path
  rw [Text.bytes_ofList_eq_encode] at decoded
  refine ⟨(root.continued segments (behindBase formId)).addPairs query.params, ?_, ⟨rfl, rfl, rfl⟩,
    ⟨segment, path, decoded⟩, ?_, added.1, added.2, addresses.fragment⟩
  · rw [requestUrl?, reads, Option.map_some]
  · intro list same
    have resolved := (Url.path_continued inPath).symm.trans same
    obtain rfl := Url.Path.segments.inj resolved
    exact Url.isWrittenSegment_of_mem_resolve (by simp)

/-- The URL of a base address has a path. -/
theorem HasRoot.exists_encode_target (h : remote.HasRoot root) :
    ∃ rest, Text.encode root.target = slash :: rest := by
  obtain ⟨segments, goes⟩ := Url.parse?_append h.read h.isOpen
  have itself := goes [] (by simp)
  rw [h.read] at itself
  have path : root.path = .segments ((segments.foldl Url.enter []).reverse ++ [[]]) := by
    rw [Option.some.inj itself]
    exact congrArg Url.Path.segments (Url.resolve_concat [] segments ⟨rfl, rfl⟩)
  obtain ⟨first, more, several⟩ : ∃ first more,
      (segments.foldl Url.enter []).reverse ++ [[]] = first :: more :=
    List.exists_cons_of_ne_nil (by simp)
  exact ⟨_, by rw [Url.encode_target, path, several]; rfl⟩

namespace HasRequestableRoot

theorem document (h : remote.HasRequestableRoot root) : root.IsDocument := by
  have requestable := h.requestable
  simp only [isRequestable, Bool.and_eq_true, Bool.or_eq_true, decide_eq_true_eq] at requestable
  exact requestable.1

theorem isAuthority (h : remote.HasRequestableRoot root) :
    (Target.isAuthority (Text.encode root.authority) && !(Text.encode root.authority).isEmpty) =
      true := by
  obtain ⟨rest, target⟩ := h.toHasRoot.exists_encode_target
  have requestable := h.requestable
  rw [isRequestable, Bool.and_eq_true, Url.parse?_print h.document h.isOpen.host_ne_none
    h.isOpen.fragment (Url.endsAuthority_of_mem_authority h.read h.document) target] at requestable
  by_contra not
  rw [if_neg not, ite_self] at requestable
  exact Bool.false_ne_true requestable.2

end HasRequestableRoot

namespace Asks

variable {params : List (String × String)} {url : Url} (asks : Asks root formId params url)
include asks

theorem document (h : root.IsDocument) : url.IsDocument := by
  rwa [Url.IsDocument, asks.origin.1]

theorem authority : url.authority = root.authority := by
  rw [Url.authority, Url.authority, asks.origin.2.1, asks.origin.2.2]

/-- The path begins with a slash and goes on. -/
theorem exists_encode_path : ∃ rest, rest ≠ [] ∧ Text.encode url.path.print = slash :: rest := by
  obtain ⟨segment, path, -⟩ := asks.path
  obtain ⟨first, second, more, several⟩ : ∃ first second more,
      root.directory ++ submissionsPath segment = first :: second :: more := by
    cases root.directory with
    | nil => exact ⟨_, _, _, rfl⟩
    | cons first directory =>
        obtain ⟨second, more, several⟩ :=
          List.exists_cons_of_ne_nil (by simp [submissionsPath] :
            directory ++ submissionsPath segment ≠ [])
        exact ⟨first, second, more, by rw [List.cons_append, several]⟩
  refine ⟨Text.encode (first ++ '/' :: second ++ (Url.Path.segments more).print), ?_, ?_⟩
  · simp [Text.encode_append, Text.encode_cons, Text.utf8EncodeChar_of_ascii]
  · rw [path, several, Url.Path.print, Url.Path.print]
    simp [Text.encode_append, Text.encode_cons, Text.utf8EncodeChar_of_ascii]

theorem encode_query :
    (url.query.map Text.encode).getD [] = Text.bytes (Form.encode params) := by
  rw [Text.bytes_eq_encode, ← asks.query]
  cases url.query <;> rfl

/-- The parameters are found in the query. -/
theorem decode_query : Form.decode ((url.query.map Text.encode).getD []) = params := by
  rw [asks.encode_query, Form.decode_encode]

/-- The target of the request is read as it is written. -/
theorem ofPath?_target : Target.ofPath? (Text.encode url.target) =
    some ⟨Text.encode url.path.print, url.query.map Text.encode⟩ := by
  obtain ⟨rest, -, begins⟩ := asks.exists_encode_path
  obtain ⟨segment, path, -⟩ := asks.path
  have inPath : ∀ b ∈ Text.encode url.path.print, Target.isPathByte b = true := by
    rw [path]
    exact Url.isPathByte_of_mem_print (asks.written _ path)
  have inQuery : ∀ b ∈ (url.query.map Text.encode).getD [], Target.isQueryByte b = true := by
    rw [asks.encode_query]
    exact fun b => Form.isQueryByte_of_mem_encode
  have text : Text.bytes (String.ofList url.target) =
      Target.written (Text.encode url.path.print) (url.query.map Text.encode) := by
    rw [Text.bytes_ofList_eq_encode, Url.encode_target]
  rw [Url.encode_target]
  exact Target.ofPath?_written text (by simp [begins]) inPath inQuery

theorem exists_encode_target : ∃ rest, rest ≠ [] ∧ Text.encode url.target = slash :: rest := by
  obtain ⟨rest, more, begins⟩ := asks.exists_encode_path
  rw [Url.encode_target, begins]
  exact ⟨_, List.append_ne_nil_of_left_ne_nil more _, rfl⟩

theorem host_ne_none (h : remote.HasRoot root) : url.host ≠ none := by
  rw [asks.origin.2.1]
  exact h.isOpen.host_ne_none

/-- A server that reads the target finds the path and the query. -/
theorem parse?_target (h : remote.HasRoot root)
    (short : (Text.bytes url.print).length ≤ Target.maxLength) :
    Target.parse? (String.ofList url.target) =
      some ⟨Text.encode url.path.print, url.query.map Text.encode⟩ := by
  obtain ⟨rest, more, target⟩ := asks.exists_encode_target
  have text : Text.bytes (String.ofList url.target) = Text.encode url.target :=
    Text.bytes_ofList_eq_encode _
  have shorter : (Text.bytes (String.ofList url.target)).length ≤ Target.maxLength := by
    rw [Url.bytes_print (asks.host_ne_none h) asks.fragment] at short
    rw [text]
    simp only [List.length_append, List.length_cons] at short
    omega
  rw [Target.parse?_of_path (text.trans target) more shorter, text, asks.ofPath?_target]

/-- The request can be made exactly if its URL is not too long. -/
theorem isRequestable_iff (h : remote.HasRequestableRoot root) :
    isRequestable url = true ↔ (Text.bytes url.print).length ≤ Target.maxLength := by
  obtain ⟨rest, -, target⟩ := asks.exists_encode_target
  have inside := Url.endsAuthority_of_mem_authority h.read h.document
  rw [← asks.authority] at inside
  have document := asks.document h.document
  have scheme : (decide (url.scheme = "http".toList) || decide (url.scheme = "https".toList)) =
      true := by
    rw [Bool.or_eq_true, decide_eq_true_iff, decide_eq_true_iff]
    exact document
  rw [isRequestable, scheme, Bool.true_and,
    Url.parse?_print document (asks.host_ne_none h.toHasRoot) asks.fragment inside target,
    asks.authority, h.isAuthority, if_pos rfl, asks.ofPath?_target, ← Nat.not_lt]
  split
  · next long => exact iff_of_false Bool.false_ne_true (not_not_intro long)
  · next short => exact iff_of_true rfl short

/-- The parameters are a part of what is written. -/
theorem length_encode_le (h : remote.HasRoot root) :
    (Text.bytes (Form.encode params)).length ≤ (Text.bytes url.print).length := by
  have query : ((url.query.map Text.encode).getD []).length ≤ (Text.encode url.target).length := by
    rw [Url.encode_target]
    cases url.query with
    | none => exact Nat.zero_le _
    | some query =>
        simp only [Target.written, Option.map_some, Option.getD_some, List.length_append,
          List.length_cons]
        omega
  rw [asks.encode_query] at query
  rw [Url.bytes_print (asks.host_ne_none h) asks.fragment]
  simp only [List.length_append, List.length_cons]
  omega

end Asks

/-- What is sent for the URL of a request, and that nothing is if it is too long. -/
theorem outgoing_of_asks {query : PageQuery} {url : Url} (h : remote.HasRequestableRoot root)
    (found : remote.requestUrl? formId query = some url)
    (asks : Asks root formId query.params url) :
    remote.outgoing formId query =
      if (Text.bytes url.print).length ≤ Target.maxLength then .ok ⟨url, query.authorization⟩
      else .error (noRequestFor url) := by
  obtain ⟨place, read, rfl⟩ := Option.map_eq_some_iff.1 found
  have hasHost : place.hasHost = true := by
    have same : place.host = root.host := asks.origin.2.1
    rw [Url.hasHost, same]
    exact h.isOpen.hasHost
  have judged := asks.isRequestable_iff h
  rw [outgoing, read]
  simp only [hasHost, Bool.not_true, Bool.false_eq_true, if_false, judged]

section Literal

variable (h : remote.HasRequestableRoot root)
  (literal : Url.Literal (Url.isWebScheme root.scheme) formId) {query : PageQuery}
include h literal

/-- A request whose URL is not too long is made at the form's own place. -/
theorem exists_outgoing_of_isShort (short : remote.IsShort formId query) :
    ∃ url, Asks root formId query.params url ∧
      (Text.bytes url.print).length ≤ Target.maxLength ∧
      remote.outgoing formId query = .ok ⟨url, query.authorization⟩ := by
  obtain ⟨url, found, asks⟩ := exists_asks h.toHasRoot literal query
  refine ⟨url, asks, short url found, ?_⟩
  rw [outgoing_of_asks h found asks, if_pos (short url found)]

/-- No other request is made. -/
theorem exists_outgoing_of_not_isShort (long : ¬remote.IsShort formId query) :
    ∃ url, remote.outgoing formId query = .error (noRequestFor url) := by
  obtain ⟨url, found, asks⟩ := exists_asks h.toHasRoot literal query
  refine ⟨url, ?_⟩
  rw [outgoing_of_asks h found asks, if_neg]
  intro short
  refine long fun other same => ?_
  rw [found] at same
  rwa [← Option.some.inj same]

theorem exists_outgoing_iff_isShort :
    (∃ sent, remote.outgoing formId query = .ok sent) ↔ remote.IsShort formId query := by
  constructor
  · rintro ⟨sent, made⟩
    by_contra long
    obtain ⟨url, refused⟩ := exists_outgoing_of_not_isShort h literal long
    exact nomatch made.symm.trans refused
  · intro short
    obtain ⟨url, -, -, made⟩ := exists_outgoing_of_isShort h literal short
    exact ⟨_, made⟩

theorem not_isShort_of_length
    (long : Target.maxLength < (Text.bytes (Form.encode query.params)).length) :
    ¬remote.IsShort formId query := by
  obtain ⟨url, found, asks⟩ := exists_asks h.toHasRoot literal query
  intro short
  exact absurd (Nat.lt_of_lt_of_le long (asks.length_encode_le h.toHasRoot))
    (Nat.not_lt_of_le (short url found))

end Literal

end Requests

end Remote

end FormSieve
