import FormSieve.Proofs.Net.Path
import Mathlib.Data.List.DropRight
import Mathlib.Data.List.TakeWhile

/-!
# URLs that are written on

A URL with a host that ends in a slash, and has neither a query nor a fragment, is read in the
same way when more is written behind it: scheme, host and service stay, and what follows goes on
from the segments that were there.
-/

namespace FormSieve

namespace Url

/-! ## Texts that are written on -/

section Lists

variable {α : Type} {p : α → Bool} {a : α} {front : List α}

theorem takeWhile_append_of_mem (member : a ∈ front) (stops : p a = false) (more : List α) :
    (front ++ more).takeWhile p = front.takeWhile p := by
  induction front with
  | nil => exact absurd member List.not_mem_nil
  | cons b front ih =>
      rw [List.cons_append]
      cases holds : p b with
      | false => simp [holds]
      | true =>
          have later := List.mem_of_ne_of_mem (fun same => by simp [same, holds] at stops) member
          rw [List.takeWhile_cons_of_pos holds, List.takeWhile_cons_of_pos holds, ih later]

theorem dropWhile_ne_nil (member : a ∈ front) (stops : p a = false) : front.dropWhile p ≠ [] := by
  intro allHold
  rw [List.dropWhile_eq_nil_iff.1 allHold a member] at stops
  exact absurd stops (by simp)

theorem dropWhile_append_of_ne_nil (nonempty : front.dropWhile p ≠ []) (more : List α) :
    (front ++ more).dropWhile p = front.dropWhile p ++ more := by
  rw [List.dropWhile_append, if_neg (by simpa using nonempty)]

theorem getLast?_of_append (start : List α) {rest : List α} (nonempty : rest ≠ []) :
    (start ++ rest).getLast? = rest.getLast? := by
  obtain ⟨b, rest, rfl⟩ := List.exists_cons_of_ne_nil nonempty
  simp [List.getLast?_cons]

theorem getLast?_dropWhile (nonempty : front.dropWhile p ≠ []) :
    (front.dropWhile p).getLast? = front.getLast? := by
  rw [← getLast?_of_append (front.takeWhile p) nonempty, List.takeWhile_append_dropWhile]

/-- Nothing is dropped from the end if the last one stays. -/
theorem reverse_dropWhile_reverse (h : ∀ a ∈ front.getLast?, p a = false) :
    (front.reverse.dropWhile p).reverse = front := by
  refine List.rdropWhile_eq_self_iff.2 fun nonempty => ?_
  rw [h _ (List.getLast?_eq_some_getLast nonempty)]
  exact Bool.false_ne_true

/-- What is dropped from the end stands behind the last one that stays. -/
theorem reverse_dropWhile_append (h : ∀ a ∈ front.getLast?, p a = false) (more : List α) :
    ((front ++ more).reverse.dropWhile p).reverse =
      front ++ (more.reverse.dropWhile p).reverse := by
  rw [List.reverse_append, List.dropWhile_append]
  split
  · next allHold =>
      rw [reverse_dropWhile_reverse h, List.isEmpty_iff.1 allHold]
      simp
  · rw [List.reverse_append, List.reverse_reverse]

end Lists

/-! ## Edges and schemes -/

/-- Nothing but the beginning is trimmed if the last character is no edge. -/
theorem clean_of_getLast? {cs : List Char} (h : ∀ c ∈ cs.getLast?, isEdge c = false) :
    clean cs = (cs.dropWhile isEdge).filter isKept := by
  show (((cs.dropWhile isEdge).reverse.dropWhile isEdge).reverse).filter isKept = _
  rw [reverse_dropWhile_reverse]
  intro c member
  by_cases allEdges : cs.dropWhile isEdge = []
  · rw [allEdges] at member
    exact absurd member (by simp)
  · rw [getLast?_dropWhile allEdges] at member
    exact h c member

theorem clean_append {front more : List Char} (h : ∀ c ∈ more.getLast?, isEdge c = false) :
    clean (front ++ '/' :: more) = clean (front ++ ['/']) ++ more.filter isKept := by
  have slash : (front ++ ['/']).dropWhile isEdge ≠ [] := dropWhile_ne_nil (a := '/') (by simp) rfl
  rw [List.append_cons, clean_of_getLast?, clean_of_getLast?, dropWhile_append_of_ne_nil slash,
    List.filter_append]
  · rw [List.getLast?_concat]
    rintro c ⟨⟩
    rfl
  · intro c member
    cases ends : more.getLast? with
    | none =>
        rw [List.getLast?_append, ends, Option.none_or, List.getLast?_concat] at member
        obtain rfl := Option.some.inj member
        rfl
    | some d =>
        rw [List.getLast?_append, ends] at member
        exact h c (ends.trans member)

theorem getLast?_clean (front : List Char) : (clean (front ++ ['/'])).getLast? = some '/' := by
  have slash : (front ++ ['/']).dropWhile isEdge ≠ [] := dropWhile_ne_nil (a := '/') (by simp) rfl
  have last : ((front ++ ['/']).dropWhile isEdge).getLast? = some '/' := by
    rw [getLast?_dropWhile slash, List.getLast?_concat]
  obtain ⟨kept, trimmed⟩ := List.getLast?_eq_some_iff.1 last
  rw [clean_of_getLast? (by rw [List.getLast?_concat]; rintro c ⟨⟩; rfl), trimmed,
    List.filter_append]
  exact List.getLast?_concat

theorem not_isEdge_of_isSchemeChar {c : Char} (h : isSchemeChar c = true) : isEdge c = false := by
  have low : ∀ n ≤ 0x20, isSchemeChar (Char.ofNat n) = false := by decide
  rw [isEdge, decide_eq_false_iff_not]
  intro edge
  have absent := low _ edge
  rw [Char.ofNat_toNat, h] at absent
  exact absurd absent (by simp)

theorem isKept_of_not_isEdge {c : Char} (h : isEdge c = false) : isKept c = true := by
  rw [isKept, Bool.and_eq_true, Bool.and_eq_true, decide_eq_true_iff, decide_eq_true_iff,
    decide_eq_true_iff]
  refine ⟨⟨?_, ?_⟩, ?_⟩
  all_goals
    rintro rfl
    exact absurd h (by decide)

/-- A scheme begins with a letter and ends at its colon. -/
theorem scheme?_eq_some_iff {cs scheme rest : List Char} :
    scheme? cs = some (scheme, rest) ↔
      ∃ first name, cs.takeWhile isSchemeChar = first :: name ∧
        cs.dropWhile isSchemeChar = ':' :: rest ∧ first.isAlpha = true ∧
          (first :: name).map Char.toLower = scheme := by
  rw [scheme?]
  constructor
  · intro h
    split at h
    · next first name behind taken dropped =>
        obtain ⟨alpha, same⟩ := Option.ite_none_right_eq_some.1 h
        obtain ⟨rfl, rfl⟩ := Prod.mk.inj (Option.some.inj same)
        exact ⟨first, name, taken, dropped, alpha, rfl⟩
    · exact absurd h (by simp)
  · rintro ⟨first, name, taken, dropped, alpha, rfl⟩
    rw [taken, dropped]
    exact if_pos alpha

theorem scheme?_append {cs scheme rest : List Char} (h : scheme? cs = some (scheme, rest))
    (more : List Char) : scheme? (cs ++ more) = some (scheme, rest ++ more) := by
  obtain ⟨first, name, taken, dropped, alpha, same⟩ := scheme?_eq_some_iff.1 h
  have colon : ':' ∈ cs := (List.dropWhile_sublist _).mem (dropped ▸ List.mem_cons_self)
  have behind := dropWhile_append_of_ne_nil (p := isSchemeChar) (dropWhile_ne_nil colon rfl) more
  refine scheme?_eq_some_iff.2 ⟨first, name, ?_, ?_, alpha, same⟩
  · rw [takeWhile_append_of_mem colon (by decide), taken]
  · rw [behind, dropped, List.cons_append]

theorem getLast?_of_scheme? {cs scheme rest : List Char} (h : scheme? cs = some (scheme, rest))
    (last : cs.getLast? = some '/') : rest.getLast? = some '/' := by
  obtain ⟨first, name, -, dropped, -, -⟩ := scheme?_eq_some_iff.1 h
  have behind : (cs.dropWhile isSchemeChar).getLast? = some '/' := by
    rw [getLast?_dropWhile (by simp [dropped]), last]
  rw [dropped, List.getLast?_cons] at behind
  cases ends : rest.getLast? with
  | none => simp [ends] at behind
  | some c => simpa [ends] using behind

/-! ## Paths -/

/-- A path that begins and ends with a slash goes on with the segments behind it. -/
theorem path_parse_append {web : Bool} {c : Char} (first : isSlash web c = true) {rest : List Char}
    (last : (c :: rest).getLast? = some '/') :
    ∃ segments, ∀ more, Path.parse web (c :: rest ++ more) =
      .segments (resolve [] (segments ++ splitSlashes web more)) := by
  have divided (cs : List Char) :
      Path.parse web (c :: cs) = .segments (resolve [] (splitSlashes web cs)) := by
    simp only [Path.parse, first, if_true]
  rcases List.eq_nil_or_concat rest with rfl | ⟨front, d, rfl⟩
  · exact ⟨[], fun more => divided more⟩
  · obtain rfl : d = '/' := by
      rw [List.concat_eq_append, ← List.cons_append, List.getLast?_concat] at last
      exact Option.some.inj last
    refine ⟨splitSlashes web front, fun more => ?_⟩
    rw [List.cons_append, divided, List.concat_eq_append, List.append_assoc,
      List.singleton_append, splitSlashes_append rfl]

/-- A URL, with more written behind its last slash. -/
def continued (u : Url) (segments : List (List Char)) (more : List Char) : Url :=
  withRest u.scheme u.host u.service
    (.segments (resolve []
      (segments ++ splitSlashes (isWebScheme u.scheme) (more.takeWhile (!endsPath ·)))))
    (more.dropWhile (!endsPath ·))

/-- A character of an authority. -/
def inAuthority (web : Bool) (c : Char) : Bool := !(isSlash web c || endsPath c)

/-- A URL whose host and service are known, from behind its authority. -/
def behindAuthority (scheme : List Char) (host : Option Host) (service : Option UInt16)
    (cs : List Char) : Url :=
  let rest := cs.dropWhile (inAuthority (isWebScheme scheme))
  withRest scheme host service (Path.parse (isWebScheme scheme) (rest.takeWhile (!endsPath ·)))
    (rest.dropWhile (!endsPath ·))

/-- There is a query or a fragment exactly if something ends the path. -/
theorem withRest_inPath_iff {scheme cs : List Char} {host : Option Host} {service : Option UInt16}
    {path : Path} :
    (withRest scheme host service path (cs.dropWhile (!endsPath ·))).query = none ∧
        (withRest scheme host service path (cs.dropWhile (!endsPath ·))).fragment = none ↔
      ∀ c ∈ cs, endsPath c = false := by
  constructor
  · simp only [withRest]
    rintro ⟨query, fragment⟩
    cases ends : cs.dropWhile (!endsPath ·) with
    | nil => simpa using List.dropWhile_eq_nil_iff.1 ends
    | cons c rest =>
        have stops := List.head?_dropWhile_not (!endsPath ·) cs
        rw [ends] at query fragment stops
        have marks : c = '?' ∨ c = '#' := by
          simpa [endsPath, Decidable.or_iff_not_imp_left] using stops
        rcases marks with rfl | rfl
        · exact absurd query (by simp)
        · exact absurd fragment (by simp)
  · intro inPath
    have nothing : cs.dropWhile (!endsPath ·) = [] :=
      List.dropWhile_eq_nil_iff.2 (by simpa using inPath)
    rw [nothing]
    exact ⟨rfl, rfl⟩

theorem behindAuthority_append {scheme cs : List Char} {host : Option Host}
    {service : Option UInt16} (last : cs.getLast? = some '/')
    (query : (behindAuthority scheme host service cs).query = none)
    (fragment : (behindAuthority scheme host service cs).fragment = none) :
    ∃ segments, ∀ more, behindAuthority scheme host service (cs ++ more) =
      (behindAuthority scheme host service cs).continued segments more := by
  have slash := dropWhile_ne_nil (p := inAuthority (isWebScheme scheme))
    (List.mem_of_getLast? last) rfl
  obtain ⟨c, rest, behind⟩ := List.exists_cons_of_ne_nil slash
  have inPath := withRest_inPath_iff.1 ⟨query, fragment⟩
  have notEnd : ∀ c ∈ cs.dropWhile (inAuthority (isWebScheme scheme)),
      (!endsPath c) = true := by simpa using inPath
  have begins : isSlash (isWebScheme scheme) c = true := by
    have stops := List.head?_dropWhile_not (inAuthority (isWebScheme scheme)) cs
    rw [behind] at stops inPath
    simpa [inAuthority, inPath c List.mem_cons_self] using stops
  rw [← getLast?_dropWhile slash, behind] at last
  obtain ⟨segments, goes⟩ := path_parse_append begins last
  refine ⟨segments, fun more => ?_⟩
  rw [behindAuthority, dropWhile_append_of_ne_nil slash, List.takeWhile_append_of_pos notEnd,
    List.dropWhile_append_of_pos notEnd, behind, goes]
  rfl

/-! ## URLs -/

/-- A URL that more can be written behind: it has a host, but neither a query nor a fragment. -/
structure IsOpen (u : Url) : Prop where
  hasHost : u.hasHost = true
  query : u.query = none
  fragment : u.fragment = none

/-- A reader of URLs goes on from `cs`, where it has read `u`. -/
def Continues (read : List Char → Option Url) (cs : List Char) (u : Url) : Prop :=
  ∃ segments, ∀ more, read (cs ++ more) = some (u.continued segments more)

variable {scheme cs : List Char} {u : Url}

theorem located?_eq (scheme cs : List Char) :
    located? scheme (isWebScheme scheme) cs =
      (authority? scheme (isWebScheme scheme)
        (cs.takeWhile (inAuthority (isWebScheme scheme)))).map fun found =>
          behindAuthority scheme (some found.1) found.2 cs := rfl

theorem located?_continues {web : Bool} (same : isWebScheme scheme = web)
    (read : located? scheme web cs = some u) (last : cs.getLast? = some '/') (h : IsOpen u) :
    Continues (located? scheme web) cs u := by
  subst same
  rw [located?_eq] at read
  obtain ⟨found, authority, rfl⟩ := Option.map_eq_some_iff.1 read
  obtain ⟨segments, goes⟩ := behindAuthority_append last h.query h.fragment
  refine ⟨segments, fun more => ?_⟩
  rw [located?_eq, takeWhile_append_of_mem (List.mem_of_getLast? last) rfl, authority,
    Option.map_some, goes]

theorem IsOpen.host_ne_none (h : IsOpen u) : u.host ≠ none := by
  intro hostless
  have named := h.hasHost
  rw [Url.hasHost, hostless] at named
  exact absurd named (by simp)

theorem localFile?_of_host (file : isWebScheme scheme = true) {a b : Char} {rest : List Char}
    (slashes : (isSlash true a && isSlash true b) = true)
    (named : (rest.takeWhile (inAuthority true)).isEmpty = false) :
    localFile? scheme (a :: b :: rest) =
      (Host.parse? (rest.takeWhile (inAuthority true))).map fun host =>
        behindAuthority scheme (if host = .name "localhost".toList then none else some host) none
          rest := by
  simp only [localFile?, slashes, if_true]
  refine (if_neg (ne_true_of_eq_false named)).trans ?_
  simp only [behindAuthority, file]
  rfl

/-- Only two slashes and a name behind them make a file that is not local. -/
theorem exists_of_localFile? (read : localFile? scheme cs = some u) (h : IsOpen u) :
    ∃ a b rest, cs = a :: b :: rest ∧ (isSlash true a && isSlash true b) = true ∧
      (rest.takeWhile (inAuthority true)).isEmpty = false := by
  simp only [localFile?] at read
  split at read
  · next a b rest =>
      split at read
      · next slashes =>
          split at read
          · obtain rfl := Option.some.inj read
            exact absurd rfl h.host_ne_none
          · next named => exact ⟨a, b, rest, rfl, slashes, eq_false_of_ne_true named⟩
      · obtain rfl := Option.some.inj read
        exact absurd rfl h.host_ne_none
  · obtain rfl := Option.some.inj read
    exact absurd rfl h.host_ne_none

theorem localFile?_continues (file : isWebScheme scheme = true)
    (read : localFile? scheme cs = some u) (last : cs.getLast? = some '/') (h : IsOpen u) :
    Continues (localFile? scheme) cs u := by
  obtain ⟨a, b, rest, rfl, slashes, named⟩ := exists_of_localFile? read h
  rw [localFile?_of_host file slashes named] at read
  obtain ⟨host, parsed, rfl⟩ := Option.map_eq_some_iff.1 read
  have nonempty : rest ≠ [] := by
    rintro rfl
    exact absurd named (by simp)
  rw [← List.singleton_append, List.append_cons, getLast?_of_append _ nonempty] at last
  obtain ⟨segments, goes⟩ := behindAuthority_append last h.query h.fragment
  have same := takeWhile_append_of_mem (p := inAuthority true) (List.mem_of_getLast? last) rfl
  refine ⟨segments, fun more => ?_⟩
  rw [List.cons_append, List.cons_append, localFile?_of_host file slashes (by rw [same, named]),
    same, parsed, Option.map_some, goes]

/-- In the schemes of the web the host stands behind any number of slashes. -/
theorem ofScheme?_of_web (file : scheme ≠ "file".toList) (web : isWebScheme scheme = true)
    (cs : List Char) :
    ofScheme? scheme cs = located? scheme true (cs.dropWhile (isSlash true)) := by
  simp only [ofScheme?, file, web, if_false, if_true]

/-- In other schemes it stands behind two slashes. -/
theorem ofScheme?_of_not_web (file : scheme ≠ "file".toList) (web : isWebScheme scheme = false)
    (cs : List Char) : ofScheme? scheme ('/' :: '/' :: cs) = located? scheme false cs := by
  simp only [ofScheme?, file, web, if_false, Bool.false_eq_true]

/-- What stands between two slashes and the next one is the authority. -/
theorem ofScheme?_authority (file : scheme ≠ "file".toList) {authority : List Char}
    (named : authority ≠ [])
    (inside : ∀ c ∈ authority, inAuthority (isWebScheme scheme) c = true) (rest : List Char) :
    ofScheme? scheme ('/' :: '/' :: (authority ++ '/' :: rest)) =
      (authority? scheme (isWebScheme scheme) authority).map fun found =>
        behindAuthority scheme (some found.1) found.2 (authority ++ '/' :: rest) := by
  have taken : (authority ++ '/' :: rest).takeWhile (inAuthority (isWebScheme scheme)) =
      authority := by
    rw [List.takeWhile_append_of_pos inside, List.takeWhile_cons_of_neg Bool.false_ne_true,
      List.append_nil]
  have located : ofScheme? scheme ('/' :: '/' :: (authority ++ '/' :: rest)) =
      located? scheme (isWebScheme scheme) (authority ++ '/' :: rest) := by
    cases web : isWebScheme scheme with
    | true =>
        obtain ⟨a, more, rfl⟩ := List.exists_cons_of_ne_nil named
        have first : isSlash true a = false := by
          have first := inside a List.mem_cons_self
          rw [web, inAuthority] at first
          cases slash : isSlash true a with
          | true => simp [slash] at first
          | false => rfl
        rw [ofScheme?_of_web file web, List.dropWhile_cons_of_pos rfl,
          List.dropWhile_cons_of_pos rfl, List.cons_append,
          List.dropWhile_cons_of_neg (by simp [first])]
    | false => exact ofScheme?_of_not_web file web _
  rw [located, located?_eq, taken]

theorem ofScheme?_continues (read : ofScheme? scheme cs = some u) (last : cs.getLast? = some '/')
    (h : IsOpen u) : Continues (ofScheme? scheme) cs u := by
  by_cases file : scheme = "file".toList
  · subst file
    have reads (cs : List Char) : ofScheme? "file".toList cs = localFile? "file".toList cs :=
      if_pos rfl
    rw [reads] at read
    obtain ⟨segments, goes⟩ := localFile?_continues (by decide) read last h
    exact ⟨segments, fun more => (reads _).trans (goes more)⟩
  · cases web : isWebScheme scheme with
    | true =>
        rw [ofScheme?_of_web file web] at read
        have named : cs.dropWhile (isSlash true) ≠ [] := by
          intro nothing
          rw [nothing] at read
          exact nomatch read
        obtain ⟨segments, goes⟩ :=
          located?_continues web read ((getLast?_dropWhile named).trans last) h
        refine ⟨segments, fun more => ?_⟩
        rw [ofScheme?_of_web file web, dropWhile_append_of_ne_nil named, goes]
    | false =>
        simp only [ofScheme?, file, web, if_false, Bool.false_eq_true] at read
        split at read
        · next rest =>
            cases rest with
            | nil =>
                have u_eq := Option.some.inj (show some _ = some u from read)
                exact absurd h.hasHost (by rw [← u_eq]; exact Bool.false_ne_true)
            | cons c rest =>
                obtain ⟨segments, goes⟩ := located?_continues web read (by simpa using last) h
                refine ⟨segments, fun more => ?_⟩
                exact (ofScheme?_of_not_web file web _).trans (goes more)
        · obtain rfl := Option.some.inj read
          exact absurd rfl h.host_ne_none
        · obtain rfl := Option.some.inj read
          exact absurd rfl h.host_ne_none

theorem parse?_ofList (cs : List Char) : parse? (String.ofList cs) =
    (scheme? (clean cs)).bind fun found => ofScheme? found.1 found.2 := by
  rw [parse?, String.toList_ofList]

/-- Reading a URL goes on behind a slash, with what is kept of the text. -/
theorem parse?_append {front : List Char} (read : parse? (String.ofList (front ++ ['/'])) = some u)
    (h : IsOpen u) :
    ∃ segments, ∀ more : List Char, (∀ c ∈ more.getLast?, isEdge c = false) →
      parse? (String.ofList (front ++ '/' :: more)) =
        some (u.continued segments (more.filter isKept)) := by
  rw [parse?_ofList] at read
  obtain ⟨⟨scheme, rest⟩, begins, located⟩ := Option.bind_eq_some_iff.1 read
  have last := getLast?_of_scheme? begins (getLast?_clean front)
  obtain ⟨segments, goes⟩ := ofScheme?_continues located last h
  refine ⟨segments, fun more stays => ?_⟩
  rw [parse?_ofList, clean_append stays, scheme?_append begins, Option.bind_some, goes]

end Url

end FormSieve
