import FormSieve.Cli.Run
import FormSieve.Proofs.Json.SingleLine
import FormSieve.Proofs.Submission.PageLimit
import FormSieve.Proofs.Submission.Tree

/-!
# Filtering a page by command

The command looks at its limit first, then at its input and last at its filters. The first of them
that is at fault decides how the command fails, whatever the others are, and nothing is written. If
none is at fault, the page that is left is written on one line of its own, whatever line breaks
there are in the input and in the texts of the page.
-/

namespace FormSieve

/-- A page stands on one line. -/
theorem Page.singleLine_print (p : Page) : Json.SingleLine p.print := by
  rw [p.print_eq_print_tree]
  exact p.tree.singleLine_print

namespace Cli

variable {filters : String} {limit : Option UInt64} {input : Bytes} {page : Page}
  {taken : PageLimit} {fault : Fault}

/-! ## The limit and the input -/

/-- No limit but zero is at fault. -/
theorem exists_limitOf (positive : limit ≠ some 0) :
    ∃ taken : PageLimit, limitOf limit = .ok taken ∧ taken.value = limit.getD 150 := by
  cases limit with
  | none => exact ⟨.standard, rfl, rfl⟩
  | some n =>
      have above : 0 < n := UInt64.pos_iff_ne_zero.2 fun zero => positive (zero ▸ rfl)
      exact ⟨⟨n, above⟩, by rw [limitOf, PageLimit.ofUInt64?, dif_pos above], rfl⟩

/-- An input without a page: it is no text, or a text of blanks alone, or not the document of a
page. -/
inductive Unusable (input : Bytes) : Prop
  | noText (other : ∀ text, Text.bytes text ≠ input)
  | blank (text : String) (written : Text.bytes text = input) (nothing : Text.trim text = "")
  | noPage (refusal : Json.Refusal) (refused : Json.decode Page.decoder input = .error refusal)

theorem readPage_eq_ok_iff :
    readPage input = .ok page ↔ ¬Unusable input ∧ Json.decode Page.decoder input = .ok page := by
  rw [readPage]
  split
  · next other =>
      refine iff_of_false (fun read => nomatch read) fun usable => usable.1 (.noText ?_)
      rintro text rfl
      exact nomatch other.symm.trans (Text.ofBytes?_bytes text)
  · next text written =>
      have same := Text.bytes_eq_of_ofBytes? written
      split
      · next blank =>
          refine iff_of_false (fun read => nomatch read) fun usable => usable.1 ?_
          exact .blank text same (Text.isBlank_iff.1 blank)
      · next visible =>
          split
          · next page' decoded =>
              rw [decoded, Except.ok.injEq, Except.ok.injEq]
              refine ⟨fun found => ⟨?_, found⟩, And.right⟩
              rintro (other | ⟨text', same', nothing⟩ | ⟨refusal, refused⟩)
              · exact other text same
              · obtain rfl := Text.bytes_inj.1 (same'.trans same.symm)
                exact visible (Text.isBlank_iff.2 nothing)
              · exact nomatch decoded.symm.trans refused
          · next refusal refused =>
              exact iff_of_false (fun read => nomatch read) fun usable =>
                usable.1 (.noPage refusal refused)

theorem code_of_readPage (unread : readPage input = .error fault) :
    fault.code = "FILTER_CLI_IO_ERROR" := by
  rw [readPage] at unread
  split at unread
  · exact Except.error.inj unread ▸ rfl
  · split at unread
    · exact Except.error.inj unread ▸ rfl
    · split at unread
      · exact nomatch unread
      · exact Except.error.inj unread ▸ rfl

theorem exists_fault_of_unusable (unusable : Unusable input) :
    ∃ fault, readPage input = .error fault ∧ fault.code = "FILTER_CLI_IO_ERROR" := by
  cases tried : readPage input with
  | error fault => exact ⟨fault, rfl, code_of_readPage tried⟩
  | ok page => exact absurd unusable (readPage_eq_ok_iff.1 tried).1

theorem exists_page_of_usable (usable : ¬Unusable input) :
    ∃ page, readPage input = .ok page ∧ Json.decode Page.decoder input = .ok page := by
  cases tried : Json.decode Page.decoder input with
  | error refusal => exact absurd (.noPage refusal tried) usable
  | ok page => exact ⟨page, readPage_eq_ok_iff.2 ⟨usable, tried⟩, rfl⟩

/-! ## The whole command -/

theorem filter_of_unread (limited : limitOf limit = .ok taken)
    (unread : readPage input = .error fault) : filter filters limit input = .error fault := by
  rw [filter, limited, unread]
  rfl

/-- With a limit and a page, all that counts are the filters. -/
theorem filter_of_read (limited : limitOf limit = .ok taken) (read : readPage input = .ok page) :
    filter filters limit input =
      match FilterSet.ofParam (.single filters) with
      | .error rejection => .error (.rejected rejection)
      | .ok clauses => .ok ((clauses.apply page taken).print ++ "\n") := by
  rw [filter, limited, read]
  simp only [filterPage]
  cases FilterSet.ofParam (.single filters) <;> rfl

/-- The command fails: it writes nothing, and it says why. -/
def Fails (filters : String) (limit : Option UInt64) (input : Bytes) (fault : Fault) : Prop :=
  ending filters limit input = ⟨"", fault.code ++ ": " ++ fault.message ++ "\n", 1⟩

/-- The command writes a document on a line of its own, and it says nothing. -/
def Writes (filters : String) (limit : Option UInt64) (input : Bytes) (document : String) : Prop :=
  Json.SingleLine document ∧ ending filters limit input = ⟨document ++ "\n", "", 0⟩

theorem fails_of_filter (failed : filter filters limit input = .error fault) :
    Fails filters limit input fault := by
  rw [Fails, ending, failed]
  rfl

theorem ending_of_filter {output : String} (ended : filter filters limit input = .ok output) :
    ending filters limit input = ⟨output, "", 0⟩ := by
  rw [ending, ended]

theorem writes_of_filter (ended : filter filters limit input = .ok (page.print ++ "\n")) :
    Writes filters limit input page.print :=
  ⟨page.singleLine_print, ending_of_filter ended⟩

/-- The command writes all or nothing. The limit zero fails it whatever the input and the filters
are. With any other limit, or with none, an input without a page fails it whatever the filters are.
With a page in its input, it is failed by filters that are rejected, with the whole reason. In every
other case it writes one line, the document of the page that is left by the filters. -/
theorem filter_all_or_nothing (limit : Option UInt64) (input : Bytes) :
    (limit = some 0 → ∀ filters, ∃ fault, Fails filters limit input fault ∧
      fault.code = "FILTER_CLI_INVALID_INPUT" ∧ fault.message = "limit must be at least 1") ∧
    (limit ≠ some 0 → Unusable input →
      ∃ fault, (∀ filters, Fails filters limit input fault) ∧
        fault.code = "FILTER_CLI_IO_ERROR") ∧
    (limit ≠ some 0 → ¬Unusable input →
      ∃ page taken, Json.decode Page.decoder input = .ok page ∧
        taken.value = limit.getD 150 ∧
        ∀ filters,
          (∀ rejection, FilterSet.ofParam (.single filters) = .error rejection →
            ∃ fault, Fails filters limit input fault ∧
              fault.code = "FILTER_CLI_INVALID_INPUT" ∧ fault.message = rejection.detail) ∧
          ∀ clauses, FilterSet.ofParam (.single filters) = .ok clauses →
            Writes filters limit input (clauses.apply page taken).print) := by
  refine ⟨?_, fun positive unusable => ?_, fun positive usable => ?_⟩
  · rintro rfl filters
    exact ⟨.zeroLimit, fails_of_filter rfl, rfl, rfl⟩
  · obtain ⟨taken, limited, -⟩ := exists_limitOf positive
    obtain ⟨fault, unread, code⟩ := exists_fault_of_unusable unusable
    exact ⟨fault, fun filters => fails_of_filter (filter_of_unread limited unread), code⟩
  · obtain ⟨taken, limited, value⟩ := exists_limitOf positive
    obtain ⟨page, read, decoded⟩ := exists_page_of_usable usable
    refine ⟨page, taken, decoded, value, fun filters => ?_⟩
    have filtered : filter filters limit input = _ := filter_of_read limited read
    refine ⟨fun rejection rejects => ?_, fun clauses accepts => ?_⟩
    · rw [rejects] at filtered
      exact ⟨.rejected rejection, fails_of_filter filtered, rfl, rfl⟩
    · rw [accepts] at filtered
      exact writes_of_filter filtered

/-- Bytes that are no text are at fault only if the limit is not. Of a page, what is written is on
one line, though there are line breaks in a name and in a text, and between the parts of the input;
and nothing is written of it if the filters are rejected. -/
theorem filter_all_or_nothing_of_breaks :
    let text := "[\n[\x7b\"a\\nb\":\"\\n\"\x7d], 1, 1]\n"
    let page : Page := ⟨[⟨[], [("a\nb", .text "\n")]⟩], 1, 1⟩
    (∃ fault, Fails "[]" (some 0) [0xFF] fault ∧ fault.code = "FILTER_CLI_INVALID_INPUT") ∧
      (∃ fault, Fails "[1]" none [0xFF] fault ∧ fault.code = "FILTER_CLI_IO_ERROR") ∧
      (∃ fault, Fails "[1]" none (Text.bytes text) fault ∧
        fault.message = "clause 0: clause must be an object") ∧
      Writes "[]" none (Text.bytes text) page.print ∧
      page.print = "\x7b\"responses\":[\x7b\"questions\":[],\"a\\nb\":\"\\n\"\x7d]," ++
        "\"totalResponses\":1,\"pageCount\":1\x7d" := by
  intro text page
  obtain ⟨zero, -, -⟩ := filter_all_or_nothing (some 0) [0xFF]
  obtain ⟨-, unread, -⟩ := filter_all_or_nothing none [0xFF]
  obtain ⟨-, -, read⟩ := filter_all_or_nothing none (Text.bytes text)
  have noText : Unusable [0xFF] := .noText fun text same =>
    nomatch (Text.ofBytes?_bytes text).symm.trans (congrArg Text.ofBytes? same)
  have given : readPage (Text.bytes text) = .ok page := by
    unfold text page
    rw [readPage, Text.ofBytes?_bytes]
    rfl
  obtain ⟨usable, decoded⟩ := readPage_eq_ok_iff.1 given
  obtain ⟨fault, fails, code, -⟩ := zero rfl "[]"
  obtain ⟨fault', fails', code'⟩ := unread nofun noText
  obtain ⟨page', ⟨_, positive⟩, decoded', rfl, filtered⟩ := read nofun usable
  obtain rfl := Except.ok.inj (decoded.symm.trans decoded')
  obtain ⟨fault'', fails'', -, message⟩ :=
    (filtered "[1]").1 (.invalidClause 0 .notAnObject) rfl
  have kept : FilterSet.apply [] page .standard = page := by
    unfold page
    rfl
  have writes : Writes "[]" none (Text.bytes text) (FilterSet.apply [] page .standard).print :=
    (filtered "[]").2 [] rfl
  rw [kept] at writes
  exact ⟨⟨fault, fails, code⟩, ⟨fault', fails' _, code'⟩,
    ⟨fault'', fails'', message.trans (by decide)⟩, writes, by decide⟩

end Cli

end FormSieve
