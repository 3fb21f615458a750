import Resumable.Proofs.Parser.Refused
import Resumable.Proofs.Report.Parsing

/-!
# The issue about a text that is not parsed

A text that is not parsed has one issue. It is about a stray character if all
tokens before that can be extended to a sentence, and else about the first token
with which this is not so, or about the end of the text.
-/

namespace Resumable.Report

open Grammar
open Source (Spot)

/-- The issue about a stray character of a text. -/
def strayIssue (text : String) (character : Char) (spot : Spot) : Issue :=
  ⟨"The character " ++ Text.quote character.toString ++ " does not belong in this language.",
    some (illustrate text spot ""), []⟩

/-- The issue about a token, or the end, of a text that fits nothing. -/
def confusedIssue (text : String) (next : Parser.Next) (spot : Spot) (hint : String) : Issue :=
  ⟨"The parser got confused by " ++ nextText next ++ ".",
    some (illustrate text spot "confused here"), [hint]⟩

theorem strayIssue_ne_confusedIssue {text : String} {character : Char} {spot spot' : Spot}
    {next : Parser.Next} {hint : String} :
    strayIssue text character spot ≠ confusedIssue text next spot' hint := by
  intro h
  have hfooter : ([] : List String) = [hint] := congrArg Issue.footer h
  cases hfooter

/-- A stray character stands after tokens that can be extended to a sentence. -/
def StrayMet (scan : Token.Scan) (character : Char) (spot : Spot) : Prop :=
  scan.ending = .stray character spot ∧ Extensible (scan.tokens.map (·.kind))

/-- Tokens with an unexpected one among them cannot be extended. -/
theorem not_strayMet_of_unexpected {scan : Token.Scan} {next : Parser.Next} {spot : Spot}
    (h : Parser.Unexpected scan.tokens scan.ending spot next) (character : Char) (spot' : Spot) :
    ¬ StrayMet scan character spot' := by
  rintro ⟨hending, hextensible⟩
  cases next with
  | none =>
    rw [h.1] at hending
    cases hending
  | some kind =>
    obtain ⟨before, token, after, htokens, -, -, -, hunexpected⟩ := h
    rw [htokens, List.append_cons, List.map_append] at hextensible
    exact hunexpected hextensible.of_append

/-- What is filed when a text is not parsed. -/
theorem parse_issue {text : String} (h : ∀ unit, (({} : Report).parse text).2 ≠ .ok (some unit)) :
    (({} : Report).parse text).2 = .ok none ∧
    ((∃ character spot, StrayMet (Token.scan text) character spot ∧
        (({} : Report).parse text).1.issues = [strayIssue text character spot]) ∨
      ∃ next spot hint, Parser.Unexpected (Token.scan text).tokens (Token.scan text).ending spot next ∧
        (({} : Report).parse text).1.issues = [confusedIssue text next spot hint]) := by
  have hverdict := Parser.parse_verdict (Token.scan text)
  rw [parse] at h ⊢
  cases hparse : Parser.parse (Token.scan text) with
  | accepted derivation =>
    simp only [hparse] at h
    exact absurd rfl (h derivation.meaning)
  | stray character spot =>
    rw [hparse] at hverdict
    exact ⟨rfl, .inl ⟨character, spot, hverdict, rfl⟩⟩
  | confused symbols next spot =>
    rw [hparse] at hverdict
    exact ⟨rfl, .inr ⟨next, spot, _, hverdict, rfl⟩⟩

/-- A text that is not parsed has exactly one issue. It is about a stray character
exactly if one is met after tokens that can be extended to a sentence, and then
about that character. Otherwise it is about the first token with which the tokens
cannot be extended, or about the end of tokens that are no sentence. -/
theorem parse_earliest_issue (text : String)
    (h : ∀ unit, (({} : Report).parse text).2 ≠ .ok (some unit)) :
    (({} : Report).parse text).2 = .ok none ∧
    ∃ issue, (({} : Report).parse text).1.issues = [issue] ∧
      ((∃ character spot, issue = strayIssue text character spot) ↔
        ∃ character spot, StrayMet (Token.scan text) character spot) ∧
      (∀ character spot, StrayMet (Token.scan text) character spot →
        issue = strayIssue text character spot) ∧
      ((¬ ∃ character spot, StrayMet (Token.scan text) character spot) →
        ∃ next spot hint,
          Parser.Unexpected (Token.scan text).tokens (Token.scan text).ending spot next ∧
            issue = confusedIssue text next spot hint) := by
  obtain ⟨hnone, ⟨character, spot, hmet, hissues⟩ | ⟨next, spot, hint, hunexpected, hissues⟩⟩ :=
    parse_issue h
  · refine ⟨hnone, _, hissues, ?_, ?_, ?_⟩
    · exact iff_of_true ⟨character, spot, rfl⟩ ⟨character, spot, hmet⟩
    · intro character' spot' hmet'
      have hsame := hmet.1.symm.trans hmet'.1
      cases hsame
      rfl
    · intro hnever
      exact absurd ⟨character, spot, hmet⟩ hnever
  · have hnever := not_strayMet_of_unexpected hunexpected
    refine ⟨hnone, _, hissues, ?_, ?_, fun _ => ⟨next, spot, hint, hunexpected, rfl⟩⟩
    · refine iff_of_false ?_ ?_
      · rintro ⟨character, spot', hstray⟩
        exact strayIssue_ne_confusedIssue hstray.symm
      · rintro ⟨character, spot', hmet⟩
        exact hnever character spot' hmet
    · intro character spot' hmet
      exact absurd hmet (hnever character spot')

/-- A text begins with a name or with `var`. -/
theorem kind_of_yield_cons {derivation : Derivation (.nonterminal .unit)} {token : Token}
    {tokens : List Token} (h : derivation.yield = token :: tokens) :
    token.kind = .name ∨ token.kind = .kwVar := by
  have hcovers := (Parser.openings_covers derivation rfl).mono
    (Parser.openings_le Parser.ofSymbols_le_begins .unit)
  rw [h] at hcovers
  have hbegins : ∀ kind ∈ Terminal.all, (Parser.begins .unit).first.contains (some kind) = true →
      kind = .name ∨ kind = .kwVar := by decide +kernel
  exact hbegins token.kind token.kind.mem_all hcovers

/-- The semicolon comes before the stray character, and is what is reported. -/
theorem parse_earliest_issue_semicolon :
    (∀ unit, (({} : Report).parse ";#").2 ≠ .ok (some unit)) ∧
      ∃ hint, (({} : Report).parse ";#").1.issues =
        [confusedIssue ";#" (some .semicolon) ⟨0, 1⟩ hint] := by
  have hscan : Token.scan ";#" = ⟨[⟨.semicolon, [';'], ⟨0, 1⟩⟩], .stray '#' ⟨1, 2⟩⟩ := by
    decide +kernel
  have hunit : ∀ unit, (({} : Report).parse ";#").2 ≠ .ok (some unit) := by
    intro unit hparse
    obtain ⟨derivation, haccepted, -⟩ := parse_eq_ok_iff.1 hparse
    rw [hscan] at haccepted
    have hkind := kind_of_yield_cons (Parser.run_accepted .nil haccepted)
    simp at hkind
  obtain ⟨-, issue, hissues, -, -, hconfused⟩ := parse_earliest_issue ";#" hunit
  rw [hscan] at hconfused
  have hnever : ¬ ∃ character spot,
      StrayMet ⟨[⟨.semicolon, [';'], ⟨0, 1⟩⟩], .stray '#' ⟨1, 2⟩⟩ character spot := by
    rintro ⟨character, spot, -, hextensible⟩
    obtain ⟨derivation, more, hyield⟩ := extensible_iff_exists_yield.1 hextensible
    have hkind := kind_of_yield_cons hyield
    simp at hkind
  obtain ⟨next, spot, hint, hunexpected, rfl⟩ := hconfused hnever
  cases next with
  | none => cases hunexpected.1
  | some kind =>
    obtain ⟨before, token, after, htokens, rfl, rfl, -, -⟩ := hunexpected
    cases before with
    | nil =>
      cases htokens
      exact ⟨hunit, hint, hissues⟩
    | cons first before => simp at htokens

end Resumable.Report
