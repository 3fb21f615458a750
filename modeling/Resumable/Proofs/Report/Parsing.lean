import Resumable.Proofs.Grammar.Language
import Resumable.Proofs.Parser.Accepted
import Resumable.Report.Compile

/-!
# Parsing a text

A text that can be scanned is parsed exactly if its tokens are a sentence of the
grammar. A sentence has one derivation, and the result of parsing is its meaning.
-/

namespace Resumable.Parser

open Grammar

theorem yield_eq_of_accepted {scan : Token.Scan} {derivation : Derivation (.nonterminal .unit)}
    (h : parse scan = .accepted derivation) : derivation.yield = scan.tokens :=
  run_accepted .nil h

/-- The parser accepts just the derivations of the tokens of a text. -/
theorem parse_eq_accepted_iff {scan : Token.Scan} {last : Source.Spot}
    (hscan : scan.ending = .finished last) {derivation : Derivation (.nonterminal .unit)} :
    parse scan = .accepted derivation ↔ derivation.yield = scan.tokens := by
  obtain ⟨tokens, ending⟩ := scan
  subst hscan
  constructor
  · intro h
    exact yield_eq_of_accepted h
  · rintro rfl
    exact parse_yield derivation last

end Resumable.Parser

namespace Resumable.Report

open Grammar
open Source (SourceUnit)

theorem map_const_ne_ok (filed : Except Fault Unit) (unit : SourceUnit) :
    (filed.map fun _ => none) ≠ .ok (some unit) := by
  cases filed <;> simp [Except.map]

/-- The result of parsing a text is the meaning of what the parser accepts. -/
theorem parse_eq_ok_iff {report : Report} {text : String} {unit : SourceUnit} :
    (report.parse text).2 = .ok (some unit) ↔
      ∃ derivation, Parser.parse (Token.scan text) = .accepted derivation ∧
        derivation.meaning = unit := by
  rw [parse]
  cases Parser.parse (Token.scan text) with
  | accepted derivation =>
    constructor
    · intro h
      cases h
      exact ⟨derivation, rfl, rfl⟩
    · rintro ⟨found, hfound, rfl⟩
      cases hfound
      rfl
  | stray character spot => simp [strayCharacter, map_const_ne_ok]
  | confused symbols next spot => simp [parseError, map_const_ne_ok]

/-- A text that is parsed leaves the report as it is, but for the text. -/
theorem parse_report_eq {report : Report} {text : String} {unit : SourceUnit}
    (h : (report.parse text).2 = .ok (some unit)) :
    (report.parse text).1 = report.bindSource text := by
  obtain ⟨derivation, hparse, -⟩ := parse_eq_ok_iff.1 h
  simp only [parse, hparse]

/-! ## Numerals that cannot be read -/

section Within

variable {limit : Text.DigitLimit} {report : Report} {text : String}

/-- Where all tokens can be read, the limit makes no difference. -/
theorem parseWithin_eq_parse
    (h : ∀ token ∈ (Token.scan text).tokens, token.unreadable? limit = none) :
    report.parseWithin limit text = report.parse text := by
  have hnone : (Token.scan text).tokens.findSome?
      (fun token => (token.unreadable? limit).map (token, ·)) = none := by
    rw [List.findSome?_eq_none_iff]
    intro token htoken
    rw [h token htoken, Option.map_none]
  simp only [parseWithin, hnone]

/-- Without a limit every token can be read. -/
theorem parseWithin_none (report : Report) (text : String) :
    report.parseWithin none text = report.parse text := by
  refine parseWithin_eq_parse fun token _ => ?_
  unfold Token.unreadable?
  split
  · split <;> rfl
  · rfl

/-- A token that cannot be read ends the parsing if the parser comes to it. -/
theorem parseWithin_cases (limit : Text.DigitLimit) (report : Report) (text : String) :
    report.parseWithin limit text = report.parse text ∨
      ∃ token ∈ (Token.scan text).tokens, ∃ overlong, token.unreadable? limit = some overlong ∧
        report.parseWithin limit text = (report.bindSource text, .error (.overlong overlong)) := by
  rw [parseWithin]
  split
  · next token overlong hfirst =>
    split
    · refine .inr ?_
      obtain ⟨found, hmem, hfound⟩ := List.exists_of_findSome?_eq_some hfirst
      obtain ⟨_, hunreadable, hpair⟩ := Option.map_eq_some_iff.1 hfound
      cases hpair
      exact ⟨token, hmem, overlong, hunreadable, rfl⟩
    · exact .inl rfl
  · exact .inl rfl

/-- A text is parsed within a limit if it is parsed without one and all its tokens can be
read. -/
theorem parseWithin_eq_ok_iff {unit : SourceUnit} :
    (report.parseWithin limit text).2 = .ok (some unit) ↔
      (report.parse text).2 = .ok (some unit) ∧
        ∀ token ∈ (Token.scan text).tokens, token.unreadable? limit = none := by
  constructor
  · intro h
    rw [parseWithin] at h
    split at h
    · next token overlong hfirst =>
      split at h
      · cases h
      · -- a parser that accepts has come to every token
        next hreached =>
        obtain ⟨derivation, hparse, -⟩ := parse_eq_ok_iff.1 h
        rw [hparse] at hreached
        exact absurd rfl hreached
    · next hnone =>
      refine ⟨h, fun token htoken => ?_⟩
      exact Option.map_eq_none_iff.1 (List.findSome?_eq_none_iff.1 hnone token htoken)
  · rintro ⟨h, hread⟩
    rwa [parseWithin_eq_parse hread]

end Within

/-! ## Sentences -/

/-- A text that can be scanned is parsed exactly if its tokens are a sentence. The
grammar is unambiguous, and the result of parsing is the meaning of the one
derivation of the tokens. -/
theorem parse_iff_sentence (report : Report) (text : String) {last : Source.Spot}
    (hscan : (Token.scan text).ending = .finished last) :
    ((∃ unit, (report.parse text).2 = .ok (some unit)) ↔
      Sentence ((Token.scan text).tokens.map (·.kind))) ∧
    (∀ derivation derivation' : Derivation (.nonterminal .unit),
      derivation.yield = derivation'.yield → derivation = derivation') ∧
    ∀ unit, (report.parse text).2 = .ok (some unit) ↔
      ∃ derivation : Derivation (.nonterminal .unit),
        derivation.yield = (Token.scan text).tokens ∧ derivation.meaning = unit := by
  have hunit : ∀ unit, (report.parse text).2 = .ok (some unit) ↔
      ∃ derivation : Derivation (.nonterminal .unit),
        derivation.yield = (Token.scan text).tokens ∧ derivation.meaning = unit := by
    intro unit
    simp only [parse_eq_ok_iff, Parser.parse_eq_accepted_iff hscan]
  refine ⟨?_, fun _ _ => Parser.yield_injective, hunit⟩
  rw [sentence_iff_exists_yield]
  constructor
  · rintro ⟨unit, h⟩
    obtain ⟨derivation, hyield, -⟩ := (hunit unit).1 h
    exact ⟨derivation, hyield⟩
  · rintro ⟨derivation, hyield⟩
    exact ⟨derivation.meaning, (hunit _).2 ⟨derivation, hyield, rfl⟩⟩

/-- The derivation of a text that declares one variable. -/
def variableDerivation : Derivation (.nonterminal .unit) :=
  .apply .unitOf (.cons (.apply .moreDeclarations (.cons (.apply .noDeclarations .nil) (.cons
    (.apply .topLevelVariables (.cons (.token ⟨.kwVar, ['v', 'a', 'r'], ⟨0, 3⟩⟩) (.cons
      (.apply .firstBinding (.cons (.apply .plainBinding
        (.cons (.token ⟨.name, ['x'], ⟨4, 5⟩⟩) .nil)) .nil))
      (.cons (.token ⟨.semicolon, [';'], ⟨5, 6⟩⟩) .nil)))) .nil))) .nil)

theorem parse_variable :
    (Token.scan "var x;").ending = .finished ⟨5, 6⟩ ∧
      (({} : Report).parse "var x;").2 = .ok (some [.bindings ⟨"var", some ⟨0, 3⟩⟩
        [⟨⟨"x", some ⟨4, 5⟩⟩, none⟩]]) := by
  have hscan : (Token.scan "var x;").ending = .finished ⟨5, 6⟩ := by decide +kernel
  have htokens : variableDerivation.yield = (Token.scan "var x;").tokens := by decide +kernel
  exact ⟨hscan, ((parse_iff_sentence {} "var x;" hscan).2.2 _).2 ⟨variableDerivation, htokens, rfl⟩⟩

end Resumable.Report
