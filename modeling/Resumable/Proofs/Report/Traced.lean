import Resumable.Proofs.Grammar.Leaves
import Resumable.Proofs.Grammar.Placed
import Resumable.Proofs.Report.Parsing
import Resumable.Proofs.Token.Spelling

/-!
# From what is parsed back to the tokens

What a text is parsed to can be traced back to its tokens. The names and literals in it
are those among the tokens, none lost or added or moved. And where a declaration in it is
refused, the phrase to blame is at a token.
-/

namespace Resumable.Report

open Canon
open Grammar
open Source (Declaration Leaf SourceUnit)

variable {report : Report} {text : String} {unit : SourceUnit}

theorem token_within {token : Token} (h : token ∈ (Token.scan text).tokens) :
    token.spot.start < token.spot.stop ∧ token.spot.stop ≤ text.length := by
  obtain ⟨-, pattern, hmunched, -⟩ := Token.genuine_of_mem_scan h
  exact ⟨hmunched.start_lt, String.length_toList ▸ hmunched.1⟩

theorem parse_placed (h : (report.parse text).2 = .ok (some unit)) :
    ∀ declaration ∈ unit, DeclarationPlaced (Token.scan text).tokens declaration := by
  obtain ⟨derivation, hparse, rfl⟩ := parse_eq_ok_iff.1 h
  have hyield := Parser.yield_eq_of_accepted hparse
  exact symbolPlaced_meaning derivation fun token htoken => hyield ▸ htoken

/-- A text with one function: it has a type, and its body is a call with a literal of each
kind. -/
def arrowFunctionText : String :=
  "T f(a)=>g(\x27s\x27,0x1F);"

/-- The derivation of the text. -/
def arrowFunctionDerivation : Derivation (.nonterminal .unit) :=
  .apply .unitOf (.cons (.apply .moreDeclarations (.cons (.apply .noDeclarations .nil) (.cons
    (.apply .functionItself (.cons (.apply .typedFunction
      (.cons (.token ⟨.name, ['T'], ⟨0, 1⟩⟩) (.cons (.token ⟨.name, ['f'], ⟨2, 3⟩⟩)
      (.cons (.apply .formals (.cons (.token ⟨.parenL, ['('], ⟨3, 4⟩⟩)
        (.cons (.apply .requiredOnly (.cons (.apply .firstParameter (.cons
          (.apply .untypedParameter (.cons (.token ⟨.name, ['a'], ⟨4, 5⟩⟩) .nil)) .nil)) .nil))
        (.cons (.token ⟨.parenR, [')'], ⟨5, 6⟩⟩) .nil))))
      (.cons (.apply .arrowBody (.cons (.token ⟨.arrow, ['=', '>'], ⟨6, 8⟩⟩)
        (.cons (.apply .plainOperand (.cons (.apply .call
          (.cons (.token ⟨.name, ['g'], ⟨8, 9⟩⟩)
          (.cons (.apply .arguments (.cons (.token ⟨.parenL, ['('], ⟨9, 10⟩⟩)
            (.cons (.apply .someArguments (.cons (.apply .moreExpressions
              (.cons (.apply .firstExpression (.cons (.apply .plainOperand (.cons
                (.apply .plainPrimary (.cons (.apply .string
                  (.cons (.token ⟨.shortString, ['\x27', 's', '\x27'], ⟨10, 13⟩⟩) .nil))
                .nil)) .nil)) .nil))
              (.cons (.token ⟨.comma, [','], ⟨13, 14⟩⟩)
              (.cons (.apply .plainOperand (.cons (.apply .plainPrimary (.cons (.apply .integer
                (.cons (.token ⟨.integer, ['0', 'x', '1', 'F'], ⟨14, 18⟩⟩) .nil)) .nil)) .nil))
              .nil)))) .nil))
            (.cons (.token ⟨.parenR, [')'], ⟨18, 19⟩⟩) .nil)))) .nil))) .nil))
        (.cons (.token ⟨.semicolon, [';'], ⟨19, 20⟩⟩) .nil)))) .nil))))) .nil)) .nil))) .nil)

theorem parse_arrowFunction (report : Report) :
    (report.parse arrowFunctionText).2 = .ok (some arrowFunctionDerivation.meaning) := by
  have hscan : (Token.scan arrowFunctionText).ending = .finished ⟨19, 20⟩ := by decide +kernel
  have hyield : arrowFunctionDerivation.yield = (Token.scan arrowFunctionText).tokens := by
    decide +kernel
  exact parse_eq_ok_iff.2
    ⟨arrowFunctionDerivation, (Parser.parse_eq_accepted_iff hscan).2 hyield, rfl⟩

/-! ## Names and literals -/

theorem leaves_of_accepted {derivation : Derivation (.nonterminal .unit)}
    (h : Parser.parse (Token.scan text) = .accepted derivation) :
    derivation.meaning.flatMap Declaration.leaves =
      (Token.scan text).tokens.filterMap Token.leaf? := by
  rw [← Parser.yield_eq_of_accepted h]
  exact derivation.leaves_meaning

/-- The leaves of what a text is parsed to, as they are written from left to right, are the
names and literals among its tokens. -/
theorem leaves_parse (h : (report.parse text).2 = .ok (some unit)) :
    unit.flatMap Declaration.leaves = (Token.scan text).tokens.filterMap Token.leaf? := by
  obtain ⟨derivation, hparse, rfl⟩ := parse_eq_ok_iff.1 h
  exact leaves_of_accepted hparse

theorem leaves_parse_arrowFunction :
    (Token.scan arrowFunctionText).tokens.filterMap Token.leaf? =
      [.name ⟨"T", some ⟨0, 1⟩⟩, .name ⟨"f", some ⟨2, 3⟩⟩, .name ⟨"a", some ⟨4, 5⟩⟩,
        .name ⟨"g", some ⟨8, 9⟩⟩, .string "s" (some ⟨10, 13⟩), .integer 31 (some ⟨14, 18⟩)] := by
  rw [← leaves_parse (parse_arrowFunction {})]
  decide +kernel

/-! ## Refused declarations -/

/-- Where a declaration in a text is refused, by its name or by its marker, the phrase to
blame has a head, which is the spot of a token of the text. The refusal tells the name of
a function. -/
theorem refused_at_token {classify : Classifier} {declaration : Declaration} {refusal : Refusal}
    (hclassify : classify = .byName ∨ classify = .byModifier)
    (hparse : (report.parse text).2 = .ok (some unit)) (hmem : declaration ∈ unit)
    (hrefused : canonDeclaration classify declaration = .error (.refused refusal)) :
    (∃ token ∈ (Token.scan text).tokens, refusal.spot = .ok (some token.spot) ∧
      token.spot.start < token.spot.stop ∧ token.spot.stop ≤ text.length) ∧
    (∀ function, declaration = .function function →
      ∃ name, function.name = some name ∧ refusal.within = some name.text) ∧
    ∀ keyword bindings, declaration = .bindings keyword bindings → refusal.within = none := by
  have hplaced := parse_placed hparse declaration hmem
  obtain ⟨hviolation, hwithin⟩ := mem_declarationViolations hrefused
  refine ⟨?_, ?_, ?_⟩
  · have hguilty : Placed (Token.scan text).tokens refusal.violation.guilty := by
      rcases hclassify with rfl | rfl
      · exact hplaced.byName _ hviolation
      · exact hplaced.byModifier _ hviolation
    obtain ⟨token, htoken, hhead⟩ := hguilty
    exact ⟨token, htoken, hhead, token_within htoken⟩
  · rintro function rfl
    obtain ⟨name, hname⟩ := hplaced.named function rfl
    exact ⟨name, hname, by rw [hwithin, declaredName, hname, Option.map_some]⟩
  · rintro keyword bindings rfl
    exact hwithin

/-- The body of the function is blamed, at the first token of its value. -/
theorem refused_at_token_arrowFunction :
    ∃ declaration refusal, arrowFunctionDerivation.meaning = [declaration] ∧
      canonDeclaration .byModifier declaration = .error (.refused refusal) ∧
      refusal.within = some "f" ∧ refusal.spot = .ok (some ⟨8, 9⟩) ∧
      ∃ token ∈ (Token.scan arrowFunctionText).tokens, token.spot = ⟨8, 9⟩ := by
  refine ⟨_, _, rfl, rfl, rfl, rfl, ?_⟩
  obtain ⟨⟨token, htoken, hspot, -⟩, -⟩ :=
    refused_at_token (.inr rfl) (parse_arrowFunction {}) List.mem_cons_self rfl
  exact ⟨token, htoken, (Option.some.inj (Except.ok.inj hspot)).symm⟩

end Resumable.Report
