import Resumable.Proofs.Canon.Within
import Resumable.Proofs.Report.Expressed
import Resumable.Proofs.Report.Traced
import Resumable.Proofs.Token.Numerals

/-!
# Compiling within a limit on digits

A text whose numerals are all short enough is compiled as if there were no limit. Any other text
has no result: the work ends at a numeral that is too long, or fails before it comes to one, as
it would without a limit.
-/

namespace Resumable.Report

open Canon (Classifier Procedure Unshown canonDeclaration canonDeclarationWithin)
open Source (Declaration Leaf SourceUnit)
open Text (DigitLimit)
open Token (integerTexts scan)

variable {limit : DigitLimit} {classify : Classifier} {keepGoing : Bool} {text : String}
  {report : Report} {unit : SourceUnit}

/-! ## Declarations -/

/-- Declarations are canonicalized as without a limit, unless an integer in one of them is too
long. -/
theorem canonicalizeWithin_cases (limit : DigitLimit) (classify : Classifier) (keepGoing : Bool)
    (unit : SourceUnit) (report : Report) :
    canonicalizeWithin limit classify keepGoing unit report =
        canonicalize classify keepGoing unit report ∨
      (∃ declaration ∈ unit, Unshown limit declaration.leaves) ∧
        ∃ overlong, (canonicalizeWithin limit classify keepGoing unit report).2 =
          .error (.overlong overlong) := by
  induction unit generalizing report with
  | nil => exact .inl rfl
  | cons declaration unit ih =>
    rcases Canon.canonDeclarationWithin_cases limit classify declaration with
      ⟨hsame, -⟩ | ⟨hunshown, overlong, hcut⟩
    · -- whether the work goes on after this declaration does not depend on the limit
      rw [canonDeclaration] at hsame
      simp only [canonicalize, canonicalizeWithin, hsame, List.exists_mem_cons_iff] at ih ⊢
      cases canonDeclarationWithin none classify declaration with
      | ok procedure =>
        rcases ih (report.info ["Canonicalized", procedure.name]) with
          hrest | ⟨hunshown, overlong, hrest⟩
        · exact .inl (by simp only [hrest])
        · exact .inr ⟨.inr hunshown, overlong, by simp only [hrest, Except.map]⟩
      | error failure =>
        cases failure with
        | misshapen fault | overlong overlong => exact .inl rfl
        | refused refusal =>
          dsimp only
          obtain ⟨filed, _ | _⟩ := report.refuse refusal
          · exact .inl rfl
          · cases keepGoing with
            | false => exact .inl rfl
            | true =>
              rcases ih filed with hrest | ⟨hunshown, overlong, hrest⟩
              · exact .inl (by simp only [hrest])
              · exact .inr ⟨.inr hunshown, overlong, by simp only [if_true, hrest, Except.map]⟩
    · exact .inr ⟨⟨declaration, List.mem_cons_self, hunshown⟩, overlong,
        by simp only [canonicalizeWithin, hcut]⟩

theorem map_canonDeclarationWithin_eq_ok {procedures : List Procedure} :
    unit.map (canonDeclarationWithin limit classify) = procedures.map .ok ↔
      unit.map (canonDeclaration classify) = procedures.map .ok ∧
        ∀ declaration ∈ unit, ¬Unshown limit declaration.leaves := by
  induction unit generalizing procedures with
  | nil => simp
  | cons declaration unit ih =>
    cases procedures with
    | nil => simp
    | cons procedure procedures =>
      simp only [List.map_cons, List.cons.injEq, ih, Canon.canonDeclarationWithin_eq_ok_iff,
        List.forall_mem_cons]
      tauto

/-! ## Texts -/

/-- Each numeral of a text is converted within the limit. -/
def NumeralsWithin (limit : DigitLimit) (text : String) : Prop :=
  ∀ numeral ∈ integerTexts (scan text).tokens, Token.Short limit numeral

theorem numeralsWithin_iff_converted :
    NumeralsWithin limit text ↔ ∀ token ∈ (scan text).tokens, token.kind = .integer →
      ∃ atom, token.converted limit = .ok atom := by
  simp only [NumeralsWithin, integerTexts, List.forall_mem_map, List.mem_filter,
    decide_eq_true_eq, and_imp]
  refine forall₃_congr fun token htoken hkind => ?_
  obtain ⟨value, hdenotes⟩ := (Token.genuine_of_mem_scan htoken).exists_denotes hkind
  exact hdenotes.short_iff hkind

theorem NumeralsWithin.readable (h : NumeralsWithin limit text) {token : Token}
    (htoken : token ∈ (scan text).tokens) : token.unreadable? limit = none := by
  by_cases hkind : token.kind = .integer
  · obtain ⟨atom, hconverted⟩ := numeralsWithin_iff_converted.1 h token htoken hkind
    exact (Token.converted_eq_ok_iff.1 hconverted).1
  · exact Token.unreadable?_of_ne hkind

/-- An integer among the leaves of tokens is one of the tokens. -/
theorem exists_token_of_integer {tokens : List Token} {value : Int} {spot : Option Source.Spot}
    (h : Leaf.integer value spot ∈ tokens.filterMap Token.leaf?) :
    ∃ token ∈ tokens, token.kind = .integer ∧ value = Token.number token.text := by
  obtain ⟨token, htoken, hleaf⟩ := List.mem_filterMap.1 h
  obtain ⟨kind, text, place⟩ := token
  cases kind with
  | integer =>
    cases hleaf
    exact ⟨_, htoken, rfl, rfl⟩
  | _ => cases hleaf

/-- The numerals of a text that is parsed are within the limit if all tokens can be read and all
integers can be shown. -/
theorem numeralsWithin_iff (hunit : (report.parse text).2 = .ok (some unit)) :
    NumeralsWithin limit text ↔
      (∀ token ∈ (scan text).tokens, token.unreadable? limit = none) ∧
        ∀ declaration ∈ unit, ¬Unshown limit declaration.leaves := by
  obtain ⟨derivation, hparse, rfl⟩ := parse_eq_ok_iff.1 hunit
  have hleaves := leaves_of_accepted hparse
  constructor
  · intro h
    refine ⟨fun token => h.readable, ?_⟩
    rintro declaration hmem ⟨value, spot, overlong, hleaf, hlong⟩
    obtain ⟨token, htoken, hkind, rfl⟩ :=
      exists_token_of_integer (hleaves ▸ List.mem_flatMap_of_mem hmem hleaf)
    obtain ⟨atom, hconverted⟩ := numeralsWithin_iff_converted.1 h token htoken hkind
    cases hlong.symm.trans (Token.converted_eq_ok_iff.1 hconverted).2
  · rintro ⟨hread, hshown⟩
    refine numeralsWithin_iff_converted.2 fun token htoken hkind => ?_
    cases hatom : limit.shown (Token.number token.text) with
    | ok atom => exact ⟨atom, Token.converted_eq_ok_iff.2 ⟨hread token htoken, hatom⟩⟩
    | error overlong =>
      -- the token is a leaf of some declaration, where it would be too long to be shown
      have hleaf : Leaf.integer (Token.number token.text) (some token.spot) ∈
          derivation.meaning.flatMap Declaration.leaves := by
        rw [hleaves]
        exact List.mem_filterMap.2 ⟨token, htoken, Token.leaf?_of_integer hkind⟩
      obtain ⟨declaration, hmem, hleaf⟩ := List.mem_flatMap.1 hleaf
      exact absurd ⟨_, _, overlong, hleaf, hatom⟩ (hshown declaration hmem)

/-- A text is compiled as without a limit, unless one of its numerals is too long. -/
theorem compileWithin_cases (limit : DigitLimit) (classify : Classifier) (keepGoing : Bool)
    (text : String) (report : Report) :
    compileWithin limit classify keepGoing text report = compile classify keepGoing text report ∨
      ¬NumeralsWithin limit text ∧
        ∃ overlong, (compileWithin limit classify keepGoing text report).2 =
          .error (.overlong overlong) := by
  -- the work is cut off by a token that is not read, or by an integer that is not shown
  rcases parseWithin_cases limit report text with hsame | ⟨token, htoken, overlong, hlong, hcut⟩
  · rw [compile, compileWithin, compileWithin, parseWithin_none, hsame]
    rcases hparse : report.parse text with ⟨parsed, fault | _ | unit⟩
    · exact .inl rfl
    · exact .inl rfl
    · have hunit : (report.parse text).2 = .ok (some unit) := by rw [hparse]
      refine (canonicalizeWithin_cases limit classify keepGoing unit parsed).imp_right ?_
      rintro ⟨⟨declaration, hmem, hunshown⟩, hcut⟩
      exact ⟨fun h => ((numeralsWithin_iff hunit).1 h).2 declaration hmem hunshown, hcut⟩
  · refine .inr ⟨fun hwithin => ?_, overlong, by rw [compileWithin, hcut]⟩
    cases (hwithin.readable htoken).symm.trans hlong

/-- Where all numerals are short enough, the limit makes no difference. -/
theorem NumeralsWithin.compileWithin_eq (h : NumeralsWithin limit text) :
    compileWithin limit classify keepGoing text report = compile classify keepGoing text report :=
  (compileWithin_cases limit classify keepGoing text report).resolve_right fun hcut => hcut.1 h

/-- A text is compiled within a limit if it is compiled without one and all its numerals are
short enough. -/
theorem compileWithin_eq_ok_iff_compile {procedures : List Procedure} :
    (compileWithin limit classify keepGoing text report).2 = .ok (some procedures) ↔
      NumeralsWithin limit text ∧
        (compile classify keepGoing text report).2 = .ok (some procedures) := by
  constructor
  · intro h
    obtain ⟨unit, hunit, hprocedures⟩ := compileWithin_eq_some_iff.1 h
    obtain ⟨hparse, hread⟩ := parseWithin_eq_ok_iff.1 hunit
    obtain ⟨hforms, hshown⟩ := map_canonDeclarationWithin_eq_ok.1 hprocedures
    exact ⟨(numeralsWithin_iff hparse).2 ⟨hread, hshown⟩,
      compile_eq_some_iff.2 ⟨unit, hparse, hforms⟩⟩
  · rintro ⟨hwithin, h⟩
    rwa [hwithin.compileWithin_eq]

end Resumable.Report
