import Resumable.Proofs.Grammar.Moved
import Resumable.Proofs.Report.ReadBack

/-!
# Spacing between tokens

Blanks and comments put in next to a token change neither whether a text is parsed nor
what it is compiled to. All that changes is where the tokens after them stand.
-/

namespace Resumable.Report

open Canon (Classifier Failure Procedure canonDeclaration)
open Grammar
open Source (Declaration SourceUnit Spot)
open Token (Filler fill makeRoom scan)

section Moved

variable {text other : String} {last last' : Spot} {move : Spot → Spot}

/-- A derivation of moved tokens is moved itself. -/
theorem exists_eq_moved {tokens : List Token} {derivation : Derivation (.nonterminal .unit)}
    (h : derivation.yield = tokens.map (Token.moved move)) :
    ∃ original : Derivation (.nonterminal .unit),
      original.yield = tokens ∧ derivation = original.moved move := by
  have hkinds : (tokens.map (Token.moved move)).map (·.kind) = tokens.map (·.kind) :=
    List.map_map
  -- the kinds alone decide whether there is a derivation, and there is at most one
  have hsentence : Sentence (tokens.map (·.kind)) :=
    hkinds ▸ sentence_iff_exists_yield.2 ⟨derivation, h⟩
  obtain ⟨original, horiginal⟩ := sentence_iff_exists_yield.1 hsentence
  refine ⟨original, horiginal, Parser.yield_injective ?_⟩
  rw [h, original.yield_moved, horiginal]

/-- A text with the same tokens in other places is parsed to what is there, moved. -/
theorem parse_eq_moved_iff (hscan : (scan text).ending = .finished last)
    (hother : scan other = ⟨(scan text).tokens.map (Token.moved move), .finished last'⟩)
    {report : Report} {unit : SourceUnit} :
    (report.parse other).2 = .ok (some unit) ↔
      ∃ original, (report.parse text).2 = .ok (some original) ∧
        unit = original.map (Declaration.moved move) := by
  have hending : (scan other).ending = .finished last' := by rw [hother]
  have htokens : (scan other).tokens = (scan text).tokens.map (Token.moved move) := by rw [hother]
  simp only [parse_eq_ok_iff, Parser.parse_eq_accepted_iff hscan,
    Parser.parse_eq_accepted_iff hending, htokens]
  constructor
  · rintro ⟨derivation, hyield, rfl⟩
    obtain ⟨original, horiginal, rfl⟩ := exists_eq_moved hyield
    exact ⟨original.meaning, ⟨original, horiginal, rfl⟩, original.meaning_moved move⟩
  · rintro ⟨_, ⟨original, horiginal, rfl⟩, rfl⟩
    exact ⟨original.moved move, by rw [original.yield_moved, horiginal],
      original.meaning_moved move⟩

theorem map_canonDeclaration_moved {classify : Classifier} (hclassify : classify.Placeless)
    {unit : SourceUnit} {procedures : List Procedure} :
    (unit.map (Declaration.moved move)).map (canonDeclaration classify) = procedures.map .ok ↔
      unit.map (canonDeclaration classify) = procedures.map .ok := by
  induction unit generalizing procedures with
  | nil => exact Iff.rfl
  | cons declaration unit ih =>
    have hfirst := Canon.canonDeclaration_moved move hclassify declaration
    cases procedures with
    | nil => simp
    | cons procedure procedures =>
      simp only [List.map_cons, List.cons.injEq, hfirst.eq_ok_iff, ih]

/-- A text with the same tokens in other places is compiled to the same procedures. -/
theorem compile_eq_moved_iff (hscan : (scan text).ending = .finished last)
    (hother : scan other = ⟨(scan text).tokens.map (Token.moved move), .finished last'⟩)
    {classify : Classifier} (hclassify : classify.Placeless) {report : Report} {keepGoing : Bool}
    {procedures : List Procedure} :
    (compile classify keepGoing other report).2 = .ok (some procedures) ↔
      (compile classify keepGoing text report).2 = .ok (some procedures) := by
  simp only [compile_eq_some_iff, parse_eq_moved_iff hscan hother]
  constructor
  · rintro ⟨_, ⟨unit, hunit, rfl⟩, hprocedures⟩
    exact ⟨unit, hunit, (map_canonDeclaration_moved hclassify).1 hprocedures⟩
  · rintro ⟨unit, hunit, hprocedures⟩
    exact ⟨_, ⟨unit, hunit, rfl⟩, (map_canonDeclaration_moved hclassify).2 hprocedures⟩

end Moved

/-- If blanks and comments are put in next to a token, the tokens after them are moved and
nothing else changes: the text is parsed if it was before, to the same declarations but
for their spots, and either classifier gives it the same canonical forms. -/
theorem spacing_irrelevant {text : String} {last : Spot}
    (hscan : (scan text).ending = .finished last) {token : Token}
    (hmem : token ∈ (scan text).tokens) {position : Nat}
    (hposition : position = token.spot.start ∨ position = token.spot.stop) {filler : List Char}
    (hfiller : Filler filler) (hne : filler ≠ []) :
    let filled := fill text position filler
    let move := makeRoom position filler.length
    (∃ last', scan filled = ⟨(scan text).tokens.map (Token.moved move), .finished last'⟩) ∧
    (∀ (report : Report) (unit : SourceUnit), (report.parse filled).2 = .ok (some unit) ↔
      ∃ original, (report.parse text).2 = .ok (some original) ∧
        unit = original.map (Declaration.moved move)) ∧
    ∀ classify : Classifier, classify = .byName ∨ classify = .byModifier →
      (∀ declaration, canonDeclaration classify (declaration.moved move) =
        (canonDeclaration classify declaration).mapError (Failure.moved move)) ∧
      ∀ (report : Report) (keepGoing : Bool) (procedures : List Procedure),
        (compile classify keepGoing filled report).2 = .ok (some procedures) ↔
          (compile classify keepGoing text report).2 = .ok (some procedures) := by
  intro filled move
  obtain ⟨last', hfilled⟩ := Token.scan_fill hscan hmem hposition hfiller hne
  refine ⟨⟨last', hfilled⟩, fun report unit => parse_eq_moved_iff hscan hfilled, ?_⟩
  intro classify hclassify
  have hplaceless : classify.Placeless := by
    rcases hclassify with rfl | rfl
    · exact Classifier.byName_placeless
    · exact Classifier.byModifier_placeless
  exact ⟨Canon.canonDeclaration_moved move hplaceless,
    fun report keepGoing procedures => compile_eq_moved_iff hscan hfilled hplaceless⟩

/-- A comment with quotation marks in it, between the two tokens of a marker. -/
theorem spacing_irrelevant_marked :
    let filler : List Char := ['/', '/', ' ', '\x27', ' ', '"', '\n']
    let text : String := "f_async()sync// \x27 \x22\n*\x7breturn 0x1F;\x7d"
    let procedure : Procedure :=
      ⟨.syncStar, "f_async", [], [], .block [.returning (.constant "31")]⟩
    fill markedFunctionText 13 filler = text ∧
      (compile .byModifier false text {}).2 = .ok (some [procedure]) := by
  intro filler text procedure
  have hfill : fill markedFunctionText 13 filler = text := by decide +kernel
  have hscan : (scan markedFunctionText).ending = .finished ⟨27, 28⟩ := by decide +kernel
  have hmem : ⟨.kwSync, ['s', 'y', 'n', 'c'], ⟨9, 13⟩⟩ ∈ (scan markedFunctionText).tokens := by
    decide +kernel
  have hline : ∀ c ∈ [' ', '\x27', ' ', '"'], c ≠ '\n' := by simp
  have hfiller : Filler filler := .comment hline .nil
  have hcompile : (compile .byModifier false markedFunctionText {}).2 = .ok (some [procedure]) :=
    compile_eq_some_iff.2 ⟨_, parse_markedFunction {}, rfl⟩
  have hspacing := spacing_irrelevant hscan hmem (.inr rfl) hfiller (List.cons_ne_nil _ _)
  rw [← hfill]
  exact ⟨rfl, ((hspacing.2.2 .byModifier (.inr rfl)).2 {} false [procedure]).2 hcompile⟩

end Resumable.Report
