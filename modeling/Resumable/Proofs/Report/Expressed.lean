import Resumable.Proofs.Canon.Writing
import Resumable.Proofs.Grammar.Sound
import Resumable.Proofs.Report.Accounting
import Resumable.Proofs.Report.Parsing

/-!
# What texts express

Compiling a text by the names of its functions gives trees that can be written,
and all of them: for any such trees there is a text that is compiled to them.
-/

namespace Resumable.Report

open Canon (Classifier Procedure WritableFunction canonDeclaration canonDeclarationWithin)
open Grammar (Expressible)
open Source (SourceUnit)

/-! ## Compiling -/

section Compile

variable {limit : Text.DigitLimit} {classify : Classifier} {keepGoing : Bool} {text : String}
  {report : Report} {procedures : List Procedure}

theorem compile_eq_of_parse {unit : SourceUnit} {parsed : Report}
    (h : report.parse text = (parsed, .ok (some unit))) :
    compile classify keepGoing text report = canonicalize classify keepGoing unit parsed := by
  rw [compile, compileWithin, parseWithin_none, h, canonicalize]

/-- A text is compiled if it is parsed and all its declarations have canonical forms. -/
theorem compileWithin_eq_some_iff :
    (compileWithin limit classify keepGoing text report).2 = .ok (some procedures) ↔
      ∃ unit, (report.parseWithin limit text).2 = .ok (some unit) ∧
        unit.map (canonDeclarationWithin limit classify) = procedures.map .ok := by
  rw [compileWithin]
  obtain ⟨parsed, result⟩ := report.parseWithin limit text
  match result with
  | .error fault => simp
  | .ok none => simp
  | .ok (some unit) => simp [canonicalizeWithin_eq_some_iff]

theorem compile_eq_some_iff :
    (compile classify keepGoing text report).2 = .ok (some procedures) ↔
      ∃ unit, (report.parse text).2 = .ok (some unit) ∧
        unit.map (canonDeclaration classify) = procedures.map .ok := by
  rw [← parseWithin_none]
  exact compileWithin_eq_some_iff

/-- A text that is compiled makes no issues. -/
theorem compile_issues_eq (h : (compile classify keepGoing text report).2 = .ok (some procedures)) :
    (compile classify keepGoing text report).1.issues = report.issues := by
  obtain ⟨unit, hunit, hprocedures⟩ := compile_eq_some_iff.1 h
  have hparse : report.parse text = (report.bindSource text, .ok (some unit)) :=
    Prod.ext (parse_report_eq hunit) hunit
  rw [compile_eq_of_parse hparse]
  exact canonicalize_issues_eq hprocedures

end Compile

/-! ## From texts to trees -/

/-- The canonical forms of what is parsed can be written. -/
theorem parse_sound {report : Report} {text : String} {unit : SourceUnit}
    (h : (report.parse text).2 = .ok (some unit)) :
    ∀ declaration ∈ unit, Canon.DeclarationSound declaration := by
  obtain ⟨derivation, hparse, rfl⟩ := parse_eq_ok_iff.1 h
  refine derivation.sound fun token htoken hkind => ?_
  rw [Parser.yield_eq_of_accepted hparse] at htoken
  exact (Token.genuine_of_mem_scan htoken).identifier hkind

/-! ## From trees to texts -/

/-- What can be expressed is parsed from a text. -/
theorem exists_parse_of_expressible {property : SourceUnit → Prop}
    (h : Expressible (.nonterminal .unit) property) :
    ∃ text, ∀ report : Report, ∃ unit, (report.parse text).2 = .ok (some unit) ∧ property unit := by
  obtain ⟨words, hwords, hderives⟩ := h
  obtain ⟨text, htokens, spot, hending⟩ := Token.exists_scan hwords
  obtain ⟨derivation, hyield, hmeaning⟩ := hderives _ htokens
  have hparse := (Parser.parse_eq_accepted_iff hending).2 hyield
  exact ⟨text, fun report => ⟨_, parse_eq_ok_iff.2 ⟨derivation, hparse, rfl⟩, hmeaning⟩⟩

theorem exists_procedures {trees : List Tree} {unit : SourceUnit}
    (h : List.Forall₂ Canon.DeclarationOf trees unit) :
    ∃ procedures : List Procedure, unit.map (canonDeclaration .byName) = procedures.map .ok ∧
      procedures.map (·.toTree) = trees := by
  induction h with
  | nil => exact ⟨[], rfl, rfl⟩
  | cons hfirst _ ih =>
    obtain ⟨procedure, hcanon, rfl⟩ := hfirst
    obtain ⟨procedures, hprocedures, rfl⟩ := ih
    exact ⟨procedure :: procedures, by rw [List.map_cons, hcanon, hprocedures, List.map_cons], rfl⟩

/-- Trees are what some text is compiled to, without issues, exactly if each of them is
a function that can be written. -/
theorem exists_compile_iff_writable (report : Report) (keepGoing : Bool) (trees : List Tree) :
    (∃ text procedures, (compile .byName keepGoing text report).2 = .ok (some procedures) ∧
        (compile .byName keepGoing text report).1.issues = report.issues ∧
        procedures.map (·.toTree) = trees) ↔
      ∀ tree ∈ trees, WritableFunction tree := by
  constructor
  · rintro ⟨text, procedures, hcompile, -, rfl⟩
    obtain ⟨unit, hunit, hprocedures⟩ := compile_eq_some_iff.1 hcompile
    rw [List.forall_mem_map]
    intro procedure hprocedure
    have hmem : Except.ok procedure ∈ unit.map (canonDeclaration .byName) :=
      hprocedures ▸ List.mem_map_of_mem hprocedure
    obtain ⟨declaration, hdeclaration, hcanon⟩ := List.mem_map.1 hmem
    exact parse_sound hunit declaration hdeclaration procedure hcanon
  · intro h
    obtain ⟨text, htext⟩ := exists_parse_of_expressible (Canon.expressible_unit h)
    obtain ⟨unit, hunit, hforms⟩ := htext report
    obtain ⟨procedures, hprocedures, htrees⟩ := exists_procedures hforms
    have hcompile : (compile .byName keepGoing text report).2 = .ok (some procedures) :=
      compile_eq_some_iff.2 ⟨unit, hunit, hprocedures⟩
    exact ⟨text, procedures, hcompile, compile_issues_eq hcompile, htrees⟩

end Resumable.Report
