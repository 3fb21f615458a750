import Resumable.Proofs.Grammar.Named
import Resumable.Proofs.Report.Accounting
import Resumable.Proofs.Report.Earliest
import Resumable.Proofs.Report.Expressed

/-!
# What comes of a text

A text is compiled, or else there are issues, and each of them is written when the report
complains. Whether each step is mentioned makes no difference to this.
-/

namespace Resumable.Canon

open Source (Function Name)

theorem Classifier.byModifier_reliable : byModifier.Reliable := by
  intro function name _
  unfold byModifier
  split
  · exact .inl ⟨.sync, rfl⟩
  · split
    · exact .inl ⟨.async, rfl⟩
    · exact .inl ⟨.syncStar, rfl⟩
    · exact .inr ⟨_, rfl, _, rfl⟩

end Resumable.Canon

namespace Resumable.Report

open Canon (Classifier Procedure DeclarationNamed)
open Source (SourceUnit)

/-! ## Silence -/

/-- The report that has said nothing, and mentions no steps. -/
def silent (report : Report) : Report :=
  { report with verbose := false, console := "" }

section Silent

variable (report : Report)

theorem info_silent (words : List String) : report.silent.info words = report.silent := rfl

theorem silent_info (words : List String) : (report.info words).silent = report.silent := by
  unfold info
  split <;> rfl

theorem file_silent (issue : Issue) :
    report.silent.file issue = (report.file issue).map silent id := by
  simp only [file_eq]
  rfl

theorem refuse_silent (refusal : Canon.Refusal) :
    report.silent.refuse refusal = (report.refuse refusal).map silent id := by
  unfold refuse
  split
  · exact file_silent report _
  · rfl

theorem parse_silent (text : String) :
    report.silent.parse text = (report.parse text).map silent id := by
  simp only [parse]
  cases Parser.parse (Token.scan text) with
  | accepted derivation => rfl
  | stray character spot =>
    simp only [strayCharacter, file_eq]
    rfl
  | confused symbols next spot =>
    simp only [parseError, file_eq]
    rfl

/-- A numeral that is too long ends the parsing before anything is said. -/
theorem parseWithin_silent (limit : Text.DigitLimit) (text : String) :
    report.silent.parseWithin limit text = (report.parseWithin limit text).map silent id := by
  simp only [parseWithin]
  split
  · split
    · rfl
    · exact parse_silent report text
  · exact parse_silent report text

theorem canonicalizeWithin_silent (limit : Text.DigitLimit) (classify : Classifier)
    (keepGoing : Bool) (unit : SourceUnit) :
    canonicalizeWithin limit classify keepGoing unit report.silent =
      (canonicalizeWithin limit classify keepGoing unit report).map silent id := by
  induction unit generalizing report with
  | nil => rfl
  | cons declaration unit ih =>
    simp only [canonicalizeWithin]
    cases Canon.canonDeclarationWithin limit classify declaration with
    | ok procedure =>
      have hrest := ih (report.info ["Canonicalized", procedure.name])
      rw [silent_info] at hrest
      simp only [info_silent, hrest]
      rfl
    | error failure =>
      cases failure with
      | misshapen fault | overlong overlong => rfl
      | refused refusal =>
        simp only [refuse_silent]
        obtain ⟨filed, _ | _⟩ := report.refuse refusal
        · rfl
        · cases keepGoing with
          | false => rfl
          | true =>
            simp only [Prod.map, id, ih, if_true]

/-- What was said before, and whether each step is mentioned, shows on the console only. -/
theorem compileWithin_silent (limit : Text.DigitLimit) (classify : Classifier) (keepGoing : Bool)
    (text : String) :
    compileWithin limit classify keepGoing text report.silent =
      (compileWithin limit classify keepGoing text report).map silent id := by
  rw [compileWithin, compileWithin, parseWithin_silent]
  obtain ⟨parsed, _ | _ | unit⟩ := report.parseWithin limit text
  · rfl
  · rfl
  · exact canonicalizeWithin_silent parsed limit classify keepGoing unit

end Silent

/-! ## Results and issues -/

/-- Declarations have no result only if there are issues. -/
theorem canonicalize_cases {classify : Classifier} (hclassify : classify.Reliable)
    {unit : SourceUnit} (hunit : ∀ declaration ∈ unit, DeclarationNamed declaration)
    (keepGoing : Bool) (report : Report) :
    (∃ procedures, (canonicalize classify keepGoing unit report).2 = .ok (some procedures)) ∨
      (canonicalize classify keepGoing unit report).1.issues ≠ [] ∧
        ((canonicalize classify keepGoing unit report).2 = .ok none ∨
          (canonicalize classify keepGoing unit report).2 = .error .tooManyIssues) := by
  cases hrefusals : refusals classify unit with
  | nil =>
    obtain ⟨procedures, hprocedures⟩ := (refusals_eq_nil_iff hclassify hunit).1 hrefusals
    exact .inl ⟨procedures, canonicalize_eq_some_iff.2 hprocedures⟩
  | cons refusal others =>
    refine .inr ?_
    cases keepGoing with
    | false =>
      obtain ⟨hresult, hissues⟩ := canonicalize_first_refusal hclassify hunit report hrefusals
      rw [hissues, hresult]
      refine ⟨by simp, ?_⟩
      split
      · exact .inr rfl
      · exact .inl rfl
    | true =>
      -- either way at least one refusal is filed, since the limit is met at a positive count
      by_cases hstops : ∃ count, 0 < count ∧ count ≤ (refusals classify unit).length ∧
          report.StopsAt count
      · obtain ⟨count, hpos, hcount, hstop⟩ := hstops
        obtain ⟨hresult, hissues⟩ :=
          canonicalize_up_to_limit hclassify hunit report hpos hcount hstop
        rw [hissues, hresult, hrefusals]
        refine ⟨?_, .inr rfl⟩
        simp [hpos.ne']
      · obtain ⟨hresult, hissues⟩ := canonicalize_all_refusals hclassify hunit report
          (by simp [hrefusals]) fun count hpos hcount hstop => hstops ⟨count, hpos, hcount, hstop⟩
        rw [hissues, hresult, hrefusals]
        exact ⟨by simp, .inl rfl⟩

theorem parse_named {report : Report} {text : String} {unit : SourceUnit}
    (h : (report.parse text).2 = .ok (some unit)) :
    ∀ declaration ∈ unit, DeclarationNamed declaration := by
  obtain ⟨derivation, -, rfl⟩ := parse_eq_ok_iff.1 h
  exact Grammar.symbolNamed_meaning derivation

/-- A text has no result only if there are issues. -/
theorem compile_cases {classify : Classifier} (hclassify : classify.Reliable) (keepGoing : Bool)
    (text : String) :
    (∃ procedures, (compile classify keepGoing text {}).2 = .ok (some procedures)) ∨
      (compile classify keepGoing text {}).1.issues ≠ [] ∧
        ((compile classify keepGoing text {}).2 = .ok none ∨
          (compile classify keepGoing text {}).2 = .error .tooManyIssues) := by
  by_cases hparsed : ∃ unit, (({} : Report).parse text).2 = .ok (some unit)
  · obtain ⟨unit, hunit⟩ := hparsed
    have hparse : ({} : Report).parse text = (_, .ok (some unit)) :=
      Prod.ext (parse_report_eq hunit) hunit
    rw [compile_eq_of_parse hparse]
    exact canonicalize_cases hclassify (parse_named hunit) keepGoing _
  · obtain ⟨hnone, hissues⟩ := parse_issue (not_exists.1 hparsed)
    have hparse : ({} : Report).parse text = ((({} : Report).parse text).1, .ok none) :=
      Prod.ext rfl hnone
    refine .inr ?_
    rw [compile, compileWithin, parseWithin_none, hparse]
    refine ⟨?_, .inl rfl⟩
    obtain ⟨_, _, -, hissue⟩ | ⟨_, _, _, -, hissue⟩ := hissues
    · simp [hissue]
    · simp [hissue]

/-! ## Complaints -/

/-- An issue is written on a console, below a line of dashes. -/
def Writes (console : String) (issue : Issue) : Prop :=
  ∃ before after, console = before ++ (dashes ++ "\n" ++ issue.text ++ "\n") ++ after

theorem writes_print (report : Report) (issue : Issue) :
    Writes ((report.print dashes).print issue.text).console issue := by
  refine ⟨report.console, "", ?_⟩
  simp only [print, String.append_assoc, String.append_empty]

theorem Writes.print {report : Report} {issue : Issue} (h : Writes report.console issue)
    (line : String) : Writes (report.print line).console issue := by
  obtain ⟨before, after, hconsole⟩ := h
  refine ⟨before, after ++ line ++ "\n", ?_⟩
  simp only [Report.print, hconsole, String.append_assoc]

theorem Writes.foldl_print {report : Report} {issue : Issue} (h : Writes report.console issue)
    (lines : List String) : Writes (lines.foldl Report.print report).console issue := by
  induction lines generalizing report with
  | nil => exact h
  | cons line lines ih => exact ih (h.print line)

/-- A complaint writes each issue. -/
theorem writes_complain {report : Report} {issue : Issue} (h : issue ∈ report.issues)
    (luck : Luck) : Writes (report.complain luck).console issue := by
  obtain ⟨before, after, hissues⟩ := List.append_of_mem h
  have hlines : complaint luck report.issues =
      (stars :: outburst luck :: before.flatMap fun issue => [dashes, issue.text]) ++
        dashes :: issue.text :: after.flatMap fun issue => [dashes, issue.text] := by
    rw [complaint, hissues]
    simp
  rw [complain, hlines, List.foldl_append, List.foldl_cons, List.foldl_cons]
  exact (writes_print _ issue).foldl_print _

end Resumable.Report
