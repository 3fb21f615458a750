import Resumable.Proofs.Canon.Blame
import Resumable.Report.Compile

/-!
# The issues of a list of declarations

Declarations are canonicalized all together or not at all. What is filed are the
refusals of the single declarations in order: the first one, or all of them up to
the limit of the report.
-/

namespace Resumable.Report

open Canon (Classifier Procedure Refusal DeclarationNamed canonDeclaration canonDeclarationWithin)
open Source (Declaration SourceUnit)

/-! ## Refusals and their issues -/

/-- The refusal of a declaration, if it is refused. -/
def refusal? (classify : Classifier) (declaration : Declaration) : Option Refusal :=
  match canonDeclaration classify declaration with
  | .error (.refused refusal) => some refusal
  | _ => none

/-- The refusals of some declarations, in order. -/
def refusals (classify : Classifier) (unit : SourceUnit) : List Refusal :=
  unit.filterMap (refusal? classify)

/-- The issue about a refusal. -/
def refusalIssue (report : Report) (refusal : Refusal) : Issue :=
  ⟨refusal.message,
    match refusal.spot with
    | .ok spot => report.annotate spot (captionWithin refusal.within)
    | .error _ => none, []⟩

theorem refuse_eq_file {report : Report} {refusal : Refusal} {spot : Option Source.Spot}
    (h : refusal.spot = .ok spot) :
    report.refuse refusal = report.file (report.refusalIssue refusal) := by
  simp only [refuse, h, unsupported, refusalIssue, Refusal.message]

/-- The report with some more issues. -/
def filed (report : Report) (issues : List Issue) : Report :=
  { report with issues := report.issues ++ issues }

/-- So many more issues make as many as the limit. -/
def StopsAt (report : Report) (count : Nat) : Prop :=
  report.limit = some ((report.issues.length + count : Nat) : Int)

instance (report : Report) (count : Nat) : Decidable (report.StopsAt count) :=
  inferInstanceAs (Decidable (_ = _))

theorem StopsAt.unique {report : Report} {count other : Nat} (h : report.StopsAt count)
    (hother : report.StopsAt other) : count = other := by
  simp only [StopsAt] at h hother
  rw [h, Option.some.injEq] at hother
  omega

theorem stopsAt_iff {report : Report} {count : Nat} (hpos : 0 < count) :
    report.StopsAt count ↔ ∃ limit : Int, report.limit = some limit ∧
      report.issues.length < limit ∧ count = (limit - report.issues.length).toNat := by
  constructor
  · intro h
    exact ⟨_, h, by omega, by omega⟩
  · rintro ⟨limit, hlimit, hlt, rfl⟩
    rw [StopsAt, hlimit, Option.some.injEq]
    omega

theorem file_eq (report : Report) (issue : Issue) :
    report.file issue = (report.filed [issue],
      if report.StopsAt 1 then .error .tooManyIssues else .ok ()) := by
  have hlength : (report.issues ++ [issue]).length = report.issues.length + 1 :=
    List.length_append
  by_cases h : report.StopsAt 1
  · rw [if_pos h, file, if_pos (by rwa [hlength]), filed]
  · rw [if_neg h, file, if_neg (by rwa [hlength]), filed]

theorem stopsAt_filed {report : Report} {issue : Issue} {count : Nat} :
    (report.filed [issue]).StopsAt count ↔ report.StopsAt (count + 1) := by
  simp only [StopsAt, filed, List.length_append, List.length_singleton, Nat.add_assoc,
    Nat.add_comm 1]

section Info

variable (report : Report) (words : List String)

theorem info_issues : (report.info words).issues = report.issues := by
  unfold info
  split <;> rfl

theorem stopsAt_info {count : Nat} : (report.info words).StopsAt count ↔ report.StopsAt count := by
  unfold info
  split <;> rfl

theorem info_source : (report.info words).source = report.source := by
  unfold info
  split <;> rfl

end Info

theorem refusalIssue_congr {report other : Report} (h : report.source = other.source) :
    report.refusalIssue = other.refusalIssue := by
  funext refusal
  simp only [refusalIssue, annotate, h]

/-! ## One declaration -/

section Steps

variable {limit : Text.DigitLimit} {classify : Classifier} {keepGoing : Bool}
  {declaration : Declaration} {unit : SourceUnit} {report : Report}

theorem refusals_cons_ok {procedure : Procedure}
    (h : canonDeclaration classify declaration = .ok procedure) :
    refusals classify (declaration :: unit) = refusals classify unit := by
  have hnone : refusal? classify declaration = none := by simp only [refusal?, h]
  rw [refusals, List.filterMap_cons_none hnone, refusals]

theorem refusals_cons_refused {refusal : Refusal}
    (h : canonDeclaration classify declaration = .error (.refused refusal)) :
    refusals classify (declaration :: unit) = refusal :: refusals classify unit := by
  have hsome : refusal? classify declaration = some refusal := by simp only [refusal?, h]
  rw [refusals, List.filterMap_cons_some hsome, refusals]

theorem canonicalizeWithin_cons_ok {procedure : Procedure}
    (h : canonDeclarationWithin limit classify declaration = .ok procedure) :
    canonicalizeWithin limit classify keepGoing (declaration :: unit) report =
      let rest := canonicalizeWithin limit classify keepGoing unit
        (report.info ["Canonicalized", procedure.name])
      (rest.1, rest.2.map (·.map (procedure :: ·))) := by
  simp only [canonicalizeWithin, h]

theorem canonicalize_cons_ok {procedure : Procedure}
    (h : canonDeclaration classify declaration = .ok procedure) :
    canonicalize classify keepGoing (declaration :: unit) report =
      let rest := canonicalize classify keepGoing unit
        (report.info ["Canonicalized", procedure.name])
      (rest.1, rest.2.map (·.map (procedure :: ·))) :=
  canonicalizeWithin_cons_ok h

theorem canonicalize_cons_refused {refusal : Refusal} {spot : Option Source.Spot}
    (h : canonDeclaration classify declaration = .error (.refused refusal))
    (hspot : refusal.spot = .ok spot) :
    canonicalize classify keepGoing (declaration :: unit) report =
      let report' := report.filed [report.refusalIssue refusal]
      if report.StopsAt 1 then (report', .error .tooManyIssues)
      else if keepGoing then
        let rest := canonicalize classify keepGoing unit report'
        (rest.1, rest.2.map fun _ => none)
      else (report', .ok none) := by
  rw [canonDeclaration] at h
  simp only [canonicalize, canonicalizeWithin, h, refuse_eq_file hspot, file_eq]
  by_cases hlimit : report.StopsAt 1
  · simp only [if_pos hlimit]
  · simp only [if_neg hlimit]

/-- One declaration that has no canonical form spoils the result. -/
theorem canonicalizeWithin_cons_error {failure : Canon.Failure}
    (h : canonDeclarationWithin limit classify declaration = .error failure)
    (procedures : List Procedure) :
    (canonicalizeWithin limit classify keepGoing (declaration :: unit) report).2 ≠
      .ok (some procedures) := by
  cases failure with
  | misshapen fault | overlong overlong =>
    simp only [canonicalizeWithin, h]
    nofun
  | refused refusal =>
    simp only [canonicalizeWithin, h]
    split
    · nofun
    · split
      · rename_i filed _ _
        cases (canonicalizeWithin limit classify keepGoing unit filed).2 <;> nofun
      · nofun

/-- The result is the canonical forms of all declarations. -/
theorem canonicalizeWithin_eq_some_iff {procedures : List Procedure} :
    (canonicalizeWithin limit classify keepGoing unit report).2 = .ok (some procedures) ↔
      unit.map (canonDeclarationWithin limit classify) = procedures.map .ok := by
  induction unit generalizing report procedures with
  | nil => simp [canonicalizeWithin, eq_comm]
  | cons declaration unit ih =>
    cases hcanon : canonDeclarationWithin limit classify declaration with
    | error failure =>
      refine iff_of_false (canonicalizeWithin_cons_error hcanon procedures) ?_
      cases procedures <;> simp [hcanon]
    | ok procedure =>
      have hrest : ∀ rest, (canonicalizeWithin limit classify keepGoing unit
          (report.info ["Canonicalized", procedure.name])).2 = .ok (some rest) ↔
            unit.map (canonDeclarationWithin limit classify) = rest.map .ok := fun rest => ih
      rw [canonicalizeWithin_cons_ok hcanon, List.map_cons, hcanon]
      dsimp only
      constructor
      · intro h
        cases hresult : (canonicalizeWithin limit classify keepGoing unit
            (report.info ["Canonicalized", procedure.name])).2 with
        | error fault => simp [hresult, Except.map] at h
        | ok found =>
          obtain ⟨rest, rfl, rfl⟩ : ∃ rest, found = some rest ∧ procedure :: rest = procedures := by
            simpa [hresult, Except.map] using h
          rw [(hrest rest).1 hresult, List.map_cons]
      · intro h
        obtain ⟨first, rest, rfl, hfirst, hmap⟩ := List.map_eq_cons_iff.1 h.symm
        cases hfirst
        simp only [(hrest rest).2 hmap.symm, Except.map, Option.map_some]

theorem canonicalize_eq_some_iff {procedures : List Procedure} :
    (canonicalize classify keepGoing unit report).2 = .ok (some procedures) ↔
      unit.map (canonDeclaration classify) = procedures.map .ok :=
  canonicalizeWithin_eq_some_iff

/-- Canonical forms of all declarations are found without issues. -/
theorem canonicalize_issues_eq {procedures : List Procedure}
    (h : unit.map (canonDeclaration classify) = procedures.map .ok) :
    (canonicalize classify keepGoing unit report).1.issues = report.issues := by
  induction unit generalizing report procedures with
  | nil => rfl
  | cons declaration unit ih =>
    obtain ⟨procedure, rest, rfl, hcanon, hrest⟩ := List.map_eq_cons_iff.1 h.symm
    rw [canonicalize_cons_ok hcanon.symm]
    exact (ih hrest.symm).trans (report.info_issues _)

end Steps

/-! ## All declarations -/

section Units

variable {classify : Classifier} (hclassify : classify.Reliable) {unit : SourceUnit}
  (hunit : ∀ declaration ∈ unit, DeclarationNamed declaration) (report : Report)

include hclassify hunit

/-- Without refusals all declarations have canonical forms. -/
theorem refusals_eq_nil_iff : refusals classify unit = [] ↔
    ∃ procedures : List Procedure, unit.map (canonDeclaration classify) = procedures.map .ok := by
  induction unit with
  | nil => exact iff_of_true rfl ⟨[], rfl⟩
  | cons declaration unit ih =>
    obtain ⟨hfirst, hrest⟩ := List.forall_mem_cons.1 hunit
    rcases Canon.canonDeclaration_cases hclassify hfirst with
      ⟨procedure, hok⟩ | ⟨refusal, spot, hrefused, -⟩
    · rw [refusals_cons_ok hok, ih hrest, List.map_cons, hok]
      constructor
      · rintro ⟨procedures, hprocedures⟩
        exact ⟨procedure :: procedures, by rw [hprocedures, List.map_cons]⟩
      · rintro ⟨procedures, hprocedures⟩
        obtain ⟨_, rest, rfl, -, hmap⟩ := List.map_eq_cons_iff.1 hprocedures.symm
        exact ⟨rest, hmap.symm⟩
    · rw [refusals_cons_refused hrefused, List.map_cons, hrefused]
      refine iff_of_false (List.cons_ne_nil _ _) ?_
      rintro ⟨procedures, hprocedures⟩
      cases procedures <;> cases hprocedures

/-- The first refusal is filed, and ends the work. -/
theorem canonicalize_first_refusal {refusal : Refusal} {others : List Refusal}
    (hsome : refusals classify unit = refusal :: others) :
    (canonicalize classify false unit report).2 =
      (if report.StopsAt 1 then .error .tooManyIssues else .ok none) ∧
    (canonicalize classify false unit report).1.issues =
      report.issues ++ [report.refusalIssue refusal] := by
  induction unit generalizing report with
  | nil => cases hsome
  | cons declaration unit ih =>
    obtain ⟨hfirst, hrest⟩ := List.forall_mem_cons.1 hunit
    rcases Canon.canonDeclaration_cases hclassify hfirst with
      ⟨procedure, hok⟩ | ⟨found, spot, hrefused, hspot⟩
    · rw [refusals_cons_ok hok] at hsome
      obtain ⟨hresult, hissues⟩ := ih hrest (report.info ["Canonicalized", procedure.name]) hsome
      simp only [stopsAt_info] at hresult
      rw [info_issues, refusalIssue_congr (report.info_source _)] at hissues
      rw [canonicalize_cons_ok hok]
      refine ⟨?_, hissues⟩
      simp only [hresult]
      split <;> rfl
    · rw [refusals_cons_refused hrefused] at hsome
      cases hsome
      rw [canonicalize_cons_refused hrefused hspot]
      split
      · exact ⟨rfl, rfl⟩
      · exact ⟨rfl, rfl⟩

/-- Going on, the refusals are filed up to the one at which the report gives up. -/
theorem canonicalize_up_to_limit {count : Nat} (hpos : 0 < count)
    (hcount : count ≤ (refusals classify unit).length) (hstop : report.StopsAt count) :
    (canonicalize classify true unit report).2 = .error .tooManyIssues ∧
    (canonicalize classify true unit report).1.issues =
      report.issues ++ ((refusals classify unit).take count).map report.refusalIssue := by
  induction unit generalizing report count with
  | nil => exact absurd hcount (Nat.not_le_of_lt hpos)
  | cons declaration unit ih =>
    obtain ⟨hfirst, hrest⟩ := List.forall_mem_cons.1 hunit
    rcases Canon.canonDeclaration_cases hclassify hfirst with
      ⟨procedure, hok⟩ | ⟨refusal, spot, hrefused, hspot⟩
    · rw [refusals_cons_ok hok] at hcount ⊢
      obtain ⟨hresult, hissues⟩ := ih hrest (report.info ["Canonicalized", procedure.name]) hpos
        hcount ((stopsAt_info _ _).2 hstop)
      rw [info_issues, refusalIssue_congr (report.info_source _)] at hissues
      rw [canonicalize_cons_ok hok]
      exact ⟨by simp only [hresult, Except.map], hissues⟩
    · rw [refusals_cons_refused hrefused] at hcount ⊢
      rw [canonicalize_cons_refused hrefused hspot]
      obtain ⟨count, rfl⟩ := Nat.exists_eq_succ_of_ne_zero hpos.ne'
      rcases count.eq_zero_or_pos with rfl | hmore
      · -- this refusal is the one at which the report gives up
        rw [if_pos hstop]
        exact ⟨rfl, rfl⟩
      · have hgo : ¬report.StopsAt 1 := fun h => by
          have := h.unique hstop
          omega
        obtain ⟨hresult, hissues⟩ := ih hrest (report.filed [report.refusalIssue refusal]) hmore
          (Nat.le_of_succ_le_succ hcount) (stopsAt_filed.2 hstop)
        simp only [if_neg hgo, if_true]
        refine ⟨by rw [hresult]; rfl, ?_⟩
        rw [hissues, List.take_succ_cons, List.map_cons, List.append_cons]
        rfl

/-- Going on, all refusals are filed if the report gives up at none of them. -/
theorem canonicalize_all_refusals (hsome : refusals classify unit ≠ [])
    (hgo : ∀ count, 0 < count → count ≤ (refusals classify unit).length →
      ¬report.StopsAt count) :
    (canonicalize classify true unit report).2 = .ok none ∧
    (canonicalize classify true unit report).1.issues =
      report.issues ++ (refusals classify unit).map report.refusalIssue := by
  induction unit generalizing report with
  | nil => exact absurd rfl hsome
  | cons declaration unit ih =>
    obtain ⟨hfirst, hrest⟩ := List.forall_mem_cons.1 hunit
    rcases Canon.canonDeclaration_cases hclassify hfirst with
      ⟨procedure, hok⟩ | ⟨refusal, spot, hrefused, hspot⟩
    · rw [refusals_cons_ok hok] at hsome hgo ⊢
      obtain ⟨hresult, hissues⟩ := ih hrest (report.info ["Canonicalized", procedure.name]) hsome
        fun count hpos hcount => mt (stopsAt_info _ _).1 (hgo count hpos hcount)
      rw [info_issues, refusalIssue_congr (report.info_source _)] at hissues
      rw [canonicalize_cons_ok hok]
      exact ⟨by simp only [hresult, Except.map, Option.map_none], hissues⟩
    · rw [refusals_cons_refused hrefused] at hgo ⊢
      have hgo' : ∀ count ≤ (refusals classify unit).length, ¬report.StopsAt (count + 1) :=
        fun count hcount => hgo (count + 1) count.succ_pos (Nat.succ_le_succ hcount)
      rw [canonicalize_cons_refused hrefused hspot]
      simp only [if_neg (hgo' 0 (Nat.zero_le _)), if_true]
      by_cases hlast : refusals classify unit = []
      · -- the other declarations have canonical forms, which are given up
        obtain ⟨procedures, hprocedures⟩ := (refusals_eq_nil_iff hclassify hrest).1 hlast
        refine ⟨by rw [canonicalize_eq_some_iff.2 hprocedures]; rfl, ?_⟩
        rw [canonicalize_issues_eq hprocedures, hlast]
        rfl
      · obtain ⟨hresult, hissues⟩ := ih hrest (report.filed [report.refusalIssue refusal]) hlast
          fun count _ hcount => mt stopsAt_filed.1 (hgo' count hcount)
        refine ⟨by rw [hresult]; rfl, ?_⟩
        rw [hissues, List.map_cons, List.append_cons]
        rfl

end Units

/-- Declarations are canonicalized all together or not at all. Without refusals the
result is the canonical form of each of them. If the work ends at a refusal, the first
one is filed. If it goes on, all of them are filed, or as many as make the report give
up. -/
theorem canonicalize_accounting {classify : Classifier} (hclassify : classify.Reliable)
    {unit : SourceUnit} (hunit : ∀ declaration ∈ unit, DeclarationNamed declaration)
    (report : Report) (keepGoing : Bool) :
    let refused := refusals classify unit
    let issues := (canonicalize classify keepGoing unit report).1.issues
    let result := (canonicalize classify keepGoing unit report).2
    (refused = [] →
      issues = report.issues ∧
      ∃ procedures, result = .ok (some procedures) ∧
        unit.map (canonDeclaration classify) = procedures.map .ok) ∧
    (∀ first others, refused = first :: others → keepGoing = false →
      issues = report.issues ++ [report.refusalIssue first] ∧
      result = if report.limit = some (report.issues.length + 1 : Int) then .error .tooManyIssues
        else .ok none) ∧
    (refused ≠ [] → keepGoing = true →
      (∀ limit : Int, report.limit = some limit → report.issues.length < limit →
        limit ≤ report.issues.length + refused.length →
        result = .error .tooManyIssues ∧
        issues = report.issues ++
          (refused.take (limit - report.issues.length).toNat).map report.refusalIssue) ∧
      ((∀ limit : Int, report.limit = some limit →
          ¬(report.issues.length < limit ∧ limit ≤ report.issues.length + refused.length)) →
        result = .ok none ∧
        issues = report.issues ++ refused.map report.refusalIssue)) ∧
    (refused ≠ [] → ∀ procedures, result ≠ .ok (some procedures)) := by
  intro refused issues result
  refine ⟨fun hnone => ?_, ?_, fun hsome hgoing => ⟨?_, ?_⟩, fun hsome procedures hresult => ?_⟩
  · obtain ⟨procedures, hprocedures⟩ := (refusals_eq_nil_iff hclassify hunit).1 hnone
    exact ⟨canonicalize_issues_eq hprocedures, procedures, canonicalize_eq_some_iff.2 hprocedures,
      hprocedures⟩
  · rintro first others hfirst rfl
    obtain ⟨hresult, hissues⟩ := canonicalize_first_refusal hclassify hunit report hfirst
    exact ⟨hissues, hresult⟩
  · intro limit hlimit hlt hle
    subst hgoing
    have hpos : 0 < (limit - report.issues.length).toNat := by omega
    exact canonicalize_up_to_limit hclassify hunit report hpos
      (Int.toNat_le.2 (Int.sub_left_le_of_le_add hle))
      ((stopsAt_iff hpos).2 ⟨limit, hlimit, hlt, rfl⟩)
  · intro hgo
    subst hgoing
    refine canonicalize_all_refusals hclassify hunit report hsome fun count hpos hcount hstop => ?_
    obtain ⟨limit, hlimit, hlt, rfl⟩ := (stopsAt_iff hpos).1 hstop
    exact hgo limit hlimit ⟨hlt, Int.le_add_of_sub_left_le (Int.toNat_le.1 hcount)⟩
  · exact hsome ((refusals_eq_nil_iff hclassify hunit).2
      ⟨procedures, canonicalize_eq_some_iff.1 hresult⟩)

/-- Three of four declarations are refused, but two issues are as many as the report
takes. -/
theorem canonicalize_accounting_limit :
    let binding : Declaration := .bindings ⟨"var", none⟩ [⟨⟨"a", none⟩, none⟩]
    let function (body : Source.Block) : Declaration :=
      .function ⟨none, some ⟨"f_async", none⟩, [], .block body none⟩
    let unit := [binding, function [.returning ⟨"return", none⟩ none], function [.empty none],
      binding]
    let outcome := canonicalize .byName true unit { limit := some 2 }
    outcome.2 = .error .tooManyIssues ∧
    outcome.1.issues = [⟨"Unsupported syntax: top-level variable.", none, []⟩,
      ⟨"Unsupported syntax: empty statement.", none, []⟩] := by
  intro binding function unit outcome
  have hunit : ∀ declaration ∈ unit, DeclarationNamed declaration := by
    simp [unit, binding, function, DeclarationNamed, Canon.AllClausesNamed, Canon.ClausesNamed]
  have hrefusals : refusals .byName unit =
      [⟨⟨.topLevelVariable, some (.declaration binding)⟩, none⟩,
        ⟨⟨.emptyStatement, some (.stmt (.empty none))⟩, some "f_async"⟩,
        ⟨⟨.topLevelVariable, some (.declaration binding)⟩, none⟩] := by
    rfl
  obtain ⟨-, -, hgoing, -⟩ := canonicalize_accounting Classifier.byName_reliable hunit
    { limit := some 2 } true
  rw [hrefusals] at hgoing
  exact (hgoing nofun rfl).1 2 rfl (by decide) (by decide)

end Resumable.Report
