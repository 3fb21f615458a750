import Resumable.Proofs.Canon.Blame

/-!
# The verdict on a declaration

A declaration has a canonical form exactly if there are no violations in it. Else it is
refused for the first one, and the refusal tells the name of the function.
-/

namespace Resumable.Canon

open Source

/-- A classifier that answers the tag of a kind of functions, or refuses. -/
def Classifier.Decisive (classify : Classifier) : Prop :=
  ∀ function name tag, classify function name = .ok tag → ∃ kind : FunctionKind, tag = kind.tag.text

theorem Classifier.byModifier_decisive : byModifier.Decisive := by
  intro function name tag h
  unfold byModifier at h
  split at h
  · cases h
    exact ⟨.sync, rfl⟩
  · split at h
    · cases h
      exact ⟨.async, rfl⟩
    · cases h
      exact ⟨.syncStar, rfl⟩
    · cases h

/-- A violation in a declaration, as the failure it leads to. -/
def failureFor (declaration : Declaration) (violation : Violation) : Failure :=
  .refused ⟨violation, declaredName declaration⟩

/-- A declaration fails on account of the first violation in it. -/
theorem canonDeclaration_failsFirst {classify : Classifier} (hclassify : classify.Decisive)
    (declaration : Declaration) :
    FailsFirst (failureFor declaration) (declarationViolations classify declaration)
      (canonDeclaration classify declaration) := by
  cases declaration with
  | bindings keyword bindings => exact .error _ _
  | function function =>
    have hdraft := draftFunction_failsFirst classify function
    cases hviolations : declarationViolations classify (.function function) with
    | nil =>
      rw [hviolations] at hdraft
      obtain ⟨⟨tag, make⟩, hdraft⟩ := hdraft
      -- the parts are canonical, and what the classifier answered is the tag of a kind
      obtain ⟨name, hname⟩ := classify_of_draftFunction hdraft
      obtain ⟨kind, hkind⟩ := hclassify function name tag hname
      have hof := FunctionKind.ofText?_eq_some.2 hkind
      simp only [canonDeclaration, canonDeclarationWithin, hdraft, hof]
      exact .ok _
    | cons violation more =>
      rw [hviolations] at hdraft
      have hrefused : draftFunction none classify function = .error (.violation violation) := hdraft
      simp only [canonDeclaration, canonDeclarationWithin, hrefused]
      exact .error _ _

/-- A declaration has a canonical form exactly if there are no violations in it. Else it
is refused for the first one, with the name of the function if there is one. -/
theorem refused_for_first_violation {classify : Classifier} (hclassify : classify.Decisive)
    (declaration : Declaration) :
    ((∃ procedure, canonDeclaration classify declaration = .ok procedure) ↔
      declarationViolations classify declaration = []) ∧
    ∀ violation more, declarationViolations classify declaration = violation :: more →
      canonDeclaration classify declaration =
        .error (.refused ⟨violation, declaredName declaration⟩) := by
  have hfirst := canonDeclaration_failsFirst hclassify declaration
  cases hviolations : declarationViolations classify declaration with
  | nil =>
    rw [hviolations] at hfirst
    obtain ⟨procedure, hprocedure⟩ := hfirst
    refine ⟨⟨fun _ => rfl, fun _ => ⟨procedure, hprocedure⟩⟩, fun violation more h => ?_⟩
    cases h
  | cons violation more =>
    rw [hviolations] at hfirst
    have hrefused : canonDeclaration classify declaration =
        .error (failureFor declaration violation) := hfirst
    refine ⟨⟨?_, fun h => absurd h (List.cons_ne_nil _ _)⟩, ?_⟩
    · rintro ⟨procedure, hprocedure⟩
      rw [hrefused] at hprocedure
      cases hprocedure
    · rintro _ _ ⟨⟩
      exact hrefused

/-- The marker, the locals and the body of the attempt are in order. What is wrong with its
clause comes before what is wrong in the handler and after it. -/
theorem refused_for_exceptionType :
    let handler : Block := [.expression (.call ⟨"yield", none⟩ []), .breaking ⟨"break", none⟩ none]
    let clause : CatchClause := .mk (some ⟨"E", none⟩) none (some ⟨"s", none⟩) handler
    let attempt : Stmt := .attempt ⟨"try", none⟩ [.returning ⟨"return", none⟩ none] [clause]
    let declaration : Declaration := .function ⟨none, some ⟨"f", none⟩, [],
      .block [.declaration ⟨"var", none⟩ [⟨⟨"x", none⟩, none⟩], attempt, .empty none]
        (some ⟨"sync*", none⟩)⟩
    let first : Violation := ⟨.exceptionType, some (.catchClause clause)⟩
    let others : List Violation :=
      [⟨.missingException, some (.catchClause clause)⟩, ⟨.stackTrace, some (.name ⟨"s", none⟩)⟩,
        ⟨.arity "yield", some (.expr (.call ⟨"yield", none⟩ []))⟩,
        ⟨.unlabeledBreak, some (.stmt (.breaking ⟨"break", none⟩ none))⟩,
        ⟨.emptyStatement, some (.stmt (.empty none))⟩]
    declarationViolations .byModifier declaration = first :: others ∧
      canonDeclaration .byModifier declaration = .error (.refused ⟨first, some "f"⟩) := by
  intro handler clause attempt declaration first others
  have hviolations : declarationViolations .byModifier declaration = first :: others := rfl
  have hdecisive := Classifier.byModifier_decisive
  have hrefused := (refused_for_first_violation hdecisive declaration).2 first others hviolations
  exact ⟨hviolations, hrefused⟩

end Resumable.Canon
