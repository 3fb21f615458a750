import Resumable.Proofs.Canon.Constants
import Resumable.Proofs.Text.Positional

/-!
# Canonical forms within a limit on digits

A declaration has a canonical form within a limit on the digits that are shown exactly if it has
that form without one and no integer in it is too long. A declaration that is refused without a
limit is refused alike within one, unless an integer that is too long is met before.
-/

namespace Resumable.Canon

open Source
open Text (DigitLimit Overlong)

/-! ## Integers that are not shown -/

/-- Some integer among the leaves is too long to be shown. -/
def Unshown (limit : DigitLimit) (leaves : List Leaf) : Prop :=
  ∃ value spot overlong, .integer value spot ∈ leaves ∧ limit.shown value = .error overlong

variable {limit : DigitLimit}

theorem unshown_append {leaves more : List Leaf} :
    Unshown limit (leaves ++ more) ↔ Unshown limit leaves ∨ Unshown limit more := by
  simp only [Unshown, List.mem_append, or_and_right, exists_or]

theorem not_unshown_of_numerals {leaves : List Leaf} (h : numerals leaves = []) :
    ¬Unshown limit leaves := by
  rintro ⟨value, spot, overlong, hmem, -⟩
  have hnumeral : value.repr ∈ numerals leaves := List.mem_filterMap.2 ⟨_, hmem, rfl⟩
  rw [h] at hnumeral
  cases hnumeral

/-- Work within a limit comes to what the work without one comes to, and that is a form only if
no integer among the leaves is too long; or else it is cut off at such an integer. -/
def CutOff {α : Type} (limit : DigitLimit) (leaves : List Leaf) (within without : Except Halt α) :
    Prop :=
  within = without ∧ (∀ form, without = .ok form → ¬Unshown limit leaves) ∨
    Unshown limit leaves ∧ ∃ overlong, within = .error (.overlong overlong)

namespace CutOff

variable {α β : Type} {leaves more : List Leaf} {within without : Except Halt α}
  {next next' : α → Except Halt β}

theorem error (halt : Halt) : CutOff limit leaves (.error halt : Except Halt α) (.error halt) :=
  .inl ⟨rfl, fun _ h => by cases h⟩

theorem ok (h : numerals leaves = []) (form : α) :
    CutOff limit leaves (.ok form : Except Halt α) (.ok form) :=
  .inl ⟨rfl, fun _ _ => not_unshown_of_numerals h⟩

/-- Leaves that are passed over. -/
theorem prepend (hmore : numerals more = []) (h : CutOff limit leaves within without) :
    CutOff limit (more ++ leaves) within without := by
  rw [CutOff, unshown_append, or_iff_right (not_unshown_of_numerals hmore)]
  exact h

/-- A first step that does not depend on the limit. It fails if there are integers among its
leaves. -/
theorem after (first : Except Halt α) (hfirst : ∀ value, first = .ok value → numerals more = [])
    (hnext : ∀ value, CutOff limit leaves (next value) (next' value)) :
    CutOff limit (more ++ leaves) (first >>= next) (first >>= next') := by
  cases first with
  | error halt => exact .error halt
  | ok value => exact (hnext value).prepend (hfirst value rfl)

theorem bind (h : CutOff limit leaves within without)
    (hnext : ∀ value, CutOff limit more (next value) (next' value)) :
    CutOff limit (leaves ++ more) (within >>= next) (without >>= next') := by
  rcases h with ⟨rfl, hform⟩ | ⟨hunshown, overlong, rfl⟩
  · cases within with
    | error halt => exact .error halt
    | ok value =>
      -- all integers of the first part were shown, so only those of the next one matter
      rw [CutOff, unshown_append, or_iff_right (hform value rfl)]
      exact hnext value
  · exact .inr ⟨unshown_append.2 (.inl hunshown), overlong, rfl⟩

theorem map (h : CutOff limit leaves within without) (make : α → β) :
    CutOff limit leaves (within >>= fun value => pure (make value))
      (without >>= fun value => pure (make value)) := by
  have hbind := h.bind fun value => (ok rfl (make value) : CutOff limit [] _ _)
  rwa [List.append_nil] at hbind

end CutOff

/-! ## Expressions and statements -/

theorem canonExpr_integer_cutOff (value : Int) (spot : Option Spot) :
    CutOff limit [.integer value spot] (canonExpr limit (.integer value spot))
      (canonExpr none (.integer value spot)) := by
  cases hshown : limit.shown value with
  | ok text =>
    obtain ⟨rfl, -⟩ := DigitLimit.shown_eq_ok_iff.1 hshown
    refine .inl ⟨by simp only [canonExpr, hshown]; rfl, ?_⟩
    rintro _ - ⟨_, _, overlong, hmem, hlong⟩
    cases List.mem_singleton.1 hmem
    cases hshown.symm.trans hlong
  | error overlong =>
    refine .inr ⟨⟨value, spot, overlong, List.mem_singleton_self _, hshown⟩, overlong, ?_⟩
    simp only [canonExpr, hshown]
    rfl

mutual

theorem canonExpr_cutOff :
    (expr : Expr) → CutOff limit expr.leaves (canonExpr limit expr) (canonExpr none expr)
  | .integer value spot => canonExpr_integer_cutOff value spot
  | .string _ _ => .error _
  | .identifier _ => .ok rfl _
  | .property _ _ => .error _
  | .assignment left right => by
      cases left with
      | identifier name => exact ((canonExpr_cutOff right).map _).prepend rfl
      | _ => exact .error _
  | .call name arguments => by
      have hname : numerals [.name name] = [] := rfl
      simp only [canonExpr, Expr.leaves]
      cases operator? name.text with
      | none => exact ((canonExprs_cutOff arguments).map _).prepend hname
      | some operator =>
        match arguments with
        | [] => exact .error _
        | [argument] =>
          rw [leavesOfExprs, leavesOfExprs, List.append_nil]
          exact ((canonExpr_cutOff argument).map _).prepend hname
        | _ :: _ :: _ => exact .error _
  | .methodCall _ _ _ => .error _
  | .throwing _ value => (canonExpr_cutOff value).map _

theorem canonExprs_cutOff : (exprs : List Expr) →
    CutOff limit (leavesOfExprs exprs) (canonExprs limit exprs) (canonExprs none exprs)
  | [] => .ok rfl _
  | expr :: exprs => (canonExpr_cutOff expr).bind fun _ => (canonExprs_cutOff exprs).map _

end

mutual

theorem canonStmt_cutOff :
    (stmt : Stmt) → CutOff limit stmt.leaves (canonStmt limit stmt) (canonStmt none stmt)
  | .block body => (canonStmts_cutOff body).map _
  | .declaration _ _ => .error _
  | .expression value => (canonExpr_cutOff value).map _
  | .empty _ => .error _
  | .returning _ none => .ok rfl _
  | .returning _ (some value) => (canonExpr_cutOff value).map _
  | .ifThen _ _ _ => .error _
  | .ifElse _ condition thenPart elsePart => by
      rw [Stmt.leaves, List.append_assoc]
      exact (canonExpr_cutOff condition).bind fun _ =>
        (canonStmt_cutOff thenPart).bind fun _ => (canonStmt_cutOff elsePart).map _
  | .labeled _ (_ :: _) _ => .error _
  | .labeled label [] body => by
      have hcut : CutOff limit body.leaves (canonStmt limit (.labeled label [] body))
          (canonStmt none (.labeled label [] body)) := by
        by_cases hloop : IsLoop body
        · cases body with
          | whileLoop keyword condition body =>
            exact (canonExpr_cutOff condition).bind fun _ => (canonStmt_cutOff body).map _
          | _ => exact hloop.elim
        · rw [canonStmt_labeled hloop, canonStmt_labeled hloop]
          exact (canonStmt_cutOff body).map _
      exact hcut.prepend rfl
  | .breaking _ none => .error _
  | .breaking _ (some _) => .ok rfl _
  | .continuing _ none => .error _
  | .continuing _ (some _) => .ok rfl _
  | .whileLoop _ condition body =>
      (canonExpr_cutOff condition).bind fun _ => (canonStmt_cutOff body).map _
  | .doLoop _ _ _ => .error _
  | .attempt _ _ [] => .error _
  | .attempt _ body [.mk type exception trace handler] => by
      rw [Stmt.leaves, leavesOfClauses, leavesOfClauses, List.append_nil, CatchClause.leaves]
      exact (canonStmts_cutOff body).bind fun _ =>
        .after _ (fun _ _ => numerals_leavesOfNames _) fun _ => (canonStmts_cutOff handler).map _
  | .attempt _ _ (.mk _ _ _ _ :: _ :: _) => .error _
  | .attemptFinally _ body [] finalizer => by
      rw [Stmt.leaves, leavesOfClauses, List.append_nil]
      exact (canonStmts_cutOff body).bind fun _ => (canonStmts_cutOff finalizer).map _
  | .attemptFinally _ _ [_] _ => .error _
  | .attemptFinally _ _ (_ :: _ :: _) _ => .error _

theorem canonStmts_cutOff : (stmts : List Stmt) →
    CutOff limit (leavesOfStmts stmts) (canonStmts limit stmts) (canonStmts none stmts)
  | [] => .ok rfl _
  | stmt :: stmts => (canonStmt_cutOff stmt).bind fun _ => (canonStmts_cutOff stmts).map _

end

/-! ## Declarations -/

theorem numerals_of_canonParameters {parameters : List Parameter} {names : List String}
    (h : parameters.mapM canonParameter = .ok names) :
    numerals (parameters.flatMap Parameter.leaves) = [] := by
  obtain ⟨binders, rfl, -⟩ := (mapM_eq_ok canonParameter_eq_ok).1 h
  exact numerals_required binders

theorem numerals_of_canonLocals {items : List Variable} {names : List String}
    (h : items.mapM canonLocal = .ok names) :
    numerals (items.flatMap Variable.leaves) = [] := by
  obtain ⟨locals, rfl, -⟩ := (mapM_eq_ok canonLocal_eq_ok).1 h
  exact numerals_locals locals

theorem draftFunction_cutOff (classify : Classifier) (function : Function) :
    CutOff limit function.leaves (draftFunction limit classify function)
      (draftFunction none classify function) := by
  obtain ⟨type, _ | name, parameters, body⟩ := function
  · exact .error _
  · cases body with
    | arrow value modifier =>
      -- the integers of such a body are never met
      have hrefused : ∀ form, draftFunction none classify
          ⟨type, some name, parameters, .arrow value modifier⟩ ≠ .ok form := by
        intro form h
        simp [draftFunction, bind_eq_ok] at h
      exact .inl ⟨rfl, fun form h => absurd h (hrefused form)⟩
    | block block modifier =>
      -- of all steps only the last one, which is on the body, depends on the limit
      rw [Function.leaves, List.append_assoc, Body.leaves, leavesOfStmts_hoist]
      refine .after _ (fun _ _ => numerals_leavesOfNames _) fun _ => ?_
      refine .after _ (fun _ => numerals_of_canonParameters) fun _ => ?_
      refine .after _ (fun _ => numerals_of_canonLocals) fun _ => ?_
      exact ((canonStmts_cutOff (hoist block).2).map _).map _

/-- A declaration has a draft if it has a canonical form. -/
theorem exists_draft {classify : Classifier} {function : Function} {procedure : Procedure}
    (h : canonDeclaration classify (.function function) = .ok procedure) :
    ∃ draft, draftFunction none classify function = .ok draft := by
  cases hdraft : draftFunction none classify function with
  | ok draft => exact ⟨draft, rfl⟩
  | error halt => cases halt <;> simp [canonDeclaration, canonDeclarationWithin, hdraft] at h

/-- A declaration comes to the same within a limit, and that is a canonical form only if no
integer in it is too long; or else canonicalizing is cut off at such an integer. -/
theorem canonDeclarationWithin_cases (limit : DigitLimit) (classify : Classifier)
    (declaration : Declaration) :
    canonDeclarationWithin limit classify declaration = canonDeclaration classify declaration ∧
        (∀ procedure, canonDeclaration classify declaration = .ok procedure →
          ¬Unshown limit declaration.leaves) ∨
      Unshown limit declaration.leaves ∧ ∃ overlong,
        canonDeclarationWithin limit classify declaration = .error (.overlong overlong) := by
  cases declaration with
  | bindings keyword bindings => exact .inl ⟨rfl, fun _ h => by cases h⟩
  | function function =>
    have hdraft : CutOff limit _ _ _ := draftFunction_cutOff classify function
    rcases hdraft with ⟨hsame, hform⟩ | ⟨hunshown, overlong, hcut⟩
    · refine .inl ⟨by simp only [canonDeclaration, canonDeclarationWithin, hsame], ?_⟩
      intro procedure h
      obtain ⟨draft, hdraft⟩ := exists_draft h
      exact hform draft hdraft
    · exact .inr ⟨hunshown, overlong, by simp only [canonDeclarationWithin, hcut]⟩

/-- A canonical form within a limit is one without, where no integer is too long. -/
theorem canonDeclarationWithin_eq_ok_iff {classify : Classifier} {declaration : Declaration}
    {procedure : Procedure} :
    canonDeclarationWithin limit classify declaration = .ok procedure ↔
      canonDeclaration classify declaration = .ok procedure ∧
        ¬Unshown limit declaration.leaves := by
  rcases canonDeclarationWithin_cases limit classify declaration with
    ⟨hsame, hform⟩ | ⟨hunshown, overlong, hcut⟩
  · rw [hsame]
    exact ⟨fun h => ⟨h, hform procedure h⟩, fun h => h.1⟩
  · rw [hcut]
    constructor
    · intro h
      cases h
    · rintro ⟨-, hshown⟩
      exact absurd hunshown hshown

end Resumable.Canon
