import Resumable.Proofs.Canon.Rules

/-!
# The violations in a declaration

A declaration is refused on account of the first violation in it. What is wrong with a
phrase itself comes before what is wrong with its parts, and these come in the order in
which they are written.
-/

namespace Resumable.Canon

open Source

/-! ## Phrases to blame -/

/-- What some violations blame has a property. -/
def Blames (property : Option Phrase → Prop) (violations : List Violation) : Prop :=
  ∀ violation ∈ violations, property violation.guilty

namespace Blames

variable {property : Option Phrase → Prop}

theorem nil : Blames property [] :=
  List.forall_mem_nil _

theorem cons {violation : Violation} {violations : List Violation}
    (h : property violation.guilty) (hmore : Blames property violations) :
    Blames property (violation :: violations) :=
  List.forall_mem_cons.2 ⟨h, hmore⟩

theorem append {violations more : List Violation} (h : Blames property violations)
    (hmore : Blames property more) : Blames property (violations ++ more) :=
  List.forall_mem_append.2 ⟨h, hmore⟩

theorem flatMap {α : Type} {items : List α} {violationsOf : α → List Violation}
    (h : ∀ item ∈ items, Blames property (violationsOf item)) :
    Blames property (items.flatMap violationsOf) := by
  intro violation hviolation
  obtain ⟨item, hitem, hmem⟩ := List.mem_flatMap.1 hviolation
  exact h item hitem violation hmem

end Blames

/-! ## Expressions -/

/-- What is wrong with an expression itself. -/
def ownExprViolations : Expr → List Violation
  | .string value spot => [⟨.stringLiteral, some (.expr (.string value spot))⟩]
  | .property target name => [⟨.propertyAccess, some (.expr (.property target name))⟩]
  | .assignment (.identifier _) _ => []
  | .assignment left right => [⟨.compoundTarget, some (.expr (.assignment left right))⟩]
  | .call name arguments =>
      match operator? name.text, arguments with
      | none, _ | some _, [_] => []
      | some _, _ => [⟨.arity name.text, some (.expr (.call name arguments))⟩]
  | .methodCall receiver name arguments =>
      [⟨.receiver, some (.expr (.methodCall receiver name arguments))⟩]
  | .integer _ _ | .identifier _ | .throwing _ _ => []

theorem blames_ownExprViolations {property : Option Phrase → Prop} {expr : Expr}
    (h : property (some (.expr expr))) : Blames property (ownExprViolations expr) := by
  cases expr with
  | integer _ _ | identifier _ | throwing _ _ => exact .nil
  | string _ _ | property _ _ | methodCall _ _ _ => exact .cons h .nil
  | assignment left right =>
    cases left with
    | identifier name => exact .nil
    | _ => exact .cons h .nil
  | call name arguments =>
    simp only [ownExprViolations]
    split
    · exact .nil
    · exact .nil
    · exact .cons h .nil

mutual

/-- The violations in an expression. -/
def exprViolations : Expr → List Violation
  | .integer value spot => ownExprViolations (.integer value spot)
  | .string value spot => ownExprViolations (.string value spot)
  | .identifier name => ownExprViolations (.identifier name)
  | .property target name => ownExprViolations (.property target name) ++ exprViolations target
  | .assignment left right =>
      ownExprViolations (.assignment left right) ++ (exprViolations left ++ exprViolations right)
  | .call name arguments => ownExprViolations (.call name arguments) ++ exprsViolations arguments
  | .methodCall receiver name arguments =>
      ownExprViolations (.methodCall receiver name arguments) ++
        (exprViolations receiver ++ exprsViolations arguments)
  | .throwing keyword value => ownExprViolations (.throwing keyword value) ++ exprViolations value

/-- The violations in some expressions. -/
def exprsViolations : List Expr → List Violation
  | [] => []
  | expr :: exprs => exprViolations expr ++ exprsViolations exprs

end

theorem exprsViolations_eq (exprs : List Expr) :
    exprsViolations exprs = exprs.flatMap exprViolations := by
  induction exprs with
  | nil => rfl
  | cons expr exprs ih => rw [exprsViolations, ih, List.flatMap_cons]

/-- The violations in a value that may be missing. -/
def valueViolations : Option Expr → List Violation
  | none => []
  | some value => exprViolations value

mutual

/-- An expression is refused on account of the first violation in it. -/
theorem canonExpr_failsFirst :
    (expr : Expr) → FailsFirst .violation (exprViolations expr) (canonExpr none expr)
  | .integer _ _ => .ok _
  | .string _ _ => .error _ _
  | .identifier _ => .ok _
  | .property _ _ => .error _ _
  | .assignment left right => by
      cases left with
      | identifier name => exact (canonExpr_failsFirst right).map _
      | _ => exact .error _ _
  | .call name arguments => by
      simp only [exprViolations, ownExprViolations, canonExpr]
      cases hop : operator? name.text with
      | none => exact (canonExprs_failsFirst arguments).map _
      | some operator =>
        match arguments with
        | [] => exact .error _ _
        | [argument] =>
          simp only [exprsViolations, List.append_nil, List.nil_append]
          exact (canonExpr_failsFirst argument).map _
        | _ :: _ :: _ => exact .error _ _
  | .methodCall _ _ _ => .error _ _
  | .throwing _ value => (canonExpr_failsFirst value).map _

theorem canonExprs_failsFirst :
    (exprs : List Expr) → FailsFirst .violation (exprsViolations exprs) (canonExprs none exprs)
  | [] => .ok _
  | expr :: exprs => by
      rw [exprsViolations, canonExprs]
      exact (canonExpr_failsFirst expr).bind fun _ => (canonExprs_failsFirst exprs).map _

end

/-! ## Statements -/

/-- What is wrong with a local variable. -/
def localViolations (item : Variable) : List Violation :=
  match item.initializer with
  | none => []
  | some value => ⟨.initializedLocal, some (.declared item)⟩ :: exprViolations value

/-- What is wrong with a catch clause itself, where there is only one. -/
def ownClauseViolations (clause : CatchClause) : List Violation :=
  let type := clause.exceptionType.toList.map fun _ => ⟨.exceptionType, some (.catchClause clause)⟩
  let exception := match clause.exception with
    | none => [⟨.missingException, some (.catchClause clause)⟩]
    | some _ => []
  let trace := clause.stackTrace.toList.map fun name => ⟨.stackTrace, some (.name name)⟩
  type ++ exception ++ trace

/-- What is wrong with a statement itself. -/
def ownStmtViolations : Stmt → List Violation
  | .declaration keyword bindings =>
      [⟨.lateDeclaration, some (.stmt (.declaration keyword bindings))⟩]
  | .empty spot => [⟨.emptyStatement, some (.stmt (.empty spot))⟩]
  | .ifThen keyword condition thenPart =>
      [⟨.missingElse, some (.stmt (.ifThen keyword condition thenPart))⟩]
  | .labeled _ (second :: _) _ => [⟨.multipleLabels, some (.label second)⟩]
  | .breaking keyword none => [⟨.unlabeledBreak, some (.stmt (.breaking keyword none))⟩]
  | .continuing keyword none => [⟨.unlabeledContinue, some (.stmt (.continuing keyword none))⟩]
  | .doLoop keyword body condition => [⟨.doLoop, some (.stmt (.doLoop keyword body condition))⟩]
  | .attempt keyword body [] => [⟨.bareTry, some (.stmt (.attempt keyword body []))⟩]
  | .attempt _ _ (_ :: second :: _) => [⟨.multipleClauses, some (.catchClause second)⟩]
  | .attemptFinally keyword body [clause] finalizer =>
      [⟨.catchAndFinally, some (.stmt (.attemptFinally keyword body [clause] finalizer))⟩]
  | .attemptFinally _ _ (_ :: second :: _) _ => [⟨.multipleClauses, some (.catchClause second)⟩]
  | _ => []

mutual

/-- The violations in a statement. -/
def stmtViolations : Stmt → List Violation
  | .block body => stmtsViolations body
  | .declaration keyword bindings =>
      ownStmtViolations (.declaration keyword bindings) ++ bindings.flatMap localViolations
  | .expression value => exprViolations value
  | .empty spot => ownStmtViolations (.empty spot)
  | .returning _ value => valueViolations value
  | .ifThen keyword condition thenPart =>
      ownStmtViolations (.ifThen keyword condition thenPart) ++
        (exprViolations condition ++ stmtViolations thenPart)
  | .ifElse _ condition thenPart elsePart =>
      exprViolations condition ++ (stmtViolations thenPart ++ stmtViolations elsePart)
  | .labeled label others body =>
      ownStmtViolations (.labeled label others body) ++ stmtViolations body
  | .breaking keyword label => ownStmtViolations (.breaking keyword label)
  | .continuing keyword label => ownStmtViolations (.continuing keyword label)
  | .whileLoop _ condition body => exprViolations condition ++ stmtViolations body
  | .doLoop keyword body condition =>
      ownStmtViolations (.doLoop keyword body condition) ++
        (stmtViolations body ++ exprViolations condition)
  | .attempt keyword body clauses =>
      ownStmtViolations (.attempt keyword body clauses) ++
        (stmtsViolations body ++ clausesViolations clauses)
  | .attemptFinally keyword body clauses finalizer =>
      ownStmtViolations (.attemptFinally keyword body clauses finalizer) ++
        (stmtsViolations body ++ (clausesViolations clauses ++ stmtsViolations finalizer))

/-- The violations in some statements. -/
def stmtsViolations : List Stmt → List Violation
  | [] => []
  | stmt :: stmts => stmtViolations stmt ++ stmtsViolations stmts

/-- The violations in a catch clause. -/
def clauseViolations : CatchClause → List Violation
  | .mk type exception trace body =>
      ownClauseViolations (.mk type exception trace body) ++ stmtsViolations body

/-- The violations in some catch clauses. -/
def clausesViolations : List CatchClause → List Violation
  | [] => []
  | clause :: clauses => clauseViolations clause ++ clausesViolations clauses

end

theorem stmtsViolations_eq (stmts : List Stmt) :
    stmtsViolations stmts = stmts.flatMap stmtViolations := by
  induction stmts with
  | nil => rfl
  | cons stmt stmts ih => rw [stmtsViolations, ih, List.flatMap_cons]

theorem clausesViolations_eq (clauses : List CatchClause) :
    clausesViolations clauses = clauses.flatMap clauseViolations := by
  induction clauses with
  | nil => rfl
  | cons clause clauses ih => rw [clausesViolations, ih, List.flatMap_cons]

theorem exceptionOf_failsFirst (clause : CatchClause) :
    FailsFirst .violation (ownClauseViolations clause) (exceptionOf clause) := by
  obtain ⟨_ | type, _ | exception, _ | trace, body⟩ := clause
  case none.some.none => exact .ok _
  all_goals exact .error _ _

mutual

/-- A statement is refused on account of the first violation in it. -/
theorem canonStmt_failsFirst :
    (stmt : Stmt) → FailsFirst .violation (stmtViolations stmt) (canonStmt none stmt)
  | .block body => (canonStmts_failsFirst body).map _
  | .declaration _ _ => .error _ _
  | .expression value => (canonExpr_failsFirst value).map _
  | .empty _ => .error _ _
  | .returning _ none => .ok _
  | .returning _ (some value) => (canonExpr_failsFirst value).map _
  | .ifThen _ _ _ => .error _ _
  | .ifElse _ condition thenPart elsePart =>
      (canonExpr_failsFirst condition).bind fun _ =>
        (canonStmt_failsFirst thenPart).bind fun _ => (canonStmt_failsFirst elsePart).map _
  | .labeled _ (_ :: _) _ => .error _ _
  | .labeled label [] body => by
      by_cases hloop : IsLoop body
      · cases body with
        | whileLoop keyword condition body =>
          exact (canonExpr_failsFirst condition).bind fun _ => (canonStmt_failsFirst body).map _
        | _ => exact hloop.elim
      · rw [canonStmt_labeled hloop]
        exact (canonStmt_failsFirst body).map _
  | .breaking _ none => .error _ _
  | .breaking _ (some _) => .ok _
  | .continuing _ none => .error _ _
  | .continuing _ (some _) => .ok _
  | .whileLoop _ condition body =>
      (canonExpr_failsFirst condition).bind fun _ => (canonStmt_failsFirst body).map _
  | .doLoop _ _ _ => .error _ _
  | .attempt _ _ [] => .error _ _
  | .attempt _ body [.mk type exception trace handler] => by
      have hclause : clausesViolations [.mk type exception trace handler] =
          ownClauseViolations (.mk type exception trace handler) ++ stmtsViolations handler := by
        simp only [clausesViolations, clauseViolations, List.append_nil]
      rw [stmtViolations, hclause]
      exact (canonStmts_failsFirst body).bind fun _ =>
        (exceptionOf_failsFirst _).bind fun _ => (canonStmts_failsFirst handler).map _
  | .attempt _ _ (.mk _ _ _ _ :: _ :: _) => .error _ _
  | .attemptFinally _ body [] finalizer =>
      (canonStmts_failsFirst body).bind fun _ => (canonStmts_failsFirst finalizer).map _
  | .attemptFinally _ _ [_] _ => .error _ _
  | .attemptFinally _ _ (_ :: _ :: _) _ => .error _ _

theorem canonStmts_failsFirst :
    (stmts : List Stmt) → FailsFirst .violation (stmtsViolations stmts) (canonStmts none stmts)
  | [] => .ok _
  | stmt :: stmts =>
      (canonStmt_failsFirst stmt).bind fun _ => (canonStmts_failsFirst stmts).map _

end

/-! ## Declarations -/

/-- What is wrong with a parameter. -/
def parameterViolations : Parameter → List Violation
  | .required _ => []
  | .optional binder default =>
      ⟨.optionalParameter, some (.parameter (.optional binder default))⟩ :: valueViolations default

/-- What is wrong with the body of a function. -/
def bodyViolations : Body → List Violation
  | .arrow value modifier =>
      ⟨.arrowBody, some (.body (.arrow value modifier))⟩ :: exprViolations value
  | .block block _ => (hoist block).1.flatMap localViolations ++ stmtsViolations (hoist block).2

/-- A function without a name cannot be classified, and a classifier may refuse one that
has a name. -/
def kindViolations (classify : Classifier) (function : Function) : List Violation :=
  match function.name with
  | none => [⟨.unnamedFunction, some (.declaration (.function function))⟩]
  | some name =>
      match classify function name with
      | .ok _ => []
      | .error violation => [violation]

/-- The violations in a declaration. -/
def declarationViolations (classify : Classifier) : Declaration → List Violation
  | .function function =>
      kindViolations classify function ++
        (function.parameters.flatMap parameterViolations ++ bodyViolations function.body)
  | .bindings keyword bindings =>
      ⟨.topLevelVariable, some (.declaration (.bindings keyword bindings))⟩ ::
        bindings.flatMap fun item => valueViolations item.initializer

theorem canonParameter_failsFirst (parameter : Parameter) :
    FailsFirst .violation (parameterViolations parameter) (canonParameter parameter) := by
  cases parameter with
  | required binder => exact .ok _
  | optional binder default => exact .error _ _

theorem canonLocal_failsFirst (item : Variable) :
    FailsFirst .violation (localViolations item) (canonLocal item) := by
  obtain ⟨name, _ | value⟩ := item
  · exact .ok _
  · exact .error _ _

theorem classify_failsFirst {classify : Classifier} {function : Function} {name : Name}
    (h : function.name = some name) :
    FailsFirst Halt.violation (kindViolations classify function)
      ((classify function name).mapError .violation) := by
  simp only [kindViolations, h]
  cases classify function name with
  | ok tag => exact .ok tag
  | error violation => exact .error _ _

/-- A function is refused on account of the first violation in it. -/
theorem draftFunction_failsFirst (classify : Classifier) (function : Function) :
    FailsFirst .violation (declarationViolations classify (.function function))
      (draftFunction none classify function) := by
  obtain ⟨type, _ | name, parameters, body⟩ := function
  · exact .error _ _
  · refine (classify_failsFirst rfl).bind fun tag => ?_
    refine (FailsFirst.mapM fun parameter _ => canonParameter_failsFirst parameter).bind fun _ => ?_
    cases body with
    | arrow value modifier => exact .error _ _
    | block block modifier =>
      refine (FailsFirst.mapM fun item _ => canonLocal_failsFirst item).bind fun _ => ?_
      exact ((canonStmts_failsFirst _).map _).map _

/-- The name of the function that is declared, if a function is declared. -/
def declaredName : Declaration → Option String
  | .function function => function.name.map (·.text)
  | .bindings _ _ => none

/-- What a declaration is refused for is a violation in it. -/
theorem mem_declarationViolations {classify : Classifier} {declaration : Declaration}
    {refusal : Refusal} (h : canonDeclaration classify declaration = .error (.refused refusal)) :
    refusal.violation ∈ declarationViolations classify declaration ∧
      refusal.within = declaredName declaration := by
  cases declaration with
  | bindings keyword bindings =>
    cases h
    exact ⟨List.mem_cons_self, rfl⟩
  | function function =>
    have hdraft := draftFunction_failsFirst classify function
    rw [canonDeclaration, canonDeclarationWithin] at h
    split at h
    · next violation hviolation =>
      cases h
      rw [hviolation] at hdraft
      obtain ⟨_, hmem, ⟨⟩⟩ := hdraft.mem
      exact ⟨hmem, rfl⟩
    · cases h
    · split at h <;> cases h

end Resumable.Canon
