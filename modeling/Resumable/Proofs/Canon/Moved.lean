import Resumable.Proofs.Canon.Rules

/-!
# Phrases in other places

A canonical form does not tell where its phrases stand. If a declaration is moved, it
has the same canonical form, or it is refused for the same reason and the phrase that is
to blame is moved with it.
-/

namespace Resumable.Source

/-! ## Moving -/

def Name.moved (move : Spot → Spot) (name : Name) : Name :=
  { name with spot := name.spot.map move }

def Keyword.moved (move : Spot → Spot) (keyword : Keyword) : Keyword :=
  { keyword with spot := keyword.spot.map move }

mutual

/-- An expression with each spot in it moved. -/
def Expr.moved (move : Spot → Spot) : Expr → Expr
  | .integer value spot => .integer value (spot.map move)
  | .string value spot => .string value (spot.map move)
  | .identifier name => .identifier (name.moved move)
  | .property target name => .property (target.moved move) (name.moved move)
  | .assignment left right => .assignment (left.moved move) (right.moved move)
  | .call name arguments => .call (name.moved move) (movedExprs move arguments)
  | .methodCall receiver name arguments =>
      .methodCall (receiver.moved move) (name.moved move) (movedExprs move arguments)
  | .throwing keyword value => .throwing (keyword.moved move) (value.moved move)

def movedExprs (move : Spot → Spot) : List Expr → List Expr
  | [] => []
  | expr :: exprs => expr.moved move :: movedExprs move exprs

end

theorem movedExprs_eq (move : Spot → Spot) (exprs : List Expr) :
    movedExprs move exprs = exprs.map (Expr.moved move) := by
  induction exprs with
  | nil => rfl
  | cons expr exprs ih => rw [movedExprs, ih, List.map_cons]

def Variable.moved (move : Spot → Spot) (item : Variable) : Variable :=
  ⟨item.name.moved move, item.initializer.map (Expr.moved move)⟩

mutual

/-- A statement with each spot in it moved. -/
def Stmt.moved (move : Spot → Spot) : Stmt → Stmt
  | .block body => .block (movedStmts move body)
  | .declaration keyword bindings =>
      .declaration (keyword.moved move) (bindings.map (Variable.moved move))
  | .expression value => .expression (value.moved move)
  | .empty spot => .empty (spot.map move)
  | .returning keyword value => .returning (keyword.moved move) (value.map (Expr.moved move))
  | .ifThen keyword condition thenPart =>
      .ifThen (keyword.moved move) (condition.moved move) (thenPart.moved move)
  | .ifElse keyword condition thenPart elsePart =>
      .ifElse (keyword.moved move) (condition.moved move) (thenPart.moved move)
        (elsePart.moved move)
  | .labeled label others body =>
      .labeled (label.moved move) (others.map (Name.moved move)) (body.moved move)
  | .breaking keyword label => .breaking (keyword.moved move) (label.map (Name.moved move))
  | .continuing keyword label => .continuing (keyword.moved move) (label.map (Name.moved move))
  | .whileLoop keyword condition body =>
      .whileLoop (keyword.moved move) (condition.moved move) (body.moved move)
  | .doLoop keyword body condition =>
      .doLoop (keyword.moved move) (body.moved move) (condition.moved move)
  | .attempt keyword body clauses =>
      .attempt (keyword.moved move) (movedStmts move body) (movedClauses move clauses)
  | .attemptFinally keyword body clauses finalizer =>
      .attemptFinally (keyword.moved move) (movedStmts move body) (movedClauses move clauses)
        (movedStmts move finalizer)

def CatchClause.moved (move : Spot → Spot) : CatchClause → CatchClause
  | .mk type exception trace body =>
      .mk (type.map (Name.moved move)) (exception.map (Name.moved move))
        (trace.map (Name.moved move)) (movedStmts move body)

def movedStmts (move : Spot → Spot) : List Stmt → List Stmt
  | [] => []
  | stmt :: stmts => stmt.moved move :: movedStmts move stmts

def movedClauses (move : Spot → Spot) : List CatchClause → List CatchClause
  | [] => []
  | clause :: clauses => clause.moved move :: movedClauses move clauses

end

theorem movedStmts_eq (move : Spot → Spot) (stmts : List Stmt) :
    movedStmts move stmts = stmts.map (Stmt.moved move) := by
  induction stmts with
  | nil => rfl
  | cons stmt stmts ih => rw [movedStmts, ih, List.map_cons]

theorem movedClauses_eq (move : Spot → Spot) (clauses : List CatchClause) :
    movedClauses move clauses = clauses.map (CatchClause.moved move) := by
  induction clauses with
  | nil => rfl
  | cons clause clauses ih => rw [movedClauses, ih, List.map_cons]

def Binder.moved (move : Spot → Spot) (binder : Binder) : Binder :=
  ⟨binder.name.moved move, binder.typeName.map (Name.moved move)⟩

def Parameter.moved (move : Spot → Spot) : Parameter → Parameter
  | .required binder => .required (binder.moved move)
  | .optional binder value => .optional (binder.moved move) (value.map (Expr.moved move))

def Body.moved (move : Spot → Spot) : Body → Body
  | .block statements modifier =>
      .block (movedStmts move statements) (modifier.map (Keyword.moved move))
  | .arrow value modifier => .arrow (value.moved move) (modifier.map (Keyword.moved move))

def Function.moved (move : Spot → Spot) (function : Function) : Function :=
  ⟨function.returnType.map (Name.moved move), function.name.map (Name.moved move),
    function.parameters.map (Parameter.moved move), function.body.moved move⟩

/-- A declaration with each spot in it moved. -/
def Declaration.moved (move : Spot → Spot) : Declaration → Declaration
  | .function it => .function (it.moved move)
  | .bindings keyword items => .bindings (keyword.moved move) (items.map (Variable.moved move))

def Phrase.moved (move : Spot → Spot) : Phrase → Phrase
  | .name it => .name (it.moved move)
  | .keyword it => .keyword (it.moved move)
  | .expr it => .expr (it.moved move)
  | .stmt it => .stmt (it.moved move)
  | .declared it => .declared (it.moved move)
  | .label it => .label (it.moved move)
  | .catchClause it => .catchClause (it.moved move)
  | .parameter it => .parameter (it.moved move)
  | .body it => .body (it.moved move)
  | .declaration it => .declaration (it.moved move)

end Resumable.Source

namespace Resumable.Canon

open Source

/-- A violation whose guilty phrase is moved. -/
def Violation.moved (move : Spot → Spot) (violation : Violation) : Violation :=
  { violation with guilty := violation.guilty.map (Phrase.moved move) }

/-- A halt whose guilty phrase, if it has one, is moved. -/
def Halt.moved (move : Spot → Spot) : Halt → Halt
  | .violation it => .violation (it.moved move)
  | .overlong it => .overlong it

/-- A failure whose guilty phrase, if it has one, is moved. -/
def Failure.moved (move : Spot → Spot) : Failure → Failure
  | .refused refusal => .refused { refusal with violation := refusal.violation.moved move }
  | .misshapen fault => .misshapen fault
  | .overlong it => .overlong it

section Moved

variable (move : Spot → Spot)

/-! ## Expressions and statements -/

mutual

/-- An expression has the canonical form that it has elsewhere. -/
theorem canonExpr_moved : (expr : Expr) →
    FailsAs (Halt.moved move) (canonExpr none expr) (canonExpr none (expr.moved move))
  | .integer _ _ => .ok _
  | .string _ _ => .error _
  | .identifier _ => .ok _
  | .property _ _ => .error _
  | .assignment left right => by
      cases left with
      | identifier name => exact (canonExpr_moved right).map _
      | _ => exact .error _
  | .call name arguments => by
      simp only [Expr.moved, canonExpr, Name.moved]
      cases hop : operator? name.text with
      | none => exact (canonExprs_moved arguments).map _
      | some operator =>
        match arguments with
        | [] => exact .error _
        | [argument] => exact (canonExpr_moved argument).map _
        | _ :: _ :: _ => exact .error _
  | .methodCall _ _ _ => .error _
  | .throwing _ value => (canonExpr_moved value).map _

theorem canonExprs_moved : (exprs : List Expr) →
    FailsAs (Halt.moved move) (canonExprs none exprs) (canonExprs none (movedExprs move exprs))
  | [] => .ok _
  | expr :: exprs => (canonExpr_moved expr).bind fun _ => (canonExprs_moved exprs).map _

end

theorem exceptionOf_moved (clause : CatchClause) :
    FailsAs (Halt.moved move) (exceptionOf clause) (exceptionOf (clause.moved move)) := by
  obtain ⟨_ | type, _ | exception, _ | trace, body⟩ := clause
  case none.some.none => exact .ok _
  all_goals exact .error _

theorem isLoop_moved {stmt : Stmt} : IsLoop (stmt.moved move) ↔ IsLoop stmt := by
  cases stmt <;> exact Iff.rfl

mutual

/-- A statement has the canonical form that it has elsewhere. -/
theorem canonStmt_moved : (stmt : Stmt) →
    FailsAs (Halt.moved move) (canonStmt none stmt) (canonStmt none (stmt.moved move))
  | .block body => (canonStmts_moved body).map _
  | .declaration _ _ => .error _
  | .expression value => (canonExpr_moved move value).map _
  | .empty _ => .error _
  | .returning _ none => .ok _
  | .returning _ (some value) => (canonExpr_moved move value).map _
  | .ifThen _ _ _ => .error _
  | .ifElse _ condition thenPart elsePart =>
      (canonExpr_moved move condition).bind fun _ =>
        (canonStmt_moved thenPart).bind fun _ => (canonStmt_moved elsePart).map _
  | .labeled _ (_ :: _) _ => .error _
  | .labeled label [] body => by
      by_cases hloop : IsLoop body
      · cases body with
        | whileLoop keyword condition body =>
          exact (canonExpr_moved move condition).bind fun _ => (canonStmt_moved body).map _
        | _ => exact hloop.elim
      · -- the label of a loop goes into the loop, and no statement becomes one by moving
        rw [canonStmt_labeled hloop, Stmt.moved, List.map_nil,
          canonStmt_labeled (mt (isLoop_moved move).1 hloop)]
        exact (canonStmt_moved body).map _
  | .breaking _ none => .error _
  | .breaking _ (some _) => .ok _
  | .continuing _ none => .error _
  | .continuing _ (some _) => .ok _
  | .whileLoop _ condition body =>
      (canonExpr_moved move condition).bind fun _ => (canonStmt_moved body).map _
  | .doLoop _ _ _ => .error _
  | .attempt _ _ [] => .error _
  | .attempt _ body [.mk type exception trace handler] =>
      (canonStmts_moved body).bind fun _ =>
        (exceptionOf_moved move (.mk type exception trace handler)).bind fun _ =>
          (canonStmts_moved handler).map _
  | .attempt _ _ (.mk _ _ _ _ :: _ :: _) => .error _
  | .attemptFinally _ body [] finalizer =>
      (canonStmts_moved body).bind fun _ => (canonStmts_moved finalizer).map _
  | .attemptFinally _ _ [_] _ => .error _
  | .attemptFinally _ _ (_ :: _ :: _) _ => .error _

theorem canonStmts_moved : (stmts : List Stmt) →
    FailsAs (Halt.moved move) (canonStmts none stmts) (canonStmts none (movedStmts move stmts))
  | [] => .ok _
  | stmt :: stmts => (canonStmt_moved stmt).bind fun _ => (canonStmts_moved stmts).map _

end

/-! ## Declarations -/

/-- A classifier that does not look at spots. -/
def Classifier.Placeless (classify : Classifier) : Prop :=
  ∀ (move : Spot → Spot) (function : Function) (name : Name),
    FailsAs (Violation.moved move) (classify function name)
      (classify (function.moved move) (name.moved move))

theorem Classifier.byName_placeless : byName.Placeless :=
  fun _ _ _ => .ok _

theorem Classifier.byModifier_placeless : byModifier.Placeless := by
  intro move function name
  have hmodifier : (function.moved move).body.modifier =
      function.body.modifier.map (Keyword.moved move) := by
    obtain ⟨type, name, parameters, body⟩ := function
    cases body <;> rfl
  simp only [byModifier, hmodifier]
  cases function.body.modifier with
  | none => exact .ok _
  | some keyword =>
    simp only [Option.map_some, Keyword.moved]
    split
    · exact .ok _
    · exact .ok _
    · exact .error _

theorem hoist_moved (block : Block) :
    hoist (movedStmts move block) =
      ((hoist block).1.map (Variable.moved move), movedStmts move (hoist block).2) := by
  cases block with
  | nil => rfl
  | cons stmt stmts => cases stmt <;> rfl

theorem canonParameter_moved (parameter : Parameter) :
    FailsAs (Halt.moved move) (canonParameter parameter)
      (canonParameter (parameter.moved move)) := by
  cases parameter with
  | required binder => exact .ok _
  | optional binder value => exact .error _

theorem canonLocal_moved (item : Variable) :
    FailsAs (Halt.moved move) (canonLocal item) (canonLocal (item.moved move)) := by
  obtain ⟨name, _ | value⟩ := item
  · exact .ok _
  · exact .error _

theorem draftFunction_moved {classify : Classifier} (h : classify.Placeless)
    (function : Function) :
    FailsAs (Halt.moved move) (draftFunction none classify function)
      (draftFunction none classify (function.moved move)) := by
  obtain ⟨type, _ | name, parameters, body⟩ := function
  · exact .error _
  · have hkind : FailsAs (Halt.moved move) (Except.mapError .violation _) _ :=
      (h move ⟨type, some name, parameters, body⟩ name).mapError fun _ => rfl
    have hparameters := FailsAs.mapM fun parameter (_ : parameter ∈ parameters) =>
      canonParameter_moved move parameter
    cases body with
    | arrow value modifier => exact hkind.bind fun _ => hparameters.bind fun _ => .error _
    | block block modifier =>
      refine hkind.bind fun _ => hparameters.bind fun _ => ?_
      simp only [Function.moved, Body.moved, hoist_moved]
      have hlocals := FailsAs.mapM fun item (_ : item ∈ (hoist block).1) =>
        canonLocal_moved move item
      exact hlocals.bind fun _ => ((canonStmts_moved move (hoist block).2).map _).map _

/-- A declaration has the canonical form that it has elsewhere, or fails like there. -/
theorem canonDeclaration_moved {classify : Classifier} (h : classify.Placeless)
    (declaration : Declaration) :
    FailsAs (Failure.moved move) (canonDeclaration classify declaration)
      (canonDeclaration classify (declaration.moved move)) := by
  cases declaration with
  | bindings keyword bindings => exact .error _
  | function function =>
    have hname : (function.moved move).name.map (·.text) = function.name.map (·.text) :=
      Option.map_map ..
    have hdraft : draftFunction none classify (function.moved move) =
        (draftFunction none classify function).mapError (Halt.moved move) :=
      draftFunction_moved move h function
    simp only [Declaration.moved, canonDeclaration, canonDeclarationWithin, hdraft, hname]
    cases draftFunction none classify function with
    | error halt => cases halt <;> exact .error _
    | ok draft =>
      simp only [Except.mapError]
      cases FunctionKind.ofText? draft.1 with
      | none => exact .error _
      | some kind => exact .ok _

end Moved

end Resumable.Canon
