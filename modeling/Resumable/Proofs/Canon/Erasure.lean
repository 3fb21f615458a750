import Resumable.Proofs.Canon.Rules
import Resumable.Proofs.Canon.Shape

/-!
# What a canonical tree forgets

Erasing takes from a declaration what no canonical tree shows: the spots, the
spelling of keywords, the types, the marker of the body, and a first statement
that declares no variable. All the rest can be read off the tree: `restore`
rebuilds the erased declaration from the canonical procedure, so two
declarations with the same tree differ only in what is erased.
-/

namespace Resumable.Source

/-! ## Erasing -/

/-- The spot of a name is not kept. -/
def Name.erase (name : Name) : Name := ⟨name.text, none⟩

/-- Neither the spelling nor the spot of a keyword is kept. -/
def Keyword.erase (_ : Keyword) : Keyword := ⟨"", none⟩

mutual

def Expr.erase : Expr → Expr
  | .integer value _ => .integer value none
  | .string value _ => .string value none
  | .identifier name => .identifier name.erase
  | .property target name => .property target.erase name.erase
  | .assignment left right => .assignment left.erase right.erase
  | .call name arguments => .call name.erase (eraseExprs arguments)
  | .methodCall receiver name arguments =>
      .methodCall receiver.erase name.erase (eraseExprs arguments)
  | .throwing keyword value => .throwing keyword.erase value.erase

def eraseExprs : List Expr → List Expr
  | [] => []
  | expr :: exprs => expr.erase :: eraseExprs exprs

end

def Variable.erase (item : Variable) : Variable :=
  ⟨item.name.erase, item.initializer.map Expr.erase⟩

mutual

def Stmt.erase : Stmt → Stmt
  | .block body => .block (eraseStmts body)
  | .declaration keyword bindings => .declaration keyword.erase (bindings.map Variable.erase)
  | .expression value => .expression value.erase
  | .empty _ => .empty none
  | .returning keyword value => .returning keyword.erase (value.map Expr.erase)
  | .ifThen keyword condition thenPart => .ifThen keyword.erase condition.erase thenPart.erase
  | .ifElse keyword condition thenPart elsePart =>
      .ifElse keyword.erase condition.erase thenPart.erase elsePart.erase
  | .labeled label others body => .labeled label.erase (others.map Name.erase) body.erase
  | .breaking keyword label => .breaking keyword.erase (label.map Name.erase)
  | .continuing keyword label => .continuing keyword.erase (label.map Name.erase)
  | .whileLoop keyword condition body => .whileLoop keyword.erase condition.erase body.erase
  | .doLoop keyword body condition => .doLoop keyword.erase body.erase condition.erase
  | .attempt keyword body clauses =>
      .attempt keyword.erase (eraseStmts body) (eraseClauses clauses)
  | .attemptFinally keyword body clauses finalizer =>
      .attemptFinally keyword.erase (eraseStmts body) (eraseClauses clauses)
        (eraseStmts finalizer)

def CatchClause.erase : CatchClause → CatchClause
  | .mk type exception trace body =>
      .mk (type.map Name.erase) (exception.map Name.erase) (trace.map Name.erase)
        (eraseStmts body)

def eraseStmts : List Stmt → List Stmt
  | [] => []
  | stmt :: stmts => stmt.erase :: eraseStmts stmts

def eraseClauses : List CatchClause → List CatchClause
  | [] => []
  | clause :: clauses => clause.erase :: eraseClauses clauses

end

/-- A body without a first statement that declares no variable. -/
def dropBareDeclaration : Block → Block
  | .declaration _ [] :: statements => statements
  | statements => statements

/-- The type of a parameter is not kept. -/
def Binder.erase (binder : Binder) : Binder := ⟨binder.name.erase, none⟩

def Parameter.erase : Parameter → Parameter
  | .required binder => .required binder.erase
  | .optional binder value => .optional binder.erase (value.map Expr.erase)

/-- The marker of a body is not kept. -/
def Body.erase : Body → Body
  | .block statements _ => .block (eraseStmts (dropBareDeclaration statements)) none
  | .arrow value _ => .arrow value.erase none

/-- The return type of a function is not kept. -/
def Function.erase (function : Function) : Function :=
  ⟨none, function.name.map Name.erase, function.parameters.map Parameter.erase,
    function.body.erase⟩

def Declaration.erase : Declaration → Declaration
  | .function it => .function it.erase
  | .bindings keyword items => .bindings keyword.erase (items.map Variable.erase)

end Resumable.Source

namespace Resumable.Canon

open Source

/-! ## Restoring -/

mutual

/-- The expression of a canonical node, without spots. -/
def Node.restoreExpr : Node → Expr
  | .constant text => .integer (text.toInt?.getD 0) none
  | .reference name => .identifier (bareName name)
  | .assignment name value => .assignment (.identifier (bareName name)) value.restoreExpr
  | .call name arguments => .call (bareName name) (restoreExprs arguments)
  | .await value => .call (bareName "await") [value.restoreExpr]
  | .yield value => .call (bareName "yield") [value.restoreExpr]
  | .yieldStar value => .call (bareName "yieldStar") [value.restoreExpr]
  | .throwing value => .throwing bareKeyword value.restoreExpr
  | _ => default

def restoreExprs : List Node → List Expr
  | [] => []
  | node :: nodes => node.restoreExpr :: restoreExprs nodes

end

mutual

/-- The statement of a canonical node, without spots. -/
def Node.restoreStmt : Node → Stmt
  | .block statements => .block (restoreStmts statements)
  | .expression value => .expression value.restoreExpr
  | .yield value => .expression (.call (bareName "yield") [value.restoreExpr])
  | .yieldStar value => .expression (.call (bareName "yieldStar") [value.restoreExpr])
  | .returning value => .returning bareKeyword (some value.restoreExpr)
  | .yieldBreak => .returning bareKeyword none
  | .conditional condition thenPart elsePart =>
      .ifElse bareKeyword condition.restoreExpr thenPart.restoreStmt elsePart.restoreStmt
  | .labeled label statement => .labeled (bareName label) [] statement.restoreStmt
  | .breaking label => .breaking bareKeyword (some (bareName label))
  | .continuing label => .continuing bareKeyword (some (bareName label))
  | .loop none condition body => .whileLoop bareKeyword condition.restoreExpr body.restoreStmt
  | .loop (some label) condition body =>
      .labeled (bareName label) [] (.whileLoop bareKeyword condition.restoreExpr body.restoreStmt)
  | .tryCatch (.block body) exception (.block handler) =>
      .attempt bareKeyword (restoreStmts body)
        [.mk none (some (bareName exception)) none (restoreStmts handler)]
  | .tryFinally (.block body) (.block finalizer) =>
      .attemptFinally bareKeyword (restoreStmts body) [] (restoreStmts finalizer)
  | _ => default

def restoreStmts : List Node → List Stmt
  | [] => []
  | node :: nodes => node.restoreStmt :: restoreStmts nodes

end

/-- The declaration of some locals, if there are any. -/
def declareLocals : List String → Block
  | [] => []
  | names => [.declaration bareKeyword (names.map fun text => ⟨bareName text, none⟩)]

/-- The statements of a canonical block, without spots. -/
def restoreBody : Node → Block
  | .block statements => restoreStmts statements
  | _ => []

/-- The function of a canonical procedure, without spots, types and marker. -/
def Procedure.restore (it : Procedure) : Function :=
  ⟨none, some (bareName it.name), it.parameters.map fun text => .required ⟨bareName text, none⟩,
    .block (declareLocals it.locals ++ restoreBody it.body) none⟩

/-! ## Restoring undoes canonicalizing -/

mutual

theorem ExprForm.restoreExpr {expr : Expr} {node : Node} :
    ExprForm expr node → node.restoreExpr = expr.erase
  | .integer => by rw [Node.restoreExpr, Int.toInt?_repr, Expr.erase]; rfl
  | .identifier => rfl
  | .assignment h => by rw [Node.restoreExpr, h.restoreExpr]; rfl
  | .call _ h => by rw [Node.restoreExpr, h.restoreExprs]; rfl
  | .await hname h => by rw [Node.restoreExpr, h.restoreExpr, ← hname]; rfl
  | .yield hname h => by rw [Node.restoreExpr, h.restoreExpr, ← hname]; rfl
  | .yieldStar hname h => by rw [Node.restoreExpr, h.restoreExpr, ← hname]; rfl
  | .throwing h => by rw [Node.restoreExpr, h.restoreExpr]; rfl

theorem ExprsForm.restoreExprs {exprs : List Expr} {nodes : List Node} :
    ExprsForm exprs nodes → restoreExprs nodes = eraseExprs exprs
  | .nil => rfl
  | .cons h hs => by rw [Canon.restoreExprs, h.restoreExpr, hs.restoreExprs]; rfl

end

theorem ExprForm.restoreStmt {expr : Expr} {node : Node} (h : ExprForm expr node) :
    (statementOf node).restoreStmt = .expression expr.erase := by
  rw [← h.restoreExpr]
  cases h <;> rfl

mutual

theorem StmtForm.restoreStmt {stmt : Stmt} {node : Node} :
    StmtForm stmt node → node.restoreStmt = stmt.erase
  | .block h => by rw [Node.restoreStmt, h.restoreStmts, Stmt.erase]
  | .expression h => by rw [h.restoreStmt, Stmt.erase]
  | .yieldBreak => by rw [Node.restoreStmt, Stmt.erase]; rfl
  | .returning h => by rw [Node.restoreStmt, h.restoreExpr, Stmt.erase]; rfl
  | .conditional hc ht he => by
      rw [Node.restoreStmt, hc.restoreExpr, ht.restoreStmt, he.restoreStmt, Stmt.erase]; rfl
  | .labeled _ h => by rw [Node.restoreStmt, h.restoreStmt, Stmt.erase]; rfl
  | .labeledLoop hc hb => by
      rw [Node.restoreStmt, hc.restoreExpr, hb.restoreStmt, Stmt.erase, Stmt.erase]; rfl
  | .loop hc hb => by rw [Node.restoreStmt, hc.restoreExpr, hb.restoreStmt, Stmt.erase]; rfl
  | .breaking => by rw [Node.restoreStmt, Stmt.erase]; rfl
  | .continuing => by rw [Node.restoreStmt, Stmt.erase]; rfl
  | .tryCatch hb hh => by
      rw [Node.restoreStmt, hb.restoreStmts, hh.restoreStmts, Stmt.erase, eraseClauses,
        CatchClause.erase, eraseClauses]
      rfl
  | .tryFinally hb hf => by
      rw [Node.restoreStmt, hb.restoreStmts, hf.restoreStmts, Stmt.erase, eraseClauses]
      rfl

theorem StmtsForm.restoreStmts {stmts : List Stmt} {nodes : List Node} :
    StmtsForm stmts nodes → restoreStmts nodes = eraseStmts stmts
  | .nil => by rw [Canon.restoreStmts, eraseStmts]
  | .cons h hs => by rw [Canon.restoreStmts, h.restoreStmt, hs.restoreStmts, eraseStmts]

end

theorem hoist_cases (body : Block) :
    (∃ keyword bindings statements, body = .declaration keyword bindings :: statements) ∨
      hoist body = ([], body) ∧ dropBareDeclaration body = body := by
  cases body with
  | nil => exact .inr ⟨rfl, rfl⟩
  | cons stmt statements =>
    cases stmt with
    | declaration keyword bindings => exact .inl ⟨keyword, bindings, statements, rfl⟩
    | _ => exact .inr ⟨rfl, rfl⟩

/-- The body with its locals declared by the first statement, or by none. -/
theorem restore_body {body : Block} {locals : List Name} {nodes : List Node}
    (hlocals : (hoist body).1 = locals.map (⟨·, none⟩)) (hform : StmtsForm (hoist body).2 nodes) :
    declareLocals (locals.map (·.text)) ++ restoreStmts nodes =
      eraseStmts (dropBareDeclaration body) := by
  rw [hform.restoreStmts]
  obtain ⟨keyword, bindings, statements, rfl⟩ | ⟨hhoist, hdrop⟩ := hoist_cases body
  · -- the first statement declares the locals, and it is dropped if there are none
    change bindings = _ at hlocals
    subst hlocals
    cases locals with
    | nil => rfl
    | cons name names =>
      simp only [List.map_cons, declareLocals, dropBareDeclaration, hoist, eraseStmts, Stmt.erase,
        List.map_map]
      rfl
  · rw [hhoist] at hlocals
    rw [List.map_eq_nil_iff.mp hlocals.symm, hhoist, hdrop]
    rfl

theorem FunctionForm.restore {classify : Classifier} {function : Function} {procedure : Procedure}
    (h : FunctionForm classify function procedure) : procedure.restore = function.erase := by
  obtain @⟨type, name, binders, body, modifier, tag, kind, locals, nodes, -, -, hlocals,
    hstatements⟩ := h
  simp only [Procedure.restore, blockFunction, Function.erase, Body.erase, restoreBody,
    restore_body hlocals hstatements, Option.map_some, List.map_map]
  rfl

/-- Two declarations with the same canonical tree are the same but for what is
erased, whatever told their kinds. -/
theorem erase_eq_of_toTree_eq {classify classify' : Classifier} {first second : Declaration}
    {procedure procedure' : Procedure}
    (hfirst : canonDeclaration classify first = .ok procedure)
    (hsecond : canonDeclaration classify' second = .ok procedure')
    (htree : procedure.toTree = procedure'.toTree) : first.erase = second.erase := by
  obtain ⟨function, rfl, hform⟩ := canonDeclaration_eq_ok.mp hfirst
  obtain ⟨function', rfl, hform'⟩ := canonDeclaration_eq_ok.mp hsecond
  have hnode : procedure.toNode = procedure'.toNode := toTree_injective htree
  have hprocedure : procedure = procedure' := by
    obtain ⟨kind, name, parameters, locals, body⟩ := procedure
    obtain ⟨kind', name', parameters', locals', body'⟩ := procedure'
    simpa [Procedure.toNode] using hnode
  rw [Declaration.erase, Declaration.erase, ← hform.restore, ← hform'.restore, hprocedure]

/-- The types, the marker, the spots and the declaration of no variable are all
that tells these two functions apart. -/
theorem erase_eq_of_typed_and_marked :
    let typed : Declaration := .function ⟨some ⟨"int", some ⟨0, 3⟩⟩, some ⟨"f", some ⟨4, 5⟩⟩,
      [.required ⟨⟨"x", some ⟨10, 11⟩⟩, some ⟨"num", some ⟨6, 9⟩⟩⟩],
      .block [.declaration ⟨"var", some ⟨20, 23⟩⟩ [],
        .expression (.call ⟨"yield", some ⟨25, 30⟩⟩ [.identifier ⟨"x", some ⟨31, 32⟩⟩])]
        (some ⟨"async", some ⟨13, 18⟩⟩)⟩
    let plain : Declaration := .function ⟨none, some ⟨"f", none⟩, [.required ⟨⟨"x", none⟩, none⟩],
      .block [.expression (.call ⟨"yield", none⟩ [.identifier ⟨"x", none⟩])] none⟩
    let procedure : Procedure := ⟨.sync, "f", ["x"], [], .block [.yield (.reference "x")]⟩
    canonDeclaration Classifier.byName typed = .ok procedure ∧
      canonDeclaration Classifier.byName plain = .ok procedure ∧ typed.erase = plain.erase := by
  intro typed plain procedure
  have htyped : canonDeclaration Classifier.byName typed = .ok procedure := rfl
  have hplain : canonDeclaration Classifier.byName plain = .ok procedure := rfl
  exact ⟨htyped, hplain, erase_eq_of_toTree_eq htyped hplain rfl⟩

end Resumable.Canon
