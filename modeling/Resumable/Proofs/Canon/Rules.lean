import Resumable.Canon.Canonicalize
import Resumable.Proofs.Except

/-!
# The rules of canonical form

`ExprForm` and `StmtForm` say which source phrases have a canonical form and
which one it is, one rule for each way to succeed. The functions that compute
canonical forms succeed exactly along these rules.
-/

namespace Resumable.Canon

open Source

/-- The occurrence of a name in no text. -/
def bareName (text : String) : Name := ⟨text, none⟩

/-- A reserved word in no text. -/
def bareKeyword : Keyword := ⟨"", none⟩

/-! ## Expressions -/

/-- The names whose calls are operators. -/
def operatorNames : List String := ["await", "yield", "yieldStar"]

theorem operator?_eq_none {name : String} : operator? name = none ↔ name ∉ operatorNames := by
  unfold operator?
  split <;> simp_all [operatorNames]

theorem operator?_eq_some {name : String} {operator : Node → Node}
    (h : operator? name = some operator) :
    name = "await" ∧ operator = .await ∨ name = "yield" ∧ operator = .yield ∨
      name = "yieldStar" ∧ operator = .yieldStar := by
  unfold operator? at h
  split at h <;> simp_all

@[simp] theorem blame_eq_ok {α : Type} {reason : Reason} {phrase : Phrase} {result : α} :
    blame reason phrase = .ok result ↔ False :=
  iff_of_false nofun id

/-- Without a limit every integer is shown. -/
theorem canonExpr_integer (value : Int) (spot : Option Spot) :
    canonExpr none (.integer value spot) = .ok (.constant value.repr) := rfl

mutual

/-- A node is the canonical form of an expression. -/
inductive ExprForm : Expr → Node → Prop where
  | integer {value spot} : ExprForm (.integer value spot) (.constant value.repr)
  | identifier {name} : ExprForm (.identifier name) (.reference name.text)
  | assignment {name right node} (right_form : ExprForm right node) :
      ExprForm (.assignment (.identifier name) right) (.assignment name.text node)
  | call {name arguments nodes} (plain : name.text ∉ operatorNames)
      (arguments_form : ExprsForm arguments nodes) :
      ExprForm (.call name arguments) (.call name.text nodes)
  | await {name argument node} (named : name.text = "await")
      (argument_form : ExprForm argument node) : ExprForm (.call name [argument]) (.await node)
  | yield {name argument node} (named : name.text = "yield")
      (argument_form : ExprForm argument node) : ExprForm (.call name [argument]) (.yield node)
  | yieldStar {name argument node} (named : name.text = "yieldStar")
      (argument_form : ExprForm argument node) : ExprForm (.call name [argument]) (.yieldStar node)
  | throwing {keyword value node} (value_form : ExprForm value node) :
      ExprForm (.throwing keyword value) (.throwing node)

/-- Nodes are the canonical forms of expressions, one by one. -/
inductive ExprsForm : List Expr → List Node → Prop where
  | nil : ExprsForm [] []
  | cons {expr exprs node nodes} (first : ExprForm expr node) (rest : ExprsForm exprs nodes) :
      ExprsForm (expr :: exprs) (node :: nodes)

end

mutual

theorem ExprForm.of_canonExpr : (expr : Expr) → {node : Node} → canonExpr none expr = .ok node →
    ExprForm expr node
  | .integer _ _, _, h => by
      simp only [canonExpr_integer, Except.ok.injEq] at h
      exact h ▸ .integer
  | .string _ _, _, h => by simp [canonExpr, blameExpr] at h
  | .identifier _, _, h => by
      simp only [canonExpr, Except.ok.injEq] at h
      exact h ▸ .identifier
  | .property _ _, _, h => by simp [canonExpr, blameExpr] at h
  | .assignment left right, _, h => by
      cases left with
      | identifier name =>
          simp only [canonExpr, bind_eq_ok, pure_eq_ok] at h
          obtain ⟨node, hright, rfl⟩ := h
          exact .assignment (.of_canonExpr right hright)
      | _ => simp [canonExpr, blameExpr] at h
  | .call name arguments, _, h => by
      cases hop : operator? name.text with
      | none =>
          simp only [canonExpr, hop, bind_eq_ok, pure_eq_ok] at h
          obtain ⟨nodes, hargs, rfl⟩ := h
          exact .call (operator?_eq_none.mp hop) (.of_canonExprs arguments hargs)
      | some operator =>
          match arguments, h with
          | [], h => simp [canonExpr, hop, blameExpr] at h
          | [argument], h =>
              simp only [canonExpr, hop, bind_eq_ok, pure_eq_ok] at h
              obtain ⟨node, harg, rfl⟩ := h
              have hform := ExprForm.of_canonExpr argument harg
              obtain ⟨hname, rfl⟩ | ⟨hname, rfl⟩ | ⟨hname, rfl⟩ := operator?_eq_some hop
              · exact .await hname hform
              · exact .yield hname hform
              · exact .yieldStar hname hform
          | _ :: _ :: _, h => simp [canonExpr, hop, blameExpr] at h
  | .methodCall _ _ _, _, h => by simp [canonExpr, blameExpr] at h
  | .throwing _ value, _, h => by
      simp only [canonExpr, bind_eq_ok, pure_eq_ok] at h
      obtain ⟨node, hvalue, rfl⟩ := h
      exact .throwing (.of_canonExpr value hvalue)

theorem ExprsForm.of_canonExprs : (exprs : List Expr) → {nodes : List Node} →
    canonExprs none exprs = .ok nodes → ExprsForm exprs nodes
  | [], _, h => by
      simp only [canonExprs, Except.ok.injEq] at h
      exact h ▸ .nil
  | expr :: exprs, _, h => by
      simp only [canonExprs, bind_eq_ok, pure_eq_ok] at h
      obtain ⟨node, hfirst, nodes, hrest, rfl⟩ := h
      exact .cons (.of_canonExpr expr hfirst) (.of_canonExprs exprs hrest)

end

mutual

theorem ExprForm.canonExpr {expr : Expr} {node : Node} :
    ExprForm expr node → canonExpr none expr = .ok node
  | .integer => rfl
  | .identifier => rfl
  | .assignment h => by simp only [Canon.canonExpr, h.canonExpr]; rfl
  | .call hname h => by
      simp only [Canon.canonExpr, operator?_eq_none.mpr hname, h.canonExprs]; rfl
  | .await hname h => by simp only [Canon.canonExpr, hname, operator?, h.canonExpr]; rfl
  | .yield hname h => by simp only [Canon.canonExpr, hname, operator?, h.canonExpr]; rfl
  | .yieldStar hname h => by simp only [Canon.canonExpr, hname, operator?, h.canonExpr]; rfl
  | .throwing h => by simp only [Canon.canonExpr, h.canonExpr]; rfl

theorem ExprsForm.canonExprs {exprs : List Expr} {nodes : List Node} :
    ExprsForm exprs nodes → canonExprs none exprs = .ok nodes
  | .nil => rfl
  | .cons h hs => by simp only [Canon.canonExprs, h.canonExpr, hs.canonExprs]; rfl

end

theorem canonExpr_eq_ok {expr : Expr} {node : Node} :
    canonExpr none expr = .ok node ↔ ExprForm expr node :=
  ⟨.of_canonExpr expr, fun h => h.canonExpr⟩

/-! ## Statements -/

/-- A statement is a loop. A label before it becomes the label of the loop. -/
def IsLoop : Stmt → Prop
  | .whileLoop _ _ _ => True
  | _ => False

theorem exceptionOf_eq_ok {clause : CatchClause} {text : String} :
    exceptionOf clause = .ok text ↔
      ∃ name body, clause = .mk none (some name) none body ∧ name.text = text := by
  obtain ⟨_ | type, _ | name, _ | trace, body⟩ := clause <;>
    simp [exceptionOf, CatchClause.exceptionType, CatchClause.exception, CatchClause.stackTrace]

mutual

/-- A node is the canonical form of a statement. -/
inductive StmtForm : Stmt → Node → Prop where
  | block {body nodes} (body_form : StmtsForm body nodes) : StmtForm (.block body) (.block nodes)
  | expression {value node} (value_form : ExprForm value node) :
      StmtForm (.expression value) (statementOf node)
  | yieldBreak {keyword} : StmtForm (.returning keyword none) .yieldBreak
  | returning {keyword value node} (value_form : ExprForm value node) :
      StmtForm (.returning keyword (some value)) (.returning node)
  | conditional {keyword condition thenPart elsePart test first second}
      (condition_form : ExprForm condition test) (then_form : StmtForm thenPart first)
      (else_form : StmtForm elsePart second) :
      StmtForm (.ifElse keyword condition thenPart elsePart) (.conditional test first second)
  | labeled {label body node} (other : ¬ IsLoop body) (body_form : StmtForm body node) :
      StmtForm (.labeled label [] body) (.labeled label.text node)
  | labeledLoop {label keyword condition body test node} (condition_form : ExprForm condition test)
      (body_form : StmtForm body node) :
      StmtForm (.labeled label [] (.whileLoop keyword condition body))
        (.loop (some label.text) test node)
  | loop {keyword condition body test node} (condition_form : ExprForm condition test)
      (body_form : StmtForm body node) :
      StmtForm (.whileLoop keyword condition body) (.loop none test node)
  | breaking {keyword label} : StmtForm (.breaking keyword (some label)) (.breaking label.text)
  | continuing {keyword label} :
      StmtForm (.continuing keyword (some label)) (.continuing label.text)
  | tryCatch {keyword body name handler nodes others} (body_form : StmtsForm body nodes)
      (handler_form : StmtsForm handler others) :
      StmtForm (.attempt keyword body [.mk none (some name) none handler])
        (.tryCatch (.block nodes) name.text (.block others))
  | tryFinally {keyword body finalizer nodes others} (body_form : StmtsForm body nodes)
      (finalizer_form : StmtsForm finalizer others) :
      StmtForm (.attemptFinally keyword body [] finalizer)
        (.tryFinally (.block nodes) (.block others))

/-- Nodes are the canonical forms of statements, one by one. -/
inductive StmtsForm : List Stmt → List Node → Prop where
  | nil : StmtsForm [] []
  | cons {stmt stmts node nodes} (first : StmtForm stmt node) (rest : StmtsForm stmts nodes) :
      StmtsForm (stmt :: stmts) (node :: nodes)

end

theorem canonStmt_labeled {limit : Text.DigitLimit} {label : Name} {body : Stmt}
    (h : ¬ IsLoop body) :
    canonStmt limit (.labeled label [] body) =
      (do return .labeled label.text (← canonStmt limit body)) := by
  cases body with
  | whileLoop keyword condition body => exact absurd trivial h
  | _ => simp only [canonStmt]

mutual

theorem StmtForm.of_canonStmt : (stmt : Stmt) → {node : Node} → canonStmt none stmt = .ok node →
    StmtForm stmt node
  | .block body, _, h => by
      simp only [canonStmt, bind_eq_ok, pure_eq_ok] at h
      obtain ⟨nodes, hbody, rfl⟩ := h
      exact .block (.of_canonStmts body hbody)
  | .declaration _ _, _, h => by simp [canonStmt, blameStmt] at h
  | .expression value, _, h => by
      simp only [canonStmt, bind_eq_ok, pure_eq_ok, canonExpr_eq_ok] at h
      obtain ⟨node, hvalue, rfl⟩ := h
      exact .expression hvalue
  | .empty _, _, h => by simp [canonStmt, blameStmt] at h
  | .returning _ none, _, h => by
      simp only [canonStmt, Except.ok.injEq] at h
      exact h ▸ .yieldBreak
  | .returning _ (some value), _, h => by
      simp only [canonStmt, bind_eq_ok, pure_eq_ok, canonExpr_eq_ok] at h
      obtain ⟨node, hvalue, rfl⟩ := h
      exact .returning hvalue
  | .ifThen _ _ _, _, h => by simp [canonStmt, blameStmt] at h
  | .ifElse _ condition thenPart elsePart, _, h => by
      simp only [canonStmt, bind_eq_ok, pure_eq_ok, canonExpr_eq_ok] at h
      obtain ⟨test, hcondition, first, hthen, second, helse, rfl⟩ := h
      exact .conditional hcondition (.of_canonStmt thenPart hthen) (.of_canonStmt elsePart helse)
  | .labeled _ (_ :: _) _, _, h => by simp [canonStmt] at h
  | .labeled label [] body, _, h => by
      by_cases hloop : IsLoop body
      · cases body with
        | whileLoop keyword condition body =>
            simp only [canonStmt, bind_eq_ok, pure_eq_ok, canonExpr_eq_ok] at h
            obtain ⟨test, hcondition, node, hbody, rfl⟩ := h
            exact .labeledLoop hcondition (.of_canonStmt body hbody)
        | _ => exact hloop.elim
      · simp only [canonStmt_labeled hloop, bind_eq_ok, pure_eq_ok] at h
        obtain ⟨node, hbody, rfl⟩ := h
        exact .labeled hloop (.of_canonStmt body hbody)
  | .breaking _ none, _, h => by simp [canonStmt, blameStmt] at h
  | .breaking _ (some _), _, h => by
      simp only [canonStmt, Except.ok.injEq] at h
      exact h ▸ .breaking
  | .continuing _ none, _, h => by simp [canonStmt, blameStmt] at h
  | .continuing _ (some _), _, h => by
      simp only [canonStmt, Except.ok.injEq] at h
      exact h ▸ .continuing
  | .whileLoop _ condition body, _, h => by
      simp only [canonStmt, bind_eq_ok, pure_eq_ok, canonExpr_eq_ok] at h
      obtain ⟨test, hcondition, node, hbody, rfl⟩ := h
      exact .loop hcondition (.of_canonStmt body hbody)
  | .doLoop _ _ _, _, h => by simp [canonStmt, blameStmt] at h
  | .attempt _ _ [], _, h => by simp [canonStmt, blameStmt] at h
  | .attempt _ body [.mk type exception trace handler], _, h => by
      simp only [canonStmt, bind_eq_ok, pure_eq_ok, exceptionOf_eq_ok] at h
      obtain ⟨nodes, hbody, text, ⟨name, _, hclause, rfl⟩, others, hhandler, rfl⟩ := h
      injection hclause with htype hname htrace
      subst htype hname htrace
      exact .tryCatch (.of_canonStmts body hbody) (.of_canonStmts handler hhandler)
  | .attempt _ _ (_ :: _ :: _), _, h => by simp [canonStmt] at h
  | .attemptFinally _ body [] finalizer, _, h => by
      simp only [canonStmt, bind_eq_ok, pure_eq_ok] at h
      obtain ⟨nodes, hbody, others, hfinalizer, rfl⟩ := h
      exact .tryFinally (.of_canonStmts body hbody) (.of_canonStmts finalizer hfinalizer)
  | .attemptFinally _ _ [_] _, _, h => by simp [canonStmt, blameStmt] at h
  | .attemptFinally _ _ (_ :: _ :: _) _, _, h => by simp [canonStmt] at h

theorem StmtsForm.of_canonStmts : (stmts : List Stmt) → {nodes : List Node} →
    canonStmts none stmts = .ok nodes → StmtsForm stmts nodes
  | [], _, h => by
      simp only [canonStmts, Except.ok.injEq] at h
      exact h ▸ .nil
  | stmt :: stmts, _, h => by
      simp only [canonStmts, bind_eq_ok, pure_eq_ok] at h
      obtain ⟨node, hfirst, nodes, hrest, rfl⟩ := h
      exact .cons (.of_canonStmt stmt hfirst) (.of_canonStmts stmts hrest)

end

mutual

theorem StmtForm.canonStmt {stmt : Stmt} {node : Node} :
    StmtForm stmt node → canonStmt none stmt = .ok node
  | .block h => by simp only [Canon.canonStmt, h.canonStmts]; rfl
  | .expression h => by simp only [Canon.canonStmt, h.canonExpr]; rfl
  | .yieldBreak => by simp only [Canon.canonStmt]
  | .returning h => by simp only [Canon.canonStmt, h.canonExpr]; rfl
  | .conditional hc ht he => by
      simp only [Canon.canonStmt, hc.canonExpr, ht.canonStmt, he.canonStmt]; rfl
  | .labeled hloop h => by rw [canonStmt_labeled hloop, h.canonStmt]; rfl
  | .labeledLoop hc hb => by simp only [Canon.canonStmt, hc.canonExpr, hb.canonStmt]; rfl
  | .loop hc hb => by simp only [Canon.canonStmt, hc.canonExpr, hb.canonStmt]; rfl
  | .breaking => by simp only [Canon.canonStmt]
  | .continuing => by simp only [Canon.canonStmt]
  | .tryCatch hb hh => by simp only [Canon.canonStmt, hb.canonStmts, hh.canonStmts]; rfl
  | .tryFinally hb hf => by simp only [Canon.canonStmt, hb.canonStmts, hf.canonStmts]; rfl

theorem StmtsForm.canonStmts {stmts : List Stmt} {nodes : List Node} :
    StmtsForm stmts nodes → canonStmts none stmts = .ok nodes
  | .nil => by simp only [Canon.canonStmts]
  | .cons h hs => by simp only [Canon.canonStmts, h.canonStmt, hs.canonStmts]; rfl

end

theorem canonStmts_eq_ok {stmts : List Stmt} {nodes : List Node} :
    canonStmts none stmts = .ok nodes ↔ StmtsForm stmts nodes :=
  ⟨.of_canonStmts stmts, fun h => h.canonStmts⟩

/-! ## Functions -/

theorem canonParameter_eq_ok (parameter : Parameter) (text : String) :
    canonParameter parameter = .ok text ↔
      ∃ binder : Binder, parameter = .required binder ∧ text = binder.name.text := by
  cases parameter <;> simp [canonParameter, blame, eq_comm]

theorem canonLocal_eq_ok (item : Variable) (text : String) :
    canonLocal item = .ok text ↔ ∃ name : Name, item = ⟨name, none⟩ ∧ text = name.text := by
  obtain ⟨name, _ | value⟩ := item <;> simp [canonLocal, blame, eq_comm]

/-- The function with these parts, all its parameters being required. -/
def blockFunction (type : Option Name) (name : Name) (binders : List Binder) (body : Block)
    (modifier : Option Keyword) : Function :=
  ⟨type, some name, binders.map .required, .block body modifier⟩

/-- A procedure is the canonical form of a function. -/
inductive FunctionForm (classify : Classifier) : Function → Procedure → Prop where
  | mk {type : Option Name} {name : Name} {binders : List Binder} {body : Block}
      {modifier : Option Keyword} {tag : String} {kind : FunctionKind} {locals : List Name}
      {nodes : List Node}
      (classified : classify (blockFunction type name binders body modifier) name = .ok tag)
      (known : FunctionKind.ofText? tag = some kind)
      (locals_form : (hoist body).1 = locals.map (⟨·, none⟩))
      (statements_form : StmtsForm (hoist body).2 nodes) :
      FunctionForm classify (blockFunction type name binders body modifier)
        ⟨kind, name.text, binders.map (·.name.text), locals.map (·.text), .block nodes⟩

theorem FunctionForm.of_draftFunction {classify : Classifier} {function : Function} {tag : String}
    {make : FunctionKind → Procedure} {kind : FunctionKind}
    (hdraft : draftFunction none classify function = .ok (tag, make))
    (hkind : FunctionKind.ofText? tag = some kind) :
    FunctionForm classify function (make kind) := by
  obtain ⟨type, _ | name, parameters, body⟩ := function
  · exact absurd hdraft nofun
  · cases body with
    | arrow value modifier => simp [draftFunction, bind_eq_ok] at hdraft
    | block body modifier =>
      simp only [draftFunction, bind_eq_ok, mapError_eq_ok, pure_eq_ok, canonBlock, canonStmts_eq_ok,
        mapM_eq_ok canonParameter_eq_ok, mapM_eq_ok canonLocal_eq_ok, Prod.mk.injEq] at hdraft
      obtain ⟨_, hclassify, _, ⟨binders, rfl, rfl⟩, _, ⟨locals, hlocals, rfl⟩, _,
        ⟨nodes, hstatements, rfl⟩, rfl, rfl⟩ := hdraft
      exact .mk hclassify hkind hlocals hstatements

theorem FunctionForm.draftFunction {classify : Classifier} {function : Function}
    {procedure : Procedure} (h : FunctionForm classify function procedure) :
    ∃ tag make, draftFunction none classify function = .ok (tag, make) ∧
      FunctionKind.ofText? tag = some procedure.kind ∧ make procedure.kind = procedure := by
  obtain @⟨type, name, binders, body, modifier, tag, kind, locals, nodes, hclassify, hkind,
    hlocals, hstatements⟩ := h
  refine ⟨tag, fun kind => ⟨kind, name.text, binders.map (·.name.text), locals.map (·.text),
    .block nodes⟩, ?_, hkind, rfl⟩
  simp only [blockFunction, Canon.draftFunction, bind_eq_ok, mapError_eq_ok, pure_eq_ok, canonBlock,
    canonStmts_eq_ok, mapM_eq_ok canonParameter_eq_ok, mapM_eq_ok canonLocal_eq_ok, Prod.mk.injEq]
  exact ⟨tag, hclassify, _, ⟨binders, rfl, rfl⟩, _, ⟨locals, hlocals, rfl⟩, _,
    ⟨nodes, hstatements, rfl⟩, rfl, rfl⟩

theorem canonDeclaration_eq_ok {classify : Classifier} {declaration : Declaration}
    {procedure : Procedure} :
    canonDeclaration classify declaration = .ok procedure ↔
      ∃ function, declaration = .function function ∧ FunctionForm classify function procedure := by
  constructor
  · intro h
    cases declaration with
    | bindings keyword bindings => simp [canonDeclaration, canonDeclarationWithin] at h
    | function function =>
      simp only [canonDeclaration, canonDeclarationWithin] at h
      split at h
      · simp at h
      · simp at h
      · split at h
        · rename_i hdraft _ _ hkind
          simp only [Except.ok.injEq] at h
          exact ⟨function, rfl, h ▸ .of_draftFunction hdraft hkind⟩
        · simp at h
  · rintro ⟨function, rfl, h⟩
    obtain ⟨tag, make, hdraft, hkind, hmake⟩ := h.draftFunction
    simp only [canonDeclaration, canonDeclarationWithin, hdraft, hkind, hmake]

end Resumable.Canon
