import Resumable.Proofs.Canon.Image
import Resumable.Proofs.Token.Spelling

/-!
# The trees that texts can express

A grammar of trees that is narrower than that of all canonical functions: names
are written as names, constants are natural numbers, the then-part of a
conditional is a block, and a statement has one label at most. A phrase is sound if
its canonical form is of this grammar or there is none.
-/

namespace Resumable.Canon

open Source
open Token (Identifier)

/-- The trees of expressions in a text. -/
inductive WritableExpr : Tree → Prop where
  | constant (value : Nat) : WritableExpr (tagged .constant [.atom value.repr])
  | reference {name : String} (named : Identifier name) :
      WritableExpr (tagged .variable_ [.atom name])
  | assignment {name : String} (named : Identifier name) {value : Tree}
      (value_tree : WritableExpr value) : WritableExpr (tagged .assignment [.atom name, value])
  | call {name : String} (named : Identifier name) (plain : name ∉ ["await", "yield", "yieldStar"])
      {arguments : List Tree} (argument_trees : ∀ argument ∈ arguments, WritableExpr argument) :
      WritableExpr (tagged .call [.atom name, .list arguments])
  | await {value : Tree} (value_tree : WritableExpr value) : WritableExpr (tagged .await [value])
  | yield {value : Tree} (value_tree : WritableExpr value) : WritableExpr (tagged .yield [value])
  | yieldStar {value : Tree} (value_tree : WritableExpr value) :
      WritableExpr (tagged .yieldStar [value])
  | throwing {value : Tree} (value_tree : WritableExpr value) : WritableExpr (tagged .throw [value])

/-- The trees of statements in a text. -/
inductive WritableStmt : Tree → Prop where
  | block {statements : List Tree} (statement_trees : ∀ tree ∈ statements, WritableStmt tree) :
      WritableStmt (blockTree statements)
  | expression {value : Tree} (value_tree : WritableExpr value) (plain : ¬ YieldRooted value) :
      WritableStmt (tagged .expression [value])
  | yield {value : Tree} (value_tree : WritableExpr value) : WritableStmt (tagged .yield [value])
  | yieldStar {value : Tree} (value_tree : WritableExpr value) :
      WritableStmt (tagged .yieldStar [value])
  | returning {value : Tree} (value_tree : WritableExpr value) :
      WritableStmt (tagged .return_ [value])
  | yieldBreak : WritableStmt (tagged .yieldBreak [])
  | conditional {condition elsePart : Tree} {thenPart : List Tree}
      (condition_tree : WritableExpr condition) (then_trees : ∀ tree ∈ thenPart, WritableStmt tree)
      (else_tree : WritableStmt elsePart) :
      WritableStmt (tagged .if_ [condition, blockTree thenPart, elsePart])
  | labeled {label : String} (named : Identifier label) {statement : Tree}
      (statement_tree : WritableStmt statement) (single : tagOf? statement ≠ some .label)
      (other : tagOf? statement ≠ some .while_) :
      WritableStmt (tagged .label [.atom label, statement])
  | breaking {label : String} (named : Identifier label) :
      WritableStmt (tagged .break_ [.atom label])
  | continuing {label : String} (named : Identifier label) :
      WritableStmt (tagged .continue_ [.atom label])
  | loop (label : Option String) (named : ∀ name ∈ label, Identifier name) {condition body : Tree}
      (condition_tree : WritableExpr condition) (body_tree : WritableStmt body) :
      WritableStmt (tagged .while_ [labelTree label, condition, body])
  | tryCatch {exception : String} (named : Identifier exception) {body handler : List Tree}
      (body_trees : ∀ tree ∈ body, WritableStmt tree)
      (handler_trees : ∀ tree ∈ handler, WritableStmt tree) :
      WritableStmt (tagged .tryCatch [blockTree body, .atom exception, blockTree handler])
  | tryFinally {body finalizer : List Tree} (body_trees : ∀ tree ∈ body, WritableStmt tree)
      (finalizer_trees : ∀ tree ∈ finalizer, WritableStmt tree) :
      WritableStmt (tagged .tryFinally [blockTree body, blockTree finalizer])

/-- The trees of functions in a text. The tag is the one that the name asks for. -/
inductive WritableFunction : Tree → Prop where
  | mk {name : String} (named : Identifier name) {parameters locals : List String}
      (parameters_named : ∀ parameter ∈ parameters, Identifier parameter)
      (locals_named : ∀ item ∈ locals, Identifier item) {statements : List Tree}
      (statement_trees : ∀ tree ∈ statements, WritableStmt tree) :
      WritableFunction (tagged (Classifier.kindOfName name).tag
        [.atom name, .atoms parameters, .atoms locals, blockTree statements])

/-! ## Phrases whose canonical forms are writable -/

/-- The canonical form of an expression can be written, if there is one. -/
def ExprSound (expr : Expr) : Prop :=
  ∀ node, ExprForm expr node → WritableExpr node.toTree

/-- The canonical form of a statement can be written, if there is one. A declaration
has none, but what it declares can be written. -/
def StmtSound (stmt : Stmt) : Prop :=
  (∀ node, StmtForm stmt node → WritableStmt node.toTree) ∧
    ∀ keyword bindings, stmt = .declaration keyword bindings →
      ∀ item ∈ bindings, Identifier item.name.text

/-- The canonical forms in a catch clause can be written, and so can the exception. -/
def ClauseSound : CatchClause → Prop
  | .mk _ exception _ body => (∀ name ∈ exception, Identifier name.text) ∧
      ∀ stmt ∈ body, StmtSound stmt

/-- A statement that stands after labels. -/
def Unlabeled : Stmt → Prop
  | .labeled _ _ _ => False
  | _ => True

/-- The canonical form of a declaration can be written, if there is one. -/
def DeclarationSound (declaration : Declaration) : Prop :=
  ∀ procedure, canonDeclaration Classifier.byName declaration = .ok procedure →
    WritableFunction procedure.toTree

theorem ExprsForm.writable {exprs : List Expr} {nodes : List Node} (h : ExprsForm exprs nodes)
    (hsound : ∀ expr ∈ exprs, ExprSound expr) : ∀ tree ∈ treesOf nodes, WritableExpr tree := by
  induction nodes generalizing exprs with
  | nil => simp [treesOf]
  | cons node nodes ih =>
    cases h with
    | cons hfirst hrest =>
      obtain ⟨hexpr, hexprs⟩ := List.forall_mem_cons.1 hsound
      rw [treesOf, List.forall_mem_cons]
      exact ⟨hexpr node hfirst, ih hrest hexprs⟩

theorem StmtsForm.writable {stmts : List Stmt} {nodes : List Node} (h : StmtsForm stmts nodes)
    (hsound : ∀ stmt ∈ stmts, StmtSound stmt) : ∀ tree ∈ treesOf nodes, WritableStmt tree := by
  induction nodes generalizing stmts with
  | nil => simp [treesOf]
  | cons node nodes ih =>
    cases h with
    | cons hfirst hrest =>
      obtain ⟨hstmt, hstmts⟩ := List.forall_mem_cons.1 hsound
      rw [treesOf, List.forall_mem_cons]
      exact ⟨hstmt.1 node hfirst, ih hrest hstmts⟩

/-- A statement without labels that is no loop becomes neither a labeled statement nor a
loop. -/
theorem StmtForm.root {stmt : Stmt} {node : Node} (h : StmtForm stmt node)
    (hunlabeled : Unlabeled stmt) (hloop : ¬ IsLoop stmt) :
    tagOf? node.toTree ≠ some .label ∧ tagOf? node.toTree ≠ some .while_ := by
  cases h with
  | @expression value node _ =>
    obtain ⟨hyield, hnode⟩ | ⟨-, hnode⟩ := statementOf_toTree node
    · rw [hnode]
      rcases hyield with hyield | hyield <;> simp [hyield]
    · simp [hnode, Node.toTree]
  | labeled | labeledLoop => exact hunlabeled.elim
  | loop => exact absurd trivial hloop
  | _ => simp [Node.toTree]

/-! ## Expressions -/

theorem exprSound_integer (value : Nat) (spot : Option Spot) : ExprSound (.integer value spot) := by
  intro node h
  cases h
  exact .constant value

theorem exprSound_identifier {name : Name} (h : Identifier name.text) :
    ExprSound (.identifier name) := by
  intro node hform
  cases hform
  exact .reference h

theorem exprSound_assignment {name : Name} {right : Expr} (hname : Identifier name.text)
    (hright : ExprSound right) : ExprSound (.assignment (.identifier name) right) := by
  intro node h
  cases h with
  | assignment h => exact .assignment hname (hright _ h)

theorem exprSound_call {name : Name} {arguments : List Expr} (hname : Identifier name.text)
    (harguments : ∀ argument ∈ arguments, ExprSound argument) :
    ExprSound (.call name arguments) := by
  intro node h
  cases h with
  | call plain h => exact .call hname plain (h.writable harguments)
  | await _ h => exact .await (harguments _ List.mem_cons_self _ h)
  | yield _ h => exact .yield (harguments _ List.mem_cons_self _ h)
  | yieldStar _ h => exact .yieldStar (harguments _ List.mem_cons_self _ h)

theorem exprSound_throwing {keyword : Keyword} {value : Expr} (h : ExprSound value) :
    ExprSound (.throwing keyword value) := by
  intro node hform
  cases hform with
  | throwing hform => exact .throwing (h _ hform)

/-! ## Statements -/

theorem stmtSound_of_forms {stmt : Stmt} (h : ∀ node, StmtForm stmt node → WritableStmt node.toTree)
    (hother : ∀ keyword bindings, stmt ≠ .declaration keyword bindings) : StmtSound stmt :=
  ⟨h, fun keyword bindings hstmt => absurd hstmt (hother keyword bindings)⟩

theorem stmtSound_block {body : Block} (h : ∀ stmt ∈ body, StmtSound stmt) :
    StmtSound (.block body) := by
  refine stmtSound_of_forms (fun node hform => ?_) nofun
  cases hform with
  | block hform => exact .block (hform.writable h)

theorem stmtSound_declaration {keyword : Keyword} {bindings : List Variable}
    (h : ∀ item ∈ bindings, Identifier item.name.text) :
    StmtSound (.declaration keyword bindings) := by
  refine ⟨nofun, fun _ _ hstmt => ?_⟩
  cases hstmt
  exact h

theorem WritableExpr.stmt {tree : Tree} (h : WritableExpr tree) (hyield : YieldRooted tree) :
    WritableStmt tree := by
  cases h with
  | yield h => exact .yield h
  | yieldStar h => exact .yieldStar h
  | _ => simp [YieldRooted] at hyield

theorem stmtSound_expression {value : Expr} (h : ExprSound value) :
    StmtSound (.expression value) := by
  refine stmtSound_of_forms (fun node hform => ?_) nofun
  cases hform with
  | @expression _ node hform =>
    obtain ⟨hyield, hnode⟩ | ⟨hplain, hnode⟩ := statementOf_toTree node
    · rw [hnode]
      exact (h node hform).stmt hyield
    · rw [hnode]
      exact .expression (h node hform) hplain

theorem stmtSound_returning {keyword : Keyword} {value : Option Expr}
    (h : ∀ expr ∈ value, ExprSound expr) : StmtSound (.returning keyword value) := by
  refine stmtSound_of_forms (fun node hform => ?_) nofun
  cases hform with
  | yieldBreak => exact .yieldBreak
  | returning hform => exact .returning (h _ rfl _ hform)

theorem stmtSound_ifElse {keyword : Keyword} {condition : Expr} {thenPart : Block} {elsePart : Stmt}
    (hcondition : ExprSound condition) (hthen : ∀ stmt ∈ thenPart, StmtSound stmt)
    (helse : StmtSound elsePart) :
    StmtSound (.ifElse keyword condition (.block thenPart) elsePart) := by
  refine stmtSound_of_forms (fun node hform => ?_) nofun
  cases hform with
  | conditional hc ht he =>
    cases ht with
    | block ht => exact .conditional (hcondition _ hc) (ht.writable hthen) (helse.1 _ he)

theorem stmtSound_whileLoop {keyword : Keyword} {condition : Expr} {body : Stmt}
    (hcondition : ExprSound condition) (hbody : StmtSound body) :
    StmtSound (.whileLoop keyword condition body) := by
  refine stmtSound_of_forms (fun node hform => ?_) nofun
  cases hform with
  | loop hc hb => exact .loop none nofun (hcondition _ hc) (hbody.1 _ hb)

theorem WritableStmt.loop_parts {label condition body : Tree}
    (h : WritableStmt (tagged .while_ [label, condition, body])) :
    WritableExpr condition ∧ WritableStmt body := by
  generalize htree : tagged .while_ [label, condition, body] = tree at h
  cases h with
  | loop _ _ hcondition hbody =>
    simp only [tagged_inj, List.cons.injEq, true_and, and_true] at htree
    obtain ⟨-, rfl, rfl⟩ := htree
    exact ⟨hcondition, hbody⟩
  | _ => simp [blockTree] at htree

/-- A label is attached to a loop, or makes a labeled statement of anything else. -/
theorem stmtSound_labeled {label : Name} {others : List Name} {body : Stmt}
    (hlabel : Identifier label.text) (hbody : StmtSound body) (hunlabeled : Unlabeled body) :
    StmtSound (.labeled label others body) := by
  refine stmtSound_of_forms (fun node hform => ?_) nofun
  cases hform with
  | labeled hloop hform =>
    obtain ⟨hsingle, hother⟩ := hform.root hunlabeled hloop
    exact .labeled hlabel (hbody.1 _ hform) hsingle hother
  | @labeledLoop _ keyword _ _ test node hc hb =>
    obtain ⟨htest, hnode⟩ := (hbody.1 _ (.loop hc hb)).loop_parts
    exact .loop (some label.text) (by simpa using hlabel) htest hnode

theorem stmtSound_breaking {keyword : Keyword} {label : Option Name}
    (h : ∀ name ∈ label, Identifier name.text) : StmtSound (.breaking keyword label) := by
  refine stmtSound_of_forms (fun node hform => ?_) nofun
  cases hform
  exact .breaking (h _ rfl)

theorem stmtSound_continuing {keyword : Keyword} {label : Option Name}
    (h : ∀ name ∈ label, Identifier name.text) : StmtSound (.continuing keyword label) := by
  refine stmtSound_of_forms (fun node hform => ?_) nofun
  cases hform
  exact .continuing (h _ rfl)

theorem stmtSound_attempt {keyword : Keyword} {body : Block} {clauses : List CatchClause}
    (hbody : ∀ stmt ∈ body, StmtSound stmt) (hclauses : ∀ clause ∈ clauses, ClauseSound clause) :
    StmtSound (.attempt keyword body clauses) := by
  refine stmtSound_of_forms (fun node hform => ?_) nofun
  cases hform with
  | tryCatch hb hh =>
    obtain ⟨hname, hhandler⟩ := hclauses _ List.mem_cons_self
    exact .tryCatch (hname _ rfl) (hb.writable hbody) (hh.writable hhandler)

theorem stmtSound_attemptFinally {keyword : Keyword} {body finalizer : Block}
    {clauses : List CatchClause} (hbody : ∀ stmt ∈ body, StmtSound stmt)
    (hfinalizer : ∀ stmt ∈ finalizer, StmtSound stmt) :
    StmtSound (.attemptFinally keyword body clauses finalizer) := by
  refine stmtSound_of_forms (fun node hform => ?_) nofun
  cases hform with
  | tryFinally hb hf => exact .tryFinally (hb.writable hbody) (hf.writable hfinalizer)

/-! ## Declarations -/

theorem hoist_sound {body : Block} (h : ∀ stmt ∈ body, StmtSound stmt) :
    (∀ item ∈ (hoist body).1, Identifier item.name.text) ∧
      ∀ stmt ∈ (hoist body).2, StmtSound stmt := by
  unfold hoist
  split
  · obtain ⟨hfirst, hrest⟩ := List.forall_mem_cons.1 h
    exact ⟨hfirst.2 _ _ rfl, hrest⟩
  · exact ⟨nofun, h⟩

/-- The parts of a function that the canonical form is made of can be written. -/
structure FunctionSound (function : Function) : Prop where
  name : ∀ name ∈ function.name, Identifier name.text
  parameters : ∀ parameter ∈ function.parameters, Identifier parameter.binder.name.text
  body : ∀ block modifier, function.body = .block block modifier → ∀ stmt ∈ block, StmtSound stmt

theorem FunctionSound.declarationSound {function : Function} (h : FunctionSound function) :
    DeclarationSound (.function function) := by
  intro procedure hcanon
  obtain ⟨_, ⟨⟩, hform⟩ := canonDeclaration_eq_ok.1 hcanon
  obtain @⟨type, name, binders, body, modifier, tag, kind, locals, nodes, hclassify, hkind,
    hlocals, hstatements⟩ := hform
  obtain rfl := kind_of_byName hclassify hkind
  obtain ⟨hitems, hstmts⟩ := hoist_sound (h.body body modifier rfl)
  refine .mk (h.name name rfl) ?_ ?_ (hstatements.writable hstmts)
  · simpa [blockFunction, Parameter.binder] using h.parameters
  · rw [hlocals] at hitems
    simpa using hitems

end Resumable.Canon
