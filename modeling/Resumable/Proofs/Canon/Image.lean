import Resumable.Proofs.Canon.Rules
import Resumable.Proofs.Canon.Shape

/-!
# The trees of canonical functions

A grammar of trees, stated without canonicalization: `ExprTree` and `StmtTree`
are two sorts, so that no statement stands in the place of an expression.
Canonicalization by name produces exactly the trees of `FunctionTree`.
-/

namespace Resumable.Canon

open Source

/-- The root of a tree is an operator that yields. -/
def YieldRooted (tree : Tree) : Prop :=
  tagOf? tree = some .yield ∨ tagOf? tree = some .yieldStar

/-- A tree is a loop with nothing in the place of its label. -/
def UnlabeledLoop (tree : Tree) : Prop :=
  ∃ condition body, tree = tagged .while_ [.list [], condition, body]

/-- The tree of a block. -/
def blockTree (statements : List Tree) : Tree :=
  tagged .block [.list statements]

/-- The trees of expressions. -/
inductive ExprTree : Tree → Prop where
  | constant (value : Int) : ExprTree (tagged .constant [.atom value.repr])
  | reference (name : String) : ExprTree (tagged .variable_ [.atom name])
  | assignment (name : String) {value : Tree} (value_tree : ExprTree value) :
      ExprTree (tagged .assignment [.atom name, value])
  | call {name : String} (plain : name ∉ ["await", "yield", "yieldStar"]) {arguments : List Tree}
      (argument_trees : ∀ argument ∈ arguments, ExprTree argument) :
      ExprTree (tagged .call [.atom name, .list arguments])
  | await {value : Tree} (value_tree : ExprTree value) : ExprTree (tagged .await [value])
  | yield {value : Tree} (value_tree : ExprTree value) : ExprTree (tagged .yield [value])
  | yieldStar {value : Tree} (value_tree : ExprTree value) : ExprTree (tagged .yieldStar [value])
  | throwing {value : Tree} (value_tree : ExprTree value) : ExprTree (tagged .throw [value])

/-- The trees of statements. -/
inductive StmtTree : Tree → Prop where
  | block {statements : List Tree} (statement_trees : ∀ tree ∈ statements, StmtTree tree) :
      StmtTree (blockTree statements)
  | expression {value : Tree} (value_tree : ExprTree value) (plain : ¬ YieldRooted value) :
      StmtTree (tagged .expression [value])
  | yield {value : Tree} (value_tree : ExprTree value) : StmtTree (tagged .yield [value])
  | yieldStar {value : Tree} (value_tree : ExprTree value) : StmtTree (tagged .yieldStar [value])
  | returning {value : Tree} (value_tree : ExprTree value) : StmtTree (tagged .return_ [value])
  | yieldBreak : StmtTree (tagged .yieldBreak [])
  | conditional {condition thenPart elsePart : Tree} (condition_tree : ExprTree condition)
      (then_tree : StmtTree thenPart) (else_tree : StmtTree elsePart) :
      StmtTree (tagged .if_ [condition, thenPart, elsePart])
  | labeled (label : String) {statement : Tree} (statement_tree : StmtTree statement)
      (other : ¬ UnlabeledLoop statement) :
      StmtTree (tagged .label [.atom label, statement])
  | breaking (label : String) : StmtTree (tagged .break_ [.atom label])
  | continuing (label : String) : StmtTree (tagged .continue_ [.atom label])
  | loop (label : Option String) {condition body : Tree} (condition_tree : ExprTree condition)
      (body_tree : StmtTree body) : StmtTree (tagged .while_ [labelTree label, condition, body])
  | tryCatch (exception : String) {body handler : List Tree}
      (body_trees : ∀ tree ∈ body, StmtTree tree)
      (handler_trees : ∀ tree ∈ handler, StmtTree tree) :
      StmtTree (tagged .tryCatch [blockTree body, .atom exception, blockTree handler])
  | tryFinally {body finalizer : List Tree} (body_trees : ∀ tree ∈ body, StmtTree tree)
      (finalizer_trees : ∀ tree ∈ finalizer, StmtTree tree) :
      StmtTree (tagged .tryFinally [blockTree body, blockTree finalizer])

/-- The trees of functions whose tag is the one that the name asks for. -/
inductive FunctionTree : Tree → Prop where
  | mk (name : String) (parameters locals : List String) {statements : List Tree}
      (statement_trees : ∀ tree ∈ statements, StmtTree tree) :
      FunctionTree (tagged (Classifier.kindOfName name).tag
        [.atom name, .atoms parameters, .atoms locals, blockTree statements])

/-! ## Canonical forms are in the grammar -/

mutual

theorem ExprForm.exprTree {expr : Expr} {node : Node} : ExprForm expr node → ExprTree node.toTree
  | .integer => .constant _
  | .identifier => .reference _
  | .assignment h => .assignment _ h.exprTree
  | .call hname h => .call hname h.exprTrees
  | .await _ h => .await h.exprTree
  | .yield _ h => .yield h.exprTree
  | .yieldStar _ h => .yieldStar h.exprTree
  | .throwing h => .throwing h.exprTree

theorem ExprsForm.exprTrees {exprs : List Expr} {nodes : List Node} :
    ExprsForm exprs nodes → ∀ tree ∈ treesOf nodes, ExprTree tree
  | .nil => nofun
  | .cons h hs => by
      simp only [treesOf, List.forall_mem_cons]
      exact ⟨h.exprTree, hs.exprTrees⟩

end

theorem statementOf_toTree (node : Node) :
    YieldRooted node.toTree ∧ statementOf node = node ∨
      ¬ YieldRooted node.toTree ∧ statementOf node = .expression node := by
  cases node with
  | function kind name parameters locals body =>
      cases kind <;> simp [YieldRooted, Node.toTree, FunctionKind.tag, statementOf]
  | _ => simp [YieldRooted, Node.toTree, statementOf]

theorem ExprTree.stmtTree {tree : Tree} (h : ExprTree tree) (hyield : YieldRooted tree) :
    StmtTree tree := by
  cases h with
  | yield h => exact .yield h
  | yieldStar h => exact .yieldStar h
  | _ => simp [YieldRooted] at hyield

theorem ExprForm.stmtTree {expr : Expr} {node : Node} (h : ExprForm expr node) :
    StmtTree (statementOf node).toTree := by
  obtain ⟨hyield, hnode⟩ | ⟨hplain, hnode⟩ := statementOf_toTree node
  · rw [hnode]
    exact h.exprTree.stmtTree hyield
  · rw [hnode]
    exact .expression h.exprTree hplain

/-- A label that stands before a statement is attached to it exactly if the
statement has become a loop without a label. -/
theorem StmtForm.unlabeledLoop_iff {stmt : Stmt} {node : Node} (h : StmtForm stmt node) :
    UnlabeledLoop node.toTree ↔ IsLoop stmt := by
  cases h with
  | @expression value node _ =>
      obtain ⟨hyield, hnode⟩ | ⟨-, hnode⟩ := statementOf_toTree node
      · rw [hnode]
        refine iff_of_false ?_ id
        rintro ⟨condition, body, htree⟩
        simp [YieldRooted, htree] at hyield
      · simp [hnode, UnlabeledLoop, IsLoop, Node.toTree]
  | _ => simp [UnlabeledLoop, IsLoop, Node.toTree, labelTree]

mutual

theorem StmtForm.stmtTree {stmt : Stmt} {node : Node} : StmtForm stmt node → StmtTree node.toTree
  | .block h => .block h.stmtTrees
  | .expression h => h.stmtTree
  | .yieldBreak => .yieldBreak
  | .returning h => .returning h.exprTree
  | .conditional hc ht he => .conditional hc.exprTree ht.stmtTree he.stmtTree
  | .labeled hloop h => .labeled _ h.stmtTree (mt h.unlabeledLoop_iff.mp hloop)
  | .labeledLoop hc hb => .loop (some _) hc.exprTree hb.stmtTree
  | .loop hc hb => .loop none hc.exprTree hb.stmtTree
  | .breaking => .breaking _
  | .continuing => .continuing _
  | .tryCatch hb hh => .tryCatch _ hb.stmtTrees hh.stmtTrees
  | .tryFinally hb hf => .tryFinally hb.stmtTrees hf.stmtTrees

theorem StmtsForm.stmtTrees {stmts : List Stmt} {nodes : List Node} :
    StmtsForm stmts nodes → ∀ tree ∈ treesOf nodes, StmtTree tree
  | .nil => nofun
  | .cons h hs => by
      simp only [treesOf, List.forall_mem_cons]
      exact ⟨h.stmtTree, hs.stmtTrees⟩

end

theorem kind_of_byName {function : Function} {name : Name} {tag : String} {kind : FunctionKind}
    (hclassify : Classifier.byName function name = .ok tag)
    (hkind : FunctionKind.ofText? tag = some kind) : kind = Classifier.kindOfName name.text := by
  have hname : (Classifier.kindOfName name.text).tag.text = tag := by
    simpa [Classifier.byName] using hclassify
  rw [← hname, FunctionKind.ofText?_eq_some] at hkind
  exact FunctionKind.tag_injective (Tag.text_injective hkind.symm)

theorem FunctionForm.functionTree {function : Function} {procedure : Procedure}
    (h : FunctionForm Classifier.byName function procedure) : FunctionTree procedure.toTree := by
  obtain @⟨type, name, binders, body, modifier, tag, kind, locals, nodes, hclassify, hkind, -,
    hstatements⟩ := h
  obtain rfl := kind_of_byName hclassify hkind
  exact .mk name.text _ _ hstatements.stmtTrees

/-! ## Every tree of the grammar is a canonical form -/

theorem exists_exprsForm {trees : List Tree}
    (h : ∀ tree ∈ trees, ∃ expr node, ExprForm expr node ∧ node.toTree = tree) :
    ∃ exprs nodes, ExprsForm exprs nodes ∧ treesOf nodes = trees := by
  induction trees with
  | nil => exact ⟨[], [], .nil, rfl⟩
  | cons tree trees ih =>
    obtain ⟨expr, node, hfirst, htree⟩ := h tree List.mem_cons_self
    obtain ⟨exprs, nodes, hrest, htrees⟩ := ih fun t ht => h t (List.mem_cons_of_mem _ ht)
    exact ⟨expr :: exprs, node :: nodes, .cons hfirst hrest, by rw [treesOf, htree, htrees]⟩

theorem ExprTree.exists_form {tree : Tree} (h : ExprTree tree) :
    ∃ expr node, ExprForm expr node ∧ node.toTree = tree := by
  induction h with
  | constant value => exact ⟨.integer value none, _, .integer, rfl⟩
  | reference name => exact ⟨.identifier (bareName name), _, .identifier, rfl⟩
  | assignment name _ ih =>
    obtain ⟨right, node, hform, rfl⟩ := ih
    exact ⟨.assignment (.identifier (bareName name)) right, _, .assignment hform, rfl⟩
  | @call name hname _ _ ih =>
    obtain ⟨arguments, nodes, hform, rfl⟩ := exists_exprsForm ih
    exact ⟨.call (bareName name) arguments, _, .call hname hform, rfl⟩
  | await _ ih =>
    obtain ⟨argument, node, hform, rfl⟩ := ih
    exact ⟨.call (bareName "await") [argument], _, .await rfl hform, rfl⟩
  | yield _ ih =>
    obtain ⟨argument, node, hform, rfl⟩ := ih
    exact ⟨.call (bareName "yield") [argument], _, .yield rfl hform, rfl⟩
  | yieldStar _ ih =>
    obtain ⟨argument, node, hform, rfl⟩ := ih
    exact ⟨.call (bareName "yieldStar") [argument], _, .yieldStar rfl hform, rfl⟩
  | throwing _ ih =>
    obtain ⟨value, node, hform, rfl⟩ := ih
    exact ⟨.throwing bareKeyword value, _, .throwing hform, rfl⟩

/-- An expression makes a statement of its own tree if that tree yields. -/
theorem exists_yieldForm {tree : Tree} (h : ExprTree tree) (hyield : YieldRooted tree) :
    ∃ stmt node, StmtForm stmt node ∧ node.toTree = tree := by
  obtain ⟨expr, node, hform, rfl⟩ := h.exists_form
  obtain ⟨-, hnode⟩ | ⟨hplain, -⟩ := statementOf_toTree node
  · exact ⟨.expression expr, statementOf node, .expression hform, by rw [hnode]⟩
  · exact absurd hyield hplain

theorem exists_stmtsForm {trees : List Tree}
    (h : ∀ tree ∈ trees, ∃ stmt node, StmtForm stmt node ∧ node.toTree = tree) :
    ∃ stmts nodes, StmtsForm stmts nodes ∧ treesOf nodes = trees := by
  induction trees with
  | nil => exact ⟨[], [], .nil, rfl⟩
  | cons tree trees ih =>
    obtain ⟨stmt, node, hfirst, htree⟩ := h tree List.mem_cons_self
    obtain ⟨stmts, nodes, hrest, htrees⟩ := ih fun t ht => h t (List.mem_cons_of_mem _ ht)
    exact ⟨stmt :: stmts, node :: nodes, .cons hfirst hrest, by rw [treesOf, htree, htrees]⟩

theorem StmtTree.exists_form {tree : Tree} (h : StmtTree tree) :
    ∃ stmt node, StmtForm stmt node ∧ node.toTree = tree := by
  induction h with
  | block _ ih =>
    obtain ⟨stmts, nodes, hform, rfl⟩ := exists_stmtsForm ih
    exact ⟨.block stmts, _, .block hform, rfl⟩
  | expression hvalue hplain =>
    obtain ⟨expr, node, hform, rfl⟩ := hvalue.exists_form
    obtain ⟨hyield, -⟩ | ⟨-, hnode⟩ := statementOf_toTree node
    · exact absurd hyield hplain
    · exact ⟨.expression expr, statementOf node, .expression hform, by rw [hnode, Node.toTree]⟩
  | yield hvalue => exact exists_yieldForm (.yield hvalue) (.inl (tagOf?_tagged _ _))
  | yieldStar hvalue => exact exists_yieldForm (.yieldStar hvalue) (.inr (tagOf?_tagged _ _))
  | returning hvalue =>
    obtain ⟨expr, node, hform, rfl⟩ := hvalue.exists_form
    exact ⟨.returning bareKeyword (some expr), _, .returning hform, rfl⟩
  | yieldBreak => exact ⟨.returning bareKeyword none, _, .yieldBreak, rfl⟩
  | conditional hcondition _ _ ihthen ihelse =>
    obtain ⟨condition, test, hc, rfl⟩ := hcondition.exists_form
    obtain ⟨thenPart, first, ht, rfl⟩ := ihthen
    obtain ⟨elsePart, second, he, rfl⟩ := ihelse
    exact ⟨.ifElse bareKeyword condition thenPart elsePart, _, .conditional hc ht he, rfl⟩
  | labeled label _ hother ih =>
    obtain ⟨body, node, hform, rfl⟩ := ih
    have hloop : ¬ IsLoop body := mt hform.unlabeledLoop_iff.mpr hother
    exact ⟨.labeled (bareName label) [] body, _, .labeled hloop hform, rfl⟩
  | breaking label => exact ⟨.breaking bareKeyword (some (bareName label)), _, .breaking, rfl⟩
  | continuing label =>
    exact ⟨.continuing bareKeyword (some (bareName label)), _, .continuing, rfl⟩
  | loop label hcondition _ ih =>
    obtain ⟨condition, test, hc, rfl⟩ := hcondition.exists_form
    obtain ⟨body, node, hb, rfl⟩ := ih
    cases label with
    | none => exact ⟨.whileLoop bareKeyword condition body, _, .loop hc hb, rfl⟩
    | some label =>
      exact ⟨.labeled (bareName label) [] (.whileLoop bareKeyword condition body), _,
        .labeledLoop hc hb, rfl⟩
  | tryCatch exception _ _ ihbody ihhandler =>
    obtain ⟨body, nodes, hb, rfl⟩ := exists_stmtsForm ihbody
    obtain ⟨handler, others, hh, rfl⟩ := exists_stmtsForm ihhandler
    exact ⟨.attempt bareKeyword body [.mk none (some (bareName exception)) none handler], _,
      .tryCatch hb hh, rfl⟩
  | tryFinally _ _ ihbody ihfinalizer =>
    obtain ⟨body, nodes, hb, rfl⟩ := exists_stmtsForm ihbody
    obtain ⟨finalizer, others, hf, rfl⟩ := exists_stmtsForm ihfinalizer
    exact ⟨.attemptFinally bareKeyword body [] finalizer, _, .tryFinally hb hf, rfl⟩

/-- The locals are always declared, so that no other first statement is taken for
their declaration. -/
theorem FunctionTree.exists_form {tree : Tree} (h : FunctionTree tree) :
    ∃ function procedure, FunctionForm Classifier.byName function procedure ∧
      procedure.toTree = tree := by
  obtain ⟨name, parameters, locals, hstatements⟩ := h
  obtain ⟨stmts, nodes, hform, rfl⟩ :=
    exists_stmtsForm fun tree ht => (hstatements tree ht).exists_form
  let body : Block := .declaration bareKeyword ((locals.map bareName).map (⟨·, none⟩)) :: stmts
  let binders : List Binder := parameters.map fun text => ⟨bareName text, none⟩
  have hkind : FunctionKind.ofText? (Classifier.kindOfName name).tag.text =
      some (Classifier.kindOfName name) := FunctionKind.ofText?_eq_some.mpr rfl
  refine ⟨blockFunction none (bareName name) binders body none, _, .mk rfl hkind rfl hform, ?_⟩
  simp [Procedure.toTree, Procedure.toNode, Node.toTree, blockTree, binders, bareName,
    Function.comp_def]

/-! ## The image of canonicalization -/

/-- Canonicalization by name produces exactly the trees of the grammar, and each
of them has the shape that its tags call for. -/
theorem image_canonDeclaration_byName (tree : Tree) :
    ((∃ function procedure,
        canonDeclaration Classifier.byName (.function function) = .ok procedure ∧
          procedure.toTree = tree) ↔ FunctionTree tree) ∧
      (FunctionTree tree → checkShape tree = .ok ()) := by
  have hforms : (∃ function procedure,
      canonDeclaration Classifier.byName (.function function) = .ok procedure ∧
        procedure.toTree = tree) ↔ FunctionTree tree := by
    constructor
    · rintro ⟨function, procedure, hcanon, rfl⟩
      obtain ⟨_, ⟨⟩, hform⟩ := canonDeclaration_eq_ok.mp hcanon
      exact hform.functionTree
    · intro h
      obtain ⟨function, procedure, hform, htree⟩ := h.exists_form
      exact ⟨function, procedure, canonDeclaration_eq_ok.mpr ⟨function, rfl, hform⟩, htree⟩
  refine ⟨hforms, fun h => ?_⟩
  obtain ⟨function, procedure, -, rfl⟩ := hforms.mpr h
  exact checkShape_toTree procedure.toNode

/-- A generator with a labeled label before a labeled loop that yields. -/
theorem image_nested_labels :
    let loop := tagged .while_ [.atom "l", tagged .variable_ [.atom "x"],
      tagged .yield [tagged .await [tagged .constant [.atom "-7"]]]]
    let tree := tagged .syncStar [.atom "f_syncStar", .atoms [], .atoms ["x"],
      blockTree [tagged .label [.atom "k", loop]]]
    FunctionTree tree ∧ checkShape tree = .ok () := by
  intro loop tree
  have hseven : (-7 : Int).repr = "-7" := by decide
  have hloop : StmtTree loop :=
    .loop (some "l") (.reference "x") (.yield (.await (hseven ▸ .constant (-7))))
  have hlabeled : StmtTree (tagged .label [.atom "k", loop]) :=
    .labeled "k" hloop (by simp [UnlabeledLoop, loop])
  have htree : FunctionTree tree := .mk "f_syncStar" [] ["x"] (by simpa using hlabeled)
  exact ⟨htree, (image_canonDeclaration_byName tree).2 htree⟩

end Resumable.Canon
