import Resumable.Proofs.Canon.Writable
import Resumable.Proofs.Grammar.Expressible

/-!
# Writing trees

Every tree of the narrower grammar is the canonical form of a phrase that some
words express.
-/

namespace Resumable.Canon

open Grammar Source
open Token (Identifier)

/-- The tree of an expression. -/
def ExprOf (tree : Tree) (expr : Expr) : Prop :=
  ∃ node, ExprForm expr node ∧ node.toTree = tree

/-- The tree of a statement. -/
def StmtOf (tree : Tree) (stmt : Stmt) : Prop :=
  ∃ node, StmtForm stmt node ∧ node.toTree = tree

theorem forall₂_push {α β : Type} {relation : α → β → Prop} {xs : List α} {items : Array β} {x : α}
    {item : β} (hs : List.Forall₂ relation xs items.toList) (h : relation x item) :
    List.Forall₂ relation (xs ++ [x]) (items.push item).toList := by
  rw [Array.toList_push]
  exact List.rel_append hs (.cons h .nil)

theorem exprsForm_of_forall₂ {trees : List Tree} {exprs : List Expr}
    (h : List.Forall₂ ExprOf trees exprs) :
    ∃ nodes, ExprsForm exprs nodes ∧ treesOf nodes = trees := by
  induction h with
  | nil => exact ⟨[], .nil, rfl⟩
  | cons hfirst _ ih =>
    obtain ⟨node, hform, rfl⟩ := hfirst
    obtain ⟨nodes, hforms, rfl⟩ := ih
    exact ⟨node :: nodes, .cons hform hforms, rfl⟩

theorem stmtsForm_of_forall₂ {trees : List Tree} {stmts : List Stmt}
    (h : List.Forall₂ StmtOf trees stmts) :
    ∃ nodes, StmtsForm stmts nodes ∧ treesOf nodes = trees := by
  induction h with
  | nil => exact ⟨[], .nil, rfl⟩
  | cons hfirst _ ih =>
    obtain ⟨node, hform, rfl⟩ := hfirst
    obtain ⟨nodes, hforms, rfl⟩ := ih
    exact ⟨node :: nodes, .cons hform hforms, rfl⟩

/-! ## Expressions -/

theorem expressible_of_operand {property : Expr → Prop}
    (h : Expressible (.nonterminal .operand) property) :
    Expressible (.nonterminal .expr) property :=
  .apply .plainOperand (.cons h .nil) fun _ hvalue => hvalue.1

theorem expressible_of_primary {property : Expr → Prop}
    (h : Expressible (.nonterminal .primary) property) :
    Expressible (.nonterminal .expr) property :=
  expressible_of_operand (.apply .plainPrimary (.cons h .nil) fun _ hvalue => hvalue.1)

theorem exprOf_integer {token : Token} {value : Nat} (h : token.text = value.repr.toList) :
    ExprOf (tagged .constant [.atom value.repr]) token.integer := by
  rw [Token.integer, h, Token.number_repr]
  exact ⟨_, .integer, rfl⟩

theorem expressible_arguments {trees : List Tree}
    (h : ∀ tree ∈ trees, Expressible (.nonterminal .expr) (ExprOf tree)) :
    Expressible (.nonterminal .arguments)
      fun (exprs : List Expr) => List.Forall₂ ExprOf trees exprs := by
  have hsection : Expressible (.nonterminal .argumentSection)
      fun (exprs : List Expr) => List.Forall₂ ExprOf trees exprs := by
    by_cases hne : trees = []
    · subst hne
      exact .apply .noArguments .nil fun _ _ => .nil
    · have hlist := expressible_nonempty .expressions .expr
        (fun trees (exprs : Array Expr) => List.Forall₂ ExprOf trees exprs.toList)
        (fun x hx => .apply .firstExpression (.cons hx .nil) fun _ hm => .cons hm.1 .nil)
        (fun xs x hxs hx => .apply .moreExpressions
          (.cons hxs (.fixed (by decide) (.cons hx .nil))) fun _ hm => forall₂_push hm.1 hm.2.1)
        hne h
      exact .apply .someArguments (.cons hlist .nil) fun _ hm => hm.1
  exact .apply .arguments (.fixed (by decide) (.cons hsection (.fixed (by decide) .nil)))
    fun _ hm => hm.1

theorem identifier_operator {name : String} (h : name ∈ operatorNames) : Identifier name := by
  have hword : name.toList ≠ [] ∧ name.toList.all Token.startsWord = true ∧
      Terminal.ofWord name.toList = .name := by
    revert name
    decide +kernel
  exact Token.identifier_of_ofWord (Token.matches_word_of_all hword.1 hword.2.1) hword.2.2

/-- A call that is an operator. -/
theorem expressible_operator {name : String} (hname : name ∈ operatorNames) {tree : Tree}
    (h : Expressible (.nonterminal .expr) (ExprOf tree)) :
    Expressible (.nonterminal .expr) fun (expr : Expr) => ∃ (occurrence : Name) (argument : Expr),
      expr = .call occurrence [argument] ∧ occurrence.text = name ∧ ExprOf tree argument := by
  have harguments := expressible_arguments (List.forall_mem_singleton.2 h)
  refine expressible_of_operand (.apply .call
    (.cons (expressible_name (identifier_operator hname)) (.cons harguments .nil)) fun meanings hm => ?_)
  obtain ⟨token, exprs, ⟨⟩⟩ := meanings
  obtain ⟨htext, hexprs, -⟩ := hm
  cases hexprs with
  | cons hfirst hrest =>
    cases hrest
    exact ⟨_, _, rfl, htext, hfirst⟩

theorem WritableExpr.expressible {tree : Tree} (h : WritableExpr tree) :
    Expressible (.nonterminal .expr) (ExprOf tree) := by
  induction h with
  | constant value =>
    exact expressible_of_primary (.apply .integer
      (.cons (.token (Token.spellable_repr value)) .nil) fun _ hm => exprOf_integer hm.1)
  | reference named =>
    refine expressible_of_primary (.apply .identifier
      (.cons (expressible_name named) .nil) fun _ hm => ?_)
    obtain ⟨rfl, -⟩ := hm
    exact ⟨_, .identifier, rfl⟩
  | assignment named _ ih =>
    refine .apply .assignment (.cons (expressible_name named)
      (.fixed (by decide) (.cons ih .nil))) fun _ hm => ?_
    obtain ⟨rfl, ⟨node, hform, rfl⟩, -⟩ := hm
    exact ⟨_, .assignment hform, rfl⟩
  | call named plain _ ih =>
    refine expressible_of_operand (.apply .call (.cons (expressible_name named)
      (.cons (expressible_arguments ih) .nil)) fun _ hm => ?_)
    obtain ⟨rfl, hexprs, -⟩ := hm
    obtain ⟨nodes, hforms, rfl⟩ := exprsForm_of_forall₂ hexprs
    exact ⟨_, .call plain hforms, rfl⟩
  | await _ ih =>
    refine (expressible_operator (show "await" ∈ _ by decide) ih).imp fun _ hm => ?_
    obtain ⟨name, argument, rfl, hname, node, hform, rfl⟩ := hm
    exact ⟨_, .await hname hform, rfl⟩
  | yield _ ih =>
    refine (expressible_operator (show "yield" ∈ _ by decide) ih).imp fun _ hm => ?_
    obtain ⟨name, argument, rfl, hname, node, hform, rfl⟩ := hm
    exact ⟨_, .yield hname hform, rfl⟩
  | yieldStar _ ih =>
    refine (expressible_operator (show "yieldStar" ∈ _ by decide) ih).imp fun _ hm => ?_
    obtain ⟨name, argument, rfl, hname, node, hform, rfl⟩ := hm
    exact ⟨_, .yieldStar hname hform, rfl⟩
  | throwing _ ih =>
    refine .apply .throwing (.fixed (by decide) (.cons ih .nil)) fun _ hm => ?_
    obtain ⟨⟨node, hform, rfl⟩, -⟩ := hm
    exact ⟨_, .throwing hform, rfl⟩

/-! ## Statements -/

/-- Statements of a block, each with a property of its own. -/
theorem expressible_block {properties : List (Stmt → Prop)}
    (h : ∀ property ∈ properties, Expressible (.nonterminal .statement) property) :
    Expressible (.nonterminal .block) fun (block : Block) =>
      List.Forall₂ (fun property stmt => property stmt) properties block := by
  have hstmts := expressible_list .statements .statement
    (fun properties (stmts : Array Stmt) =>
      List.Forall₂ (fun (property : Stmt → Prop) stmt => property stmt) properties stmts.toList)
    (.apply .noStatements .nil fun _ _ => .nil)
    (fun xs x hxs hx => .apply .moreStatements (.cons hxs (.cons hx .nil))
      fun _ hm => forall₂_push hm.1 hm.2.1) h
  exact .apply .block (.fixed (by decide) (.cons hstmts (.fixed (by decide) .nil))) fun _ hm => hm.1

/-- The statements of a tree of a block. -/
theorem expressible_blockTree {trees : List Tree}
    (h : ∀ tree ∈ trees, Expressible (.nonterminal .statement) (StmtOf tree)) :
    Expressible (.nonterminal .block) fun (block : Block) =>
      ∃ nodes, StmtsForm block nodes ∧ treesOf nodes = trees := by
  have hblock := expressible_block (List.forall_mem_map.2 h)
  refine hblock.imp fun (block : Block) hstmts => ?_
  rw [List.forall₂_map_left_iff] at hstmts
  exact stmtsForm_of_forall₂ hstmts

/-- The words for a tree of a statement. Unless a label is in front, they derive a
statement without labels. -/
structure Writes (tree : Tree) : Prop where
  statement : Expressible (.nonterminal .statement) (StmtOf tree)
  unlabeled : tagOf? tree ≠ some .label → tagOf? tree ≠ some .while_ →
    Expressible (.nonterminal .unlabeled) (StmtOf tree)

theorem expressible_plain {property : Stmt → Prop}
    (h : Expressible (.nonterminal .unlabeled) property) :
    Expressible (.nonterminal .statement) property :=
  .apply .plainStatement (.cons h .nil) fun _ hm => hm.1

theorem writes_of_unlabeled {tree : Tree} (h : Expressible (.nonterminal .unlabeled) (StmtOf tree)) :
    Writes tree :=
  ⟨expressible_plain h, fun _ _ => h⟩

theorem expressible_labeled {label : String} (hlabel : Identifier label) {property : Stmt → Prop}
    (h : Expressible (.nonterminal .unlabeled) property) :
    Expressible (.nonterminal .statement) fun (stmt : Stmt) => ∃ (name : Name) (body : Stmt),
      stmt = .labeled name [] body ∧ name.text = label ∧ property body := by
  have hname : Expressible (.nonterminal .label) fun (name : Name) => name.text = label :=
    .apply .label (.cons (expressible_name hlabel) (.fixed (by decide) .nil)) fun _ hm => hm.1
  have hlabels : Expressible (.nonterminal .labels) fun (labels : Name × Array Name) =>
      labels.1.text = label ∧ labels.2 = #[] :=
    .apply .firstLabel (.cons hname .nil) fun _ hm => ⟨hm.1, rfl⟩
  refine .apply .labeledStatement (.cons hlabels (.cons h .nil)) fun meanings hm => ?_
  obtain ⟨⟨name, others⟩, body, ⟨⟩⟩ := meanings
  obtain ⟨⟨htext, hothers⟩, hbody, -⟩ := hm
  dsimp only at htext hothers
  subst hothers
  exact ⟨name, body, rfl, htext, hbody⟩

theorem expressible_expression {tree : Tree} (h : WritableExpr tree) :
    Expressible (.nonterminal .unlabeled) fun (stmt : Stmt) => ∃ (expr : Expr) (node : Node),
      stmt = .expression expr ∧ ExprForm expr node ∧ node.toTree = tree := by
  refine .apply .expressionStatement (.cons h.expressible (.fixed (by decide) .nil)) fun _ hm => ?_
  obtain ⟨⟨node, hform, htree⟩, -⟩ := hm
  exact ⟨_, node, rfl, hform, htree⟩

/-- An expression that yields is a statement by itself. -/
theorem expressible_yield {tree : Tree} (h : WritableExpr tree) (hyield : YieldRooted tree) :
    Expressible (.nonterminal .unlabeled) (StmtOf tree) := by
  refine (expressible_expression h).imp fun _ hm => ?_
  obtain ⟨expr, node, rfl, hform, rfl⟩ := hm
  obtain ⟨-, hnode⟩ | ⟨hplain, -⟩ := statementOf_toTree node
  · exact ⟨statementOf node, .expression hform, by rw [hnode]⟩
  · exact absurd hyield hplain

theorem expressible_loop {condition body : Tree} (hcondition : WritableExpr condition)
    (hbody : Expressible (.nonterminal .statement) (StmtOf body)) :
    Expressible (.nonterminal .unlabeled) fun (stmt : Stmt) => ∃ keyword condition' body' test node,
      stmt = .whileLoop keyword condition' body' ∧ ExprForm condition' test ∧ StmtForm body' node ∧
        test.toTree = condition ∧ node.toTree = body := by
  refine .apply .whileLoop (.fixed (by decide) (.fixed (by decide) (.cons hcondition.expressible
    (.fixed (by decide) (.cons hbody .nil))))) fun _ hm => ?_
  obtain ⟨⟨test, htest, rfl⟩, ⟨node, hnode, rfl⟩, -⟩ := hm
  exact ⟨_, _, _, test, node, rfl, htest, hnode, rfl, rfl⟩

/-- One clause that asks for the exception only. -/
theorem expressible_handler {exception : String} (hname : Identifier exception)
    {property : Block → Prop} (h : Expressible (.nonterminal .block) property) :
    Expressible (.nonterminal .clauses) fun (clauses : Array CatchClause) =>
      ∃ (name : Name) (handler : Block), clauses = #[.mk none (some name) none handler] ∧
        name.text = exception ∧ property handler := by
  have hclause : Expressible (.nonterminal .clause) fun (clause : CatchClause) =>
      ∃ (name : Name) (handler : Block), clause = .mk none (some name) none handler ∧
        name.text = exception ∧ property handler := by
    refine .apply .catchClause (.fixed (by decide) (.fixed (by decide)
      (.cons (expressible_name hname) (.fixed (by decide) (.cons h .nil))))) fun _ hm => ?_
    exact ⟨_, _, rfl, hm.1, hm.2.1⟩
  refine .apply .firstClause (.cons hclause .nil) fun meanings hm => ?_
  obtain ⟨clause, ⟨⟩⟩ := meanings
  obtain ⟨⟨name, handler, rfl, hparts⟩, -⟩ := hm
  exact ⟨name, handler, rfl, hparts⟩

theorem WritableStmt.writes {tree : Tree} (h : WritableStmt tree) : Writes tree := by
  induction h with
  | block _ ih =>
    refine writes_of_unlabeled (.apply .blockStatement
      (.cons (expressible_blockTree fun tree ht => (ih tree ht).statement) .nil) fun _ hm => ?_)
    obtain ⟨⟨nodes, hforms, rfl⟩, -⟩ := hm
    exact ⟨_, .block hforms, rfl⟩
  | expression hvalue hplain =>
    refine writes_of_unlabeled ((expressible_expression hvalue).imp fun _ hm => ?_)
    obtain ⟨expr, node, rfl, hform, rfl⟩ := hm
    obtain ⟨hyield, -⟩ | ⟨-, hnode⟩ := statementOf_toTree node
    · exact absurd hyield hplain
    · exact ⟨statementOf node, .expression hform, by rw [hnode, Node.toTree]⟩
  | yield hvalue =>
    exact writes_of_unlabeled (expressible_yield (.yield hvalue) (.inl (tagOf?_tagged _ _)))
  | yieldStar hvalue =>
    exact writes_of_unlabeled (expressible_yield (.yieldStar hvalue) (.inr (tagOf?_tagged _ _)))
  | returning hvalue =>
    refine writes_of_unlabeled (.apply .returnValue (.fixed (by decide)
      (.cons hvalue.expressible (.fixed (by decide) .nil))) fun _ hm => ?_)
    obtain ⟨⟨node, hform, rfl⟩, -⟩ := hm
    exact ⟨_, .returning hform, rfl⟩
  | yieldBreak =>
    exact writes_of_unlabeled (.apply .bareReturn (.fixed (by decide) (.fixed (by decide) .nil))
      fun _ _ => ⟨_, .yieldBreak, rfl⟩)
  | conditional hcondition _ _ ihthen ihelse =>
    refine writes_of_unlabeled (.apply .ifElse (.fixed (by decide) (.fixed (by decide)
      (.cons hcondition.expressible (.fixed (by decide)
        (.cons (expressible_blockTree fun tree ht => (ihthen tree ht).statement)
          (.fixed (by decide) (.cons ihelse.statement .nil))))))) fun _ hm => ?_)
    obtain ⟨⟨test, hc, rfl⟩, ⟨nodes, ht, rfl⟩, ⟨node, he, rfl⟩, -⟩ := hm
    exact ⟨_, .conditional hc (.block ht) he, rfl⟩
  | labeled hlabel _ hsingle hother ih =>
    refine ⟨(expressible_labeled hlabel (ih.unlabeled hsingle hother)).imp fun _ hm => ?_,
      fun hroot => absurd (tagOf?_tagged _ _) hroot⟩
    obtain ⟨name, body, rfl, rfl, node, hform, rfl⟩ := hm
    -- a loop would have taken the label for its own
    have hloop : ¬ IsLoop body := by
      rw [← hform.unlabeledLoop_iff]
      rintro ⟨condition, body, htree⟩
      exact hother (htree ▸ tagOf?_tagged _ _)
    exact ⟨_, .labeled hloop hform, rfl⟩
  | breaking hlabel =>
    refine writes_of_unlabeled (.apply .labeledBreak (.fixed (by decide)
      (.cons (expressible_name hlabel) (.fixed (by decide) .nil))) fun _ hm => ?_)
    obtain ⟨rfl, -⟩ := hm
    exact ⟨_, .breaking, rfl⟩
  | continuing hlabel =>
    refine writes_of_unlabeled (.apply .labeledContinue (.fixed (by decide)
      (.cons (expressible_name hlabel) (.fixed (by decide) .nil))) fun _ hm => ?_)
    obtain ⟨rfl, -⟩ := hm
    exact ⟨_, .continuing, rfl⟩
  | loop label hlabel hcondition _ ih =>
    refine ⟨?_, fun _ hroot => absurd (tagOf?_tagged _ _) hroot⟩
    have hloop := expressible_loop hcondition ih.statement
    cases label with
    | none =>
      refine expressible_plain (hloop.imp fun _ hm => ?_)
      obtain ⟨keyword, condition, body, test, node, rfl, hc, hb, rfl, rfl⟩ := hm
      exact ⟨_, .loop hc hb, rfl⟩
    | some label =>
      refine (expressible_labeled (hlabel label rfl) hloop).imp fun _ hm => ?_
      obtain ⟨name, _, rfl, rfl, keyword, condition, body, test, node, rfl, hc, hb, rfl, rfl⟩ := hm
      exact ⟨_, .labeledLoop hc hb, rfl⟩
  | tryCatch hname _ _ ihbody ihhandler =>
    refine writes_of_unlabeled (.apply .tryCatch (.fixed (by decide)
      (.cons (expressible_blockTree fun tree ht => (ihbody tree ht).statement)
        (.cons (expressible_handler hname
          (expressible_blockTree fun tree ht => (ihhandler tree ht).statement)) .nil)))
      fun meanings hm => ?_)
    obtain ⟨keyword, body, clauses, ⟨⟩⟩ := meanings
    obtain ⟨⟨nodes, hb, rfl⟩, ⟨name, handler, rfl, rfl, others, hh, rfl⟩, -⟩ := hm
    exact ⟨_, .tryCatch hb hh, rfl⟩
  | tryFinally _ _ ihbody ihfinalizer =>
    refine writes_of_unlabeled (.apply .tryFinally (.fixed (by decide)
      (.cons (expressible_blockTree fun tree ht => (ihbody tree ht).statement) (.fixed (by decide)
        (.cons (expressible_blockTree fun tree ht => (ihfinalizer tree ht).statement) .nil))))
      fun _ hm => ?_)
    obtain ⟨⟨nodes, hb, rfl⟩, ⟨others, hf, rfl⟩, -⟩ := hm
    exact ⟨_, .tryFinally hb hf, rfl⟩

/-! ## Declarations -/

/-- The tree of a declaration. -/
def DeclarationOf (tree : Tree) (declaration : Declaration) : Prop :=
  ∃ procedure, canonDeclaration Classifier.byName declaration = .ok procedure ∧
    procedure.toTree = tree

theorem expressible_formals {parameters : List String}
    (h : ∀ parameter ∈ parameters, Identifier parameter) :
    Expressible (.nonterminal .formals) fun (formals : List Parameter) =>
      ∃ binders : List Binder, formals = binders.map .required ∧
        binders.map (·.name.text) = parameters := by
  have hitems : ∀ parameter ∈ parameters,
      Expressible (.nonterminal .parameter) fun (binder : Binder) => binder.name.text = parameter :=
    fun parameter hparameter => .apply .untypedParameter
      (.cons (expressible_name (h parameter hparameter)) .nil) fun _ hm => hm.1
  have hsection : Expressible (.nonterminal .parameterSection) fun (formals : List Parameter) =>
      ∃ binders : List Binder, formals = binders.map .required ∧
        binders.map (·.name.text) = parameters := by
    by_cases hne : parameters = []
    · subst hne
      exact .apply .noParameters .nil fun _ _ => ⟨[], rfl, rfl⟩
    · have hlist := expressible_nonempty .parameters .parameter
        (fun parameters (binders : Array Binder) => binders.toList.map (·.name.text) = parameters)
        (fun x hx => .apply .firstParameter (.cons hx .nil) fun _ hm => congrArg ([·]) hm.1)
        (fun xs x hxs hx => .apply .moreParameters
          (.cons hxs (.fixed (by decide) (.cons hx .nil))) fun _ hm => by
            obtain ⟨rfl, rfl, -⟩ := hm
            exact (congrArg _ Array.toList_push).trans List.map_append)
        hne hitems
      exact .apply .requiredOnly (.cons hlist .nil) fun _ hm => ⟨_, rfl, hm.1⟩
  exact .apply .formals (.fixed (by decide) (.cons hsection (.fixed (by decide) .nil)))
    fun _ hm => hm.1

/-- A declaration of locals without values. -/
theorem expressible_locals {locals : List String} (hne : locals ≠ [])
    (h : ∀ item ∈ locals, Identifier item) :
    Expressible (.nonterminal .statement) fun (stmt : Stmt) =>
      ∃ (keyword : Keyword) (names : List Name),
        stmt = .declaration keyword (names.map (⟨·, none⟩)) ∧ names.map (·.text) = locals := by
  have hitems : ∀ item ∈ locals, Expressible (.nonterminal .binding) fun (binding : Variable) =>
      ∃ name : Name, binding = ⟨name, none⟩ ∧ name.text = item :=
    fun item hitem => .apply .plainBinding (.cons (expressible_name (h item hitem)) .nil)
      fun _ hm => ⟨_, rfl, hm.1⟩
  have hlist := expressible_nonempty .bindings .binding
    (fun locals (bindings : Array Variable) => ∃ names : List Name,
      bindings.toList = names.map (⟨·, none⟩) ∧ names.map (·.text) = locals)
    (fun x hx => .apply .firstBinding (.cons hx .nil) fun _ hm => by
      obtain ⟨⟨name, hname, rfl⟩, -⟩ := hm
      exact ⟨[name], congrArg ([·]) hname, rfl⟩)
    (fun xs x hxs hx => .apply .moreBindings
      (.cons hxs (.fixed (by decide) (.cons hx .nil))) fun _ hm => by
        obtain ⟨⟨names, hnames, rfl⟩, ⟨name, hname, rfl⟩, -⟩ := hm
        refine ⟨names ++ [name], Array.toList_push.trans ?_, List.map_append⟩
        rw [hnames, hname, List.map_append]
        rfl)
    hne hitems
  refine expressible_plain (.apply .variableStatement (.fixed (by decide)
    (.cons hlist (.fixed (by decide) .nil))) fun meanings hm => ?_)
  obtain ⟨keyword, bindings, mark, ⟨⟩⟩ := meanings
  obtain ⟨⟨names, hnames, htexts⟩, -⟩ := hm
  exact ⟨Token.keyword keyword, names, congrArg _ hnames, htexts⟩

/-- A first statement that has a canonical form is not taken for a declaration. -/
theorem StmtsForm.hoist_eq {stmts : List Stmt} {nodes : List Node} (h : StmtsForm stmts nodes) :
    hoist stmts = ([], stmts) := by
  cases h with
  | nil => rfl
  | cons hfirst _ => cases hfirst <;> rfl

/-- The locals and the trees of the statements in the body of a function. -/
def BodyOf (locals : List String) (trees : List Tree) (block : Block) : Prop :=
  ∃ (names : List Name) (nodes : List Node), (hoist block).1 = names.map (⟨·, none⟩) ∧
    names.map (·.text) = locals ∧ StmtsForm (hoist block).2 nodes ∧ treesOf nodes = trees

/-- The locals are declared by the first statement, unless there are none. -/
theorem expressible_body {locals : List String} (hlocals : ∀ item ∈ locals, Identifier item)
    {trees : List Tree} (htrees : ∀ tree ∈ trees, WritableStmt tree) :
    Expressible (.nonterminal .block) (BodyOf locals trees) := by
  have hstmts : ∀ tree ∈ trees, Expressible (.nonterminal .statement) (StmtOf tree) :=
    fun tree ht => (htrees tree ht).writes.statement
  by_cases hne : locals = []
  · -- there is no declaration of no variables, so the statements have to stand alone
    subst hne
    refine (expressible_blockTree hstmts).imp fun (block : Block) hm => ?_
    obtain ⟨nodes, hforms, rfl⟩ := hm
    have hhoist := hforms.hoist_eq
    exact ⟨[], nodes, by rw [hhoist]; rfl, rfl, by rwa [hhoist], rfl⟩
  · have hblock := expressible_block (List.forall_mem_cons.2
      ⟨expressible_locals hne hlocals, List.forall_mem_map.2 hstmts⟩)
    refine hblock.imp fun (block : Block) hm => ?_
    cases hm with
    | cons hfirst hrest =>
      obtain ⟨keyword, names, rfl, hnames⟩ := hfirst
      rw [List.forall₂_map_left_iff] at hrest
      obtain ⟨nodes, hforms, rfl⟩ := stmtsForm_of_forall₂ hrest
      exact ⟨names, nodes, rfl, hnames, hforms, rfl⟩

theorem WritableFunction.expressible {tree : Tree} (h : WritableFunction tree) :
    Expressible (.nonterminal .declaration) (DeclarationOf tree) := by
  obtain @⟨name, hname, parameters, locals, hparameters, hlocals, statements, hstatements⟩ := h
  have hbody : Expressible (.nonterminal .body) fun (body : Body) =>
      ∃ block : Block, body = .block block none ∧ BodyOf locals statements block :=
    .apply .blockBody (.cons (expressible_body hlocals hstatements) .nil)
      fun _ hm => ⟨_, rfl, hm.1⟩
  have hfunction : Expressible (.nonterminal .functionDeclaration) fun (function : Function) =>
      ∃ procedure, FunctionForm Classifier.byName function procedure ∧
        procedure.toTree = tagged (Classifier.kindOfName name).tag
          [.atom name, .atoms parameters, .atoms locals, blockTree statements] := by
    refine .apply .untypedFunction (.cons (expressible_name hname)
      (.cons (expressible_formals hparameters) (.cons hbody .nil))) fun meanings hm => ?_
    obtain ⟨token, formals, body, ⟨⟩⟩ := meanings
    obtain ⟨rfl, ⟨binders, rfl, rfl⟩, ⟨block, rfl, names, nodes, hnames, rfl, hforms, rfl⟩, -⟩ := hm
    exact ⟨_, .mk rfl (FunctionKind.ofText?_eq_some.2 rfl) hnames hforms, rfl⟩
  exact .apply .functionItself (.cons hfunction .nil) fun _ hm => by
    obtain ⟨⟨procedure, hform, htree⟩, -⟩ := hm
    exact ⟨procedure, canonDeclaration_eq_ok.2 ⟨_, rfl, hform⟩, htree⟩

/-- Writable functions are the canonical forms of the declarations of a text. -/
theorem expressible_unit {trees : List Tree} (h : ∀ tree ∈ trees, WritableFunction tree) :
    Expressible (.nonterminal .unit)
      fun (unit : SourceUnit) => List.Forall₂ DeclarationOf trees unit := by
  have hlist := expressible_list .declarations .declaration
    (fun trees (unit : Array Declaration) => List.Forall₂ DeclarationOf trees unit.toList)
    (.apply .noDeclarations .nil fun _ _ => .nil)
    (fun xs x hxs hx => .apply .moreDeclarations (.cons hxs (.cons hx .nil))
      fun _ hm => forall₂_push hm.1 hm.2.1)
    fun tree ht => (h tree ht).expressible
  exact .apply .unitOf (.cons hlist .nil) fun _ hm => hm.1

end Resumable.Canon
