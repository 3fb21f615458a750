import Resumable.Proofs.Canon.Violations
import Resumable.Proofs.Grammar.Kept

/-!
# Violations in a text are found at tokens

Each phrase that a violation in a text blames has a head, and that is the spot of a
token: the production that makes the phrase takes the head from one of its tokens, or
from a part of the phrase that has such a head.
-/

namespace Resumable.Grammar

open Source
open Canon

/-! ## Phrases at tokens -/

/-- There is a phrase to blame, and its head is the spot of one of some tokens. -/
def Placed (tokens : List Token) (guilty : Option Phrase) : Prop :=
  ∃ token ∈ tokens, spotOf guilty = .ok (some token.spot)

/-! ## Expressions and statements -/

section Placed

variable {tokens : List Token}

theorem placed_exprs {exprs : List Expr}
    (h : ∀ expr ∈ exprs, Blames (Placed tokens) (exprViolations expr)) :
    Blames (Placed tokens) (exprsViolations exprs) := by
  rw [exprsViolations_eq]
  exact .flatMap h

theorem placed_stmts {stmts : List Stmt}
    (h : ∀ stmt ∈ stmts, Blames (Placed tokens) (stmtViolations stmt)) :
    Blames (Placed tokens) (stmtsViolations stmts) := by
  rw [stmtsViolations_eq]
  exact .flatMap h

theorem placed_call {token : Token} (htoken : token ∈ tokens) {arguments : List Expr}
    (h : ∀ expr ∈ arguments, Blames (Placed tokens) (exprViolations expr)) :
    Blames (Placed tokens) (exprViolations (.call token.name arguments)) := by
  rw [exprViolations]
  exact .append (blames_ownExprViolations ⟨token, htoken, rfl⟩) (placed_exprs h)

/-- A catch clause is at a token, and so are the violations in it. -/
def ClausePlaced (tokens : List Token) (clause : CatchClause) : Prop :=
  Placed tokens (some (.catchClause clause)) ∧ Blames (Placed tokens) (clauseViolations clause)

theorem placed_clauses {clauses : List CatchClause}
    (h : ∀ clause ∈ clauses, ClausePlaced tokens clause) :
    Blames (Placed tokens) (clausesViolations clauses) := by
  rw [clausesViolations_eq]
  exact .flatMap fun clause hclause => (h clause hclause).2

theorem placed_labeled {label : Name} {others : List Name} {body : Stmt}
    (hothers : ∀ other ∈ others, Placed tokens (some (.label other)))
    (hbody : Blames (Placed tokens) (stmtViolations body)) :
    Blames (Placed tokens) (stmtViolations (.labeled label others body)) := by
  cases others with
  | nil => exact hbody
  | cons second others => exact .cons (hothers second List.mem_cons_self) hbody

theorem placed_attempt {keyword : Keyword} {body : List Stmt} {clauses : List CatchClause}
    (hkeyword : Placed tokens (some (.keyword keyword)))
    (hbody : ∀ stmt ∈ body, Blames (Placed tokens) (stmtViolations stmt))
    (hclauses : ∀ clause ∈ clauses, ClausePlaced tokens clause) :
    Blames (Placed tokens) (stmtViolations (.attempt keyword body clauses)) := by
  have hparts := (placed_stmts hbody).append (placed_clauses hclauses)
  match clauses with
  | [] => exact .cons hkeyword hparts
  | [_] => exact hparts
  | _ :: second :: _ => exact .cons (hclauses second (by simp)).1 hparts

theorem placed_attemptFinally {keyword : Keyword} {body finalizer : List Stmt}
    {clauses : List CatchClause} (hkeyword : Placed tokens (some (.keyword keyword)))
    (hbody : ∀ stmt ∈ body, Blames (Placed tokens) (stmtViolations stmt))
    (hclauses : ∀ clause ∈ clauses, ClausePlaced tokens clause)
    (hfinalizer : ∀ stmt ∈ finalizer, Blames (Placed tokens) (stmtViolations stmt)) :
    Blames (Placed tokens) (stmtViolations (.attemptFinally keyword body clauses finalizer)) := by
  have hparts := (placed_stmts hbody).append
    ((placed_clauses hclauses).append (placed_stmts hfinalizer))
  match clauses with
  | [] => exact hparts
  | [_] => exact .cons hkeyword hparts
  | _ :: second :: _ => exact .cons (hclauses second (by simp)).1 hparts

/-! ## Declarations -/

theorem placed_value {item : Variable} (h : Blames (Placed tokens) (localViolations item)) :
    Blames (Placed tokens) (valueViolations item.initializer) := by
  obtain ⟨name, _ | value⟩ := item
  · exact .nil
  · exact (List.forall_mem_cons.1 h).2

/-- The variables that are hoisted stand in the first statement. -/
theorem placed_block {block : Block} {modifier : Option Keyword}
    (h : ∀ stmt ∈ block, Blames (Placed tokens) (stmtViolations stmt)) :
    Blames (Placed tokens) (bodyViolations (.block block modifier)) := by
  rw [bodyViolations]
  unfold hoist
  split
  · obtain ⟨hfirst, hothers⟩ := List.forall_mem_cons.1 h
    exact .append (List.forall_mem_cons.1 hfirst).2 (placed_stmts hothers)
  · exact placed_stmts h

/-- The violations in a body, and its marker, are at tokens. -/
def BodyPlaced (tokens : List Token) (body : Body) : Prop :=
  Blames (Placed tokens) (bodyViolations body) ∧
    ∀ keyword ∈ body.modifier, Placed tokens (some (.keyword keyword))

/-- A function that is declared has a name. The violations in a declaration are at tokens,
whether it is classified by its name or by its marker. -/
structure DeclarationPlaced (tokens : List Token) (declaration : Declaration) : Prop where
  named : ∀ function, declaration = .function function → ∃ name, function.name = some name
  byName : Blames (Placed tokens) (declarationViolations .byName declaration)
  byModifier : Blames (Placed tokens) (declarationViolations .byModifier declaration)

theorem kindViolations_byModifier_placed {function : Function} {name : Name}
    (hname : function.name = some name)
    (hmodifier : ∀ keyword ∈ function.body.modifier, Placed tokens (some (.keyword keyword))) :
    Blames (Placed tokens) (kindViolations .byModifier function) := by
  simp only [kindViolations, hname, Classifier.byModifier]
  cases hmarker : function.body.modifier with
  | none => exact .nil
  | some keyword =>
    dsimp only
    split
    · exact .nil
    · next violation hviolation =>
      split at hviolation <;> cases hviolation
      exact .cons (hmodifier keyword hmarker) .nil

theorem declarationPlaced_function {type : Option Name} {name : Name}
    {parameters : List Parameter} {body : Body}
    (hparameters : ∀ parameter ∈ parameters, Blames (Placed tokens) (parameterViolations parameter))
    (hbody : BodyPlaced tokens body) :
    DeclarationPlaced tokens (.function ⟨type, some name, parameters, body⟩) where
  named := by
    rintro _ ⟨⟩
    exact ⟨name, rfl⟩
  byName := .append .nil (.append (.flatMap hparameters) hbody.1)
  byModifier :=
    .append (kindViolations_byModifier_placed rfl hbody.2) (.append (.flatMap hparameters) hbody.1)

theorem declarationPlaced_bindings {keyword : Keyword} {bindings : List Variable}
    (hkeyword : Placed tokens (some (.keyword keyword)))
    (hbindings : ∀ item ∈ bindings, Blames (Placed tokens) (localViolations item)) :
    DeclarationPlaced tokens (.bindings keyword bindings) where
  named := fun _ h => by cases h
  byName := .cons hkeyword (.flatMap fun item hitem => placed_value (hbindings item hitem))
  byModifier := .cons hkeyword (.flatMap fun item hitem => placed_value (hbindings item hitem))

end Placed

/-! ## Meanings -/

/-- The violations in what a phrase means are at tokens, and so is its head where a
violation may blame it. -/
def PhrasePlaced (tokens : List Token) : (phrase : Nonterminal) → phrase.Meaning → Prop
  | .unit => fun (unit : List Declaration) =>
      ∀ declaration ∈ unit, DeclarationPlaced tokens declaration
  | .declarations => fun (declarations : Array Declaration) =>
      ∀ declaration ∈ declarations.toList, DeclarationPlaced tokens declaration
  | .declaration => DeclarationPlaced tokens
  | .functionDeclaration => fun function => DeclarationPlaced tokens (.function function)
  | .formals | .parameterSection | .optionals => fun (parameters : List Parameter) =>
      ∀ parameter ∈ parameters, Blames (Placed tokens) (parameterViolations parameter)
  | .optionalParameters => fun (parameters : Array Parameter) =>
      ∀ parameter ∈ parameters.toList, Blames (Placed tokens) (parameterViolations parameter)
  | .optionalParameter => fun parameter => Blames (Placed tokens) (parameterViolations parameter)
  | .parameters => fun _ => True
  | .parameter => fun (binder : Binder) => Placed tokens (some (.name binder.name))
  | .body => BodyPlaced tokens
  | .modifier => fun keyword => Placed tokens (some (.keyword keyword))
  | .statements => fun (stmts : Array Stmt) =>
      ∀ stmt ∈ stmts.toList, Blames (Placed tokens) (stmtViolations stmt)
  | .statement | .unlabeled => fun stmt => Blames (Placed tokens) (stmtViolations stmt)
  | .labels => fun (labels : Name × Array Name) =>
      ∀ label ∈ labels.2.toList, Placed tokens (some (.label label))
  | .label => fun label => Placed tokens (some (.label label))
  | .block => fun (block : Block) => ∀ stmt ∈ block, Blames (Placed tokens) (stmtViolations stmt)
  | .bindings => fun (bindings : Array Variable) =>
      ∀ item ∈ bindings.toList, Blames (Placed tokens) (localViolations item)
  | .binding => fun item => Blames (Placed tokens) (localViolations item)
  | .clauses => fun (clauses : Array CatchClause) =>
      ∀ clause ∈ clauses.toList, ClausePlaced tokens clause
  | .clause => ClausePlaced tokens
  | .arguments | .argumentSection => fun (exprs : List Expr) =>
      ∀ expr ∈ exprs, Blames (Placed tokens) (exprViolations expr)
  | .expressions => fun (exprs : Array Expr) =>
      ∀ expr ∈ exprs.toList, Blames (Placed tokens) (exprViolations expr)
  | .expr | .operand | .primary => fun expr =>
      Placed tokens (some (.expr expr)) ∧ Blames (Placed tokens) (exprViolations expr)

/-- What a symbol means is placed: a token is one of those in question. -/
def SymbolPlaced (tokens : List Token) : (symbol : Symbol) → symbol.Meaning → Prop
  | .terminal _ => fun token => token ∈ tokens
  | .nonterminal phrase => PhrasePlaced tokens phrase

/-- The action of a production finds violations at tokens only. -/
theorem Production.placed {tokens : List Token} :
    (production : Production) → (meanings : Meanings production.rhs) →
    EachMeaning (SymbolPlaced tokens) production.rhs meanings →
    PhrasePlaced tokens production.lhs (production.action meanings)
  | .unitOf, _, ⟨h, _⟩ => h
  | .noDeclarations, _, _ => List.forall_mem_nil _
  | .moreDeclarations, _, ⟨hs, h, _⟩ => forall_mem_push hs h
  | .functionItself, _, ⟨h, _⟩ => h
  | .topLevelVariables, _, ⟨htoken, hbindings, _⟩ =>
      declarationPlaced_bindings ⟨_, htoken, rfl⟩ hbindings
  | .untypedFunction, _, ⟨_, hparameters, hbody, _⟩ => declarationPlaced_function hparameters hbody
  | .typedFunction, _, ⟨_, _, hparameters, hbody, _⟩ => declarationPlaced_function hparameters hbody
  | .formals, _, ⟨_, h, _⟩ => h
  | .noParameters, _, _ => List.forall_mem_nil _
  | .requiredOnly, _, _ => List.forall_mem_map.2 fun _ _ => .nil
  | .requiredAndOptional, _, ⟨_, _, h, _⟩ =>
      List.forall_mem_append.2 ⟨List.forall_mem_map.2 fun _ _ => .nil, h⟩
  | .optionalOnly, _, ⟨h, _⟩ => h
  | .optionals, _, ⟨_, h, _⟩ => h
  | .firstOptional, _, ⟨h, _⟩ => forall_mem_singleton h
  | .moreOptionals, _, ⟨hs, _, h, _⟩ => forall_mem_push hs h
  | .optionalPlain, _, ⟨h, _⟩ => .cons h .nil
  | .optionalDefault, _, ⟨h, _, hvalue, _⟩ => .cons h hvalue.2
  | .firstParameter, _, _ => trivial
  | .moreParameters, _, _ => trivial
  | .untypedParameter, _, ⟨htoken, _⟩ => ⟨_, htoken, rfl⟩
  | .typedParameter, _, ⟨_, htoken, _⟩ => ⟨_, htoken, rfl⟩
  | .blockBody, _, ⟨h, _⟩ => ⟨placed_block h, fun _ hnone => by cases hnone⟩
  | .modifiedBlockBody, _, ⟨hmodifier, h, _⟩ => ⟨placed_block h, forall_mem_some hmodifier⟩
  | .arrowBody, _, ⟨_, hvalue, _⟩ => ⟨.cons hvalue.1 hvalue.2, fun _ hnone => by cases hnone⟩
  | .modifiedArrowBody, _, ⟨hmodifier, _, hvalue, _⟩ =>
      ⟨.cons hmodifier hvalue.2, forall_mem_some hmodifier⟩
  | .asyncModifier, _, ⟨htoken, _⟩ => ⟨_, htoken, rfl⟩
  | .asyncStarModifier, _, ⟨htoken, _⟩ => ⟨_, htoken, rfl⟩
  | .syncStarModifier, _, ⟨htoken, _⟩ => ⟨_, htoken, rfl⟩
  | .noStatements, _, _ => List.forall_mem_nil _
  | .moreStatements, _, ⟨hs, h, _⟩ => forall_mem_push hs h
  | .plainStatement, _, ⟨h, _⟩ => h
  | .labeledStatement, _, ⟨hlabels, hbody, _⟩ => placed_labeled hlabels hbody
  | .firstLabel, _, _ => List.forall_mem_nil _
  | .moreLabels, _, ⟨hs, h, _⟩ => forall_mem_push hs h
  | .label, _, ⟨htoken, _⟩ => ⟨_, htoken, rfl⟩
  | .blockStatement, _, ⟨h, _⟩ => placed_stmts h
  | .variableStatement, _, ⟨htoken, hbindings, _⟩ => .cons ⟨_, htoken, rfl⟩ (.flatMap hbindings)
  | .expressionStatement, _, ⟨h, _⟩ => h.2
  | .emptyStatement, _, ⟨htoken, _⟩ => .cons ⟨_, htoken, rfl⟩ .nil
  | .bareReturn, _, _ => .nil
  | .returnValue, _, ⟨_, h, _⟩ => h.2
  | .ifThen, _, ⟨htoken, _, hcondition, _, hthen, _⟩ =>
      .append (.cons ⟨_, htoken, rfl⟩ .nil) (.append hcondition.2 (placed_stmts hthen))
  | .ifElse, _, ⟨_, _, hcondition, _, hthen, _, helse, _⟩ =>
      .append hcondition.2 (.append (placed_stmts hthen) helse)
  | .whileLoop, _, ⟨_, _, hcondition, _, hbody, _⟩ => .append hcondition.2 hbody
  | .doLoop, _, ⟨htoken, hbody, _, _, hcondition, _⟩ =>
      .append (.cons ⟨_, htoken, rfl⟩ .nil) (.append hbody hcondition.2)
  | .bareBreak, _, ⟨htoken, _⟩ => .cons ⟨_, htoken, rfl⟩ .nil
  | .labeledBreak, _, _ => .nil
  | .bareContinue, _, ⟨htoken, _⟩ => .cons ⟨_, htoken, rfl⟩ .nil
  | .labeledContinue, _, _ => .nil
  | .tryCatch, _, ⟨htoken, hbody, hclauses, _⟩ =>
      placed_attempt ⟨_, htoken, rfl⟩ hbody hclauses
  | .tryFinally, _, ⟨htoken, hbody, _, hfinalizer, _⟩ =>
      placed_attemptFinally ⟨_, htoken, rfl⟩ hbody (List.forall_mem_nil _) hfinalizer
  | .tryCatchFinally, _, ⟨htoken, hbody, hclauses, _, hfinalizer, _⟩ =>
      placed_attemptFinally ⟨_, htoken, rfl⟩ hbody hclauses hfinalizer
  | .block, _, ⟨_, h, _⟩ => h
  | .firstBinding, _, ⟨h, _⟩ => forall_mem_singleton h
  | .moreBindings, _, ⟨hs, _, h, _⟩ => forall_mem_push hs h
  | .plainBinding, _, _ => .nil
  | .initializedBinding, _, ⟨htoken, _, hvalue, _⟩ => .cons ⟨_, htoken, rfl⟩ hvalue.2
  | .firstClause, _, ⟨h, _⟩ => forall_mem_singleton h
  | .moreClauses, _, ⟨hs, h, _⟩ => forall_mem_push hs h
  | .catchClause, _, ⟨_, _, htoken, _, hbody, _⟩ => ⟨⟨_, htoken, rfl⟩, placed_stmts hbody⟩
  | .catchWithTrace, _, ⟨_, _, htoken, _, htrace, _, hbody, _⟩ =>
      ⟨⟨_, htoken, rfl⟩, .cons ⟨_, htrace, rfl⟩ (placed_stmts hbody)⟩
  | .onClause, _, ⟨_, htoken, hbody, _⟩ =>
      ⟨⟨_, htoken, rfl⟩,
        .cons ⟨_, htoken, rfl⟩ (.cons ⟨_, htoken, rfl⟩ (placed_stmts hbody))⟩
  | .onCatchClause, _, ⟨_, htoken, _, _, _, _, hbody, _⟩ =>
      ⟨⟨_, htoken, rfl⟩, .cons ⟨_, htoken, rfl⟩ (placed_stmts hbody)⟩
  | .arguments, _, ⟨_, h, _⟩ => h
  | .noArguments, _, _ => List.forall_mem_nil _
  | .someArguments, _, ⟨h, _⟩ => h
  | .firstExpression, _, ⟨h, _⟩ => forall_mem_singleton h.2
  | .moreExpressions, _, ⟨hs, _, h, _⟩ => forall_mem_push hs h.2
  | .assignment, _, ⟨htoken, _, hvalue, _⟩ => ⟨⟨_, htoken, rfl⟩, hvalue.2⟩
  | .propertyAssignment, _, ⟨htarget, _, htoken, _, hvalue, _⟩ =>
      ⟨⟨_, htoken, rfl⟩,
        .append (.cons ⟨_, htoken, rfl⟩ .nil)
          (.append (.cons ⟨_, htoken, rfl⟩ htarget.2) hvalue.2)⟩
  | .throwing, _, ⟨htoken, hvalue, _⟩ => ⟨⟨_, htoken, rfl⟩, hvalue.2⟩
  | .plainOperand, _, ⟨h, _⟩ => h
  | .plainPrimary, _, ⟨h, _⟩ => h
  | .call, _, ⟨htoken, harguments, _⟩ => ⟨⟨_, htoken, rfl⟩, placed_call htoken harguments⟩
  | .property, _, ⟨htarget, _, htoken, _⟩ =>
      ⟨⟨_, htoken, rfl⟩, .cons ⟨_, htoken, rfl⟩ htarget.2⟩
  | .methodCall, _, ⟨htarget, _, htoken, harguments, _⟩ =>
      ⟨⟨_, htoken, rfl⟩,
        .append (.cons ⟨_, htoken, rfl⟩ .nil) (.append htarget.2 (placed_exprs harguments))⟩
  | .integer, _, ⟨htoken, _⟩ => ⟨⟨_, htoken, rfl⟩, .nil⟩
  | .string, _, ⟨htoken, _⟩ => ⟨⟨_, htoken, rfl⟩, .cons ⟨_, htoken, rfl⟩ .nil⟩
  | .identifier, _, ⟨htoken, _⟩ => ⟨⟨_, htoken, rfl⟩, .nil⟩
  | .parenthesized, _, ⟨_, h, _⟩ => h

/-- The violations in what is derived are at the tokens that it is derived from. -/
theorem symbolPlaced_meaning {symbol : Symbol} {tokens : List Token}
    (derivation : Derivation symbol) (h : ∀ token ∈ derivation.yield, token ∈ tokens) :
    SymbolPlaced tokens symbol derivation.meaning := by
  have hkept : Kept (· ∈ tokens) (SymbolPlaced tokens) :=
    ⟨fun _ htoken => htoken, Production.placed⟩
  exact hkept.meaning derivation h

end Resumable.Grammar
