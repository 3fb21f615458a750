import Resumable.Proofs.Canon.Writable
import Resumable.Proofs.Grammar.Kept

/-!
# What derivations mean is writable

Each production makes a sound phrase of sound phrases. So the canonical forms of
what is parsed are trees that texts can express.
-/

namespace Resumable.Grammar

open Source
open Canon
open Token (Identifier)

/-! ## Sound meanings -/

/-- What a phrase means has writable canonical forms, as far as it has any. -/
def PhraseSound : (phrase : Nonterminal) → phrase.Meaning → Prop
  | .unit => fun (unit : List Declaration) => ∀ declaration ∈ unit, DeclarationSound declaration
  | .declarations => fun (declarations : Array Declaration) =>
      ∀ declaration ∈ declarations.toList, DeclarationSound declaration
  | .declaration => DeclarationSound
  | .functionDeclaration => FunctionSound
  | .formals | .parameterSection | .optionals => fun (parameters : List Parameter) =>
      ∀ parameter ∈ parameters, Identifier parameter.binder.name.text
  | .optionalParameters => fun (parameters : Array Parameter) =>
      ∀ parameter ∈ parameters.toList, Identifier parameter.binder.name.text
  | .optionalParameter => fun (parameter : Parameter) => Identifier parameter.binder.name.text
  | .parameters => fun (binders : Array Binder) =>
      ∀ binder ∈ binders.toList, Identifier binder.name.text
  | .parameter => fun (binder : Binder) => Identifier binder.name.text
  | .body => fun (body : Body) =>
      ∀ block modifier, body = .block block modifier → ∀ stmt ∈ block, StmtSound stmt
  | .modifier => fun _ => True
  | .statements => fun (stmts : Array Stmt) => ∀ stmt ∈ stmts.toList, StmtSound stmt
  | .statement => StmtSound
  | .labels => fun (labels : Name × Array Name) => Identifier labels.1.text
  | .label => fun (label : Name) => Identifier label.text
  | .unlabeled => fun (stmt : Stmt) => StmtSound stmt ∧ Unlabeled stmt
  | .block => fun (block : Block) => ∀ stmt ∈ block, StmtSound stmt
  | .bindings => fun (bindings : Array Variable) =>
      ∀ item ∈ bindings.toList, Identifier item.name.text
  | .binding => fun (item : Variable) => Identifier item.name.text
  | .clauses => fun (clauses : Array CatchClause) => ∀ clause ∈ clauses.toList, ClauseSound clause
  | .clause => ClauseSound
  | .arguments | .argumentSection => fun (exprs : List Expr) => ∀ expr ∈ exprs, ExprSound expr
  | .expressions => fun (exprs : Array Expr) => ∀ expr ∈ exprs.toList, ExprSound expr
  | .expr | .operand | .primary => ExprSound

/-- What a symbol means is sound: the token of a name has the text of a name. -/
def SymbolSound : (symbol : Symbol) → symbol.Meaning → Prop
  | .terminal kind => fun (token : Token) => kind = .name → Identifier (.ofList token.text)
  | .nonterminal phrase => PhraseSound phrase

/-! ## Actions -/

theorem requiredParameters_sound {binders : Array Binder}
    (h : ∀ binder ∈ binders.toList, Identifier binder.name.text) :
    ∀ parameter ∈ requiredParameters binders, Identifier parameter.binder.name.text := by
  simpa [requiredParameters, Parameter.binder] using h

theorem blockBody_sound {block : Block} (h : ∀ stmt ∈ block, StmtSound stmt)
    (modifier : Option Keyword) : PhraseSound .body (Body.block block modifier) := by
  rintro _ _ ⟨⟩
  exact h

/-- The action of a production keeps what it is made of sound. -/
theorem Production.sound : (production : Production) → (meanings : Meanings production.rhs) →
    EachMeaning SymbolSound production.rhs meanings →
    PhraseSound production.lhs (production.action meanings)
  | .unitOf, _, ⟨h, _⟩ => h
  | .noDeclarations, _, _ => fun _ h => nomatch h
  | .moreDeclarations, _, ⟨hs, h, _⟩ => forall_mem_push hs h
  | .functionItself, _, ⟨h, _⟩ => FunctionSound.declarationSound h
  | .topLevelVariables, _, _ => fun _ h => nomatch h
  | .untypedFunction, _, ⟨hname, hparameters, hbody, _⟩ =>
      ⟨forall_mem_some (hname rfl), hparameters, hbody⟩
  | .typedFunction, _, ⟨_, hname, hparameters, hbody, _⟩ =>
      ⟨forall_mem_some (hname rfl), hparameters, hbody⟩
  | .formals, _, ⟨_, h, _⟩ => h
  | .noParameters, _, _ => fun _ h => nomatch h
  | .requiredOnly, _, ⟨h, _⟩ => requiredParameters_sound h
  | .requiredAndOptional, _, ⟨h, _, hs, _⟩ =>
      List.forall_mem_append.2 ⟨requiredParameters_sound h, hs⟩
  | .optionalOnly, _, ⟨h, _⟩ => h
  | .optionals, _, ⟨_, h, _⟩ => h
  | .firstOptional, _, ⟨h, _⟩ => forall_mem_singleton h
  | .moreOptionals, _, ⟨hs, _, h, _⟩ => forall_mem_push hs h
  | .optionalPlain, _, ⟨h, _⟩ => h
  | .optionalDefault, _, ⟨h, _⟩ => h
  | .firstParameter, _, ⟨h, _⟩ => forall_mem_singleton h
  | .moreParameters, _, ⟨hs, _, h, _⟩ => forall_mem_push hs h
  | .untypedParameter, _, ⟨h, _⟩ => h rfl
  | .typedParameter, _, ⟨_, h, _⟩ => h rfl
  | .blockBody, _, ⟨h, _⟩ => blockBody_sound h _
  | .modifiedBlockBody, _, ⟨_, h, _⟩ => blockBody_sound h _
  | .arrowBody, _, _ => fun _ _ h => nomatch h
  | .modifiedArrowBody, _, _ => fun _ _ h => nomatch h
  | .asyncModifier, _, _ => trivial
  | .asyncStarModifier, _, _ => trivial
  | .syncStarModifier, _, _ => trivial
  | .noStatements, _, _ => fun _ h => nomatch h
  | .moreStatements, _, ⟨hs, h, _⟩ => forall_mem_push hs h
  | .plainStatement, _, ⟨h, _⟩ => h.1
  | .labeledStatement, _, ⟨hlabel, ⟨hbody, hunlabeled⟩, _⟩ =>
      stmtSound_labeled hlabel hbody hunlabeled
  | .firstLabel, _, ⟨h, _⟩ => h
  | .moreLabels, _, ⟨h, _⟩ => h
  | .label, _, ⟨h, _⟩ => h rfl
  | .blockStatement, _, ⟨h, _⟩ => ⟨stmtSound_block h, trivial⟩
  | .variableStatement, _, ⟨_, h, _⟩ => ⟨stmtSound_declaration h, trivial⟩
  | .expressionStatement, _, ⟨h, _⟩ => ⟨stmtSound_expression h, trivial⟩
  | .emptyStatement, _, _ => ⟨stmtSound_of_forms nofun nofun, trivial⟩
  | .bareReturn, _, _ => ⟨stmtSound_returning nofun, trivial⟩
  | .returnValue, _, ⟨_, h, _⟩ => ⟨stmtSound_returning (forall_mem_some h), trivial⟩
  | .ifThen, _, _ => ⟨stmtSound_of_forms nofun nofun, trivial⟩
  | .ifElse, _, ⟨_, _, hcondition, _, hthen, _, helse, _⟩ =>
      ⟨stmtSound_ifElse hcondition hthen helse, trivial⟩
  | .whileLoop, _, ⟨_, _, hcondition, _, hbody, _⟩ =>
      ⟨stmtSound_whileLoop hcondition hbody, trivial⟩
  | .doLoop, _, _ => ⟨stmtSound_of_forms nofun nofun, trivial⟩
  | .bareBreak, _, _ => ⟨stmtSound_breaking nofun, trivial⟩
  | .labeledBreak, _, ⟨_, h, _⟩ => ⟨stmtSound_breaking (forall_mem_some (h rfl)), trivial⟩
  | .bareContinue, _, _ => ⟨stmtSound_continuing nofun, trivial⟩
  | .labeledContinue, _, ⟨_, h, _⟩ => ⟨stmtSound_continuing (forall_mem_some (h rfl)), trivial⟩
  | .tryCatch, _, ⟨_, hbody, hclauses, _⟩ => ⟨stmtSound_attempt hbody hclauses, trivial⟩
  | .tryFinally, _, ⟨_, hbody, _, hfinalizer, _⟩ =>
      ⟨stmtSound_attemptFinally hbody hfinalizer, trivial⟩
  | .tryCatchFinally, _, ⟨_, hbody, _, _, hfinalizer, _⟩ =>
      ⟨stmtSound_attemptFinally hbody hfinalizer, trivial⟩
  | .block, _, ⟨_, h, _⟩ => h
  | .firstBinding, _, ⟨h, _⟩ => forall_mem_singleton h
  | .moreBindings, _, ⟨hs, _, h, _⟩ => forall_mem_push hs h
  | .plainBinding, _, ⟨h, _⟩ => h rfl
  | .initializedBinding, _, ⟨h, _⟩ => h rfl
  | .firstClause, _, ⟨h, _⟩ => forall_mem_singleton h
  | .moreClauses, _, ⟨hs, h, _⟩ => forall_mem_push hs h
  | .catchClause, _, ⟨_, _, hname, _, h, _⟩ => ⟨forall_mem_some (hname rfl), h⟩
  | .catchWithTrace, _, ⟨_, _, hname, _, _, _, h, _⟩ => ⟨forall_mem_some (hname rfl), h⟩
  | .onClause, _, ⟨_, _, h, _⟩ => ⟨nofun, h⟩
  | .onCatchClause, _, ⟨_, _, _, _, hname, _, h, _⟩ => ⟨forall_mem_some (hname rfl), h⟩
  | .arguments, _, ⟨_, h, _⟩ => h
  | .noArguments, _, _ => fun _ h => nomatch h
  | .someArguments, _, ⟨h, _⟩ => h
  | .firstExpression, _, ⟨h, _⟩ => forall_mem_singleton h
  | .moreExpressions, _, ⟨hs, _, h, _⟩ => forall_mem_push hs h
  | .assignment, _, ⟨hname, _, h, _⟩ => exprSound_assignment (hname rfl) h
  | .propertyAssignment, _, _ => fun _ h => nomatch h
  | .throwing, _, ⟨_, h, _⟩ => exprSound_throwing h
  | .plainOperand, _, ⟨h, _⟩ => h
  | .plainPrimary, _, ⟨h, _⟩ => h
  | .call, _, ⟨hname, h, _⟩ => exprSound_call (hname rfl) h
  | .property, _, _ => fun _ h => nomatch h
  | .methodCall, _, _ => fun _ h => nomatch h
  | .integer, _, _ => exprSound_integer _ _
  | .string, _, _ => fun _ h => nomatch h
  | .identifier, _, ⟨h, _⟩ => exprSound_identifier (h rfl)
  | .parenthesized, _, ⟨_, h, _⟩ => h

/-- Names of a text make a meaning that is sound. -/
theorem Derivation.sound {symbol : Symbol} (derivation : Derivation symbol)
    (h : ∀ token ∈ derivation.yield, token.kind = .name → Identifier (.ofList token.text)) :
    SymbolSound symbol derivation.meaning :=
  Kept.meaning ⟨fun _ hname => hname, Production.sound⟩ derivation h

end Resumable.Grammar
