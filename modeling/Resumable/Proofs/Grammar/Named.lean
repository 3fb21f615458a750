import Resumable.Proofs.Canon.Blame
import Resumable.Proofs.Grammar.Kept

/-!
# Catch clauses of a text are named

The productions of catch clauses all ask for a type or an exception. So each catch clause
in what is parsed has one of them.
-/

namespace Resumable.Grammar

open Source
open Canon

theorem allClausesNamed_iff {stmts : List Stmt} :
    AllClausesNamed stmts ↔ ∀ stmt ∈ stmts, ClausesNamed stmt := by
  induction stmts with
  | nil => simp [AllClausesNamed]
  | cons stmt stmts ih => rw [AllClausesNamed, ih, List.forall_mem_cons]

theorem eachNamed_iff {clauses : List CatchClause} :
    EachNamed clauses ↔ ∀ clause ∈ clauses, Named clause := by
  induction clauses with
  | nil => simp [EachNamed]
  | cons clause clauses ih => rw [EachNamed, ih, List.forall_mem_cons]

/-- Each catch clause in what a phrase means has a type or an exception. -/
def PhraseNamed : (phrase : Nonterminal) → phrase.Meaning → Prop
  | .unit => fun (unit : List Declaration) => ∀ declaration ∈ unit, DeclarationNamed declaration
  | .declarations => fun (declarations : Array Declaration) =>
      ∀ declaration ∈ declarations.toList, DeclarationNamed declaration
  | .declaration => DeclarationNamed
  | .functionDeclaration => fun function => DeclarationNamed (.function function)
  | .body => fun (body : Body) => ∀ type name parameters,
      DeclarationNamed (.function ⟨type, name, parameters, body⟩)
  | .statements => fun (stmts : Array Stmt) => ∀ stmt ∈ stmts.toList, ClausesNamed stmt
  | .statement | .unlabeled => ClausesNamed
  | .block => AllClausesNamed
  | .clauses => fun (clauses : Array CatchClause) => ∀ clause ∈ clauses.toList, Named clause
  | .clause => Named
  -- no catch clause occurs in the other phrases
  | _ => fun _ => True

/-- Each catch clause in what a symbol means has a type or an exception. -/
def SymbolNamed : (symbol : Symbol) → symbol.Meaning → Prop
  | .terminal _ => fun _ => True
  | .nonterminal phrase => PhraseNamed phrase

/-- The action of a production keeps clauses named. -/
theorem Production.named (production : Production) (meanings : Meanings production.rhs)
    (h : EachMeaning SymbolNamed production.rhs meanings) :
    PhraseNamed production.lhs (production.action meanings) := by
  cases production with
  | unitOf | functionItself | plainStatement | blockStatement => exact h.1
  | noDeclarations | noStatements => exact List.forall_mem_nil _
  | moreDeclarations | moreStatements | moreClauses => exact forall_mem_push h.1 h.2.1
  | untypedFunction => exact h.2.2.1 _ _ _
  | typedFunction => exact h.2.2.2.1 _ _ _
  | blockBody => exact fun _ _ _ => h.1
  | modifiedBlockBody => exact fun _ _ _ => h.2.1
  | arrowBody | modifiedArrowBody => exact fun _ _ _ => trivial
  | labeledStatement => exact h.2.1
  | ifThen => exact h.2.2.2.2.1
  | ifElse => exact ⟨h.2.2.2.2.1, h.2.2.2.2.2.2.1⟩
  | whileLoop => exact h.2.2.2.2.1
  | doLoop => exact h.2.1
  | tryCatch => exact ⟨h.2.1, eachNamed_iff.2 h.2.2.1⟩
  | tryFinally => exact ⟨h.2.1, trivial, h.2.2.2.1⟩
  | tryCatchFinally => exact ⟨h.2.1, eachNamed_iff.2 h.2.2.1, h.2.2.2.2.1⟩
  | block => exact allClausesNamed_iff.2 h.2.1
  | firstClause => exact forall_mem_singleton h.1
  | catchClause => exact ⟨.inr rfl, h.2.2.2.2.1⟩
  | catchWithTrace => exact ⟨.inr rfl, h.2.2.2.2.2.2.1⟩
  | onClause => exact ⟨.inl rfl, h.2.2.1⟩
  | onCatchClause => exact ⟨.inl rfl, h.2.2.2.2.2.2.1⟩
  | _ => trivial

/-- Each catch clause in what is derived has a type or an exception. -/
theorem symbolNamed_meaning {symbol : Symbol} (derivation : Derivation symbol) :
    SymbolNamed symbol derivation.meaning := by
  have hkept : Kept (fun _ => True) SymbolNamed := ⟨fun _ _ => trivial, Production.named⟩
  exact hkept.meaning derivation fun _ _ => trivial

end Resumable.Grammar
