import Resumable.Proofs.Parser.Items

/-!
# What may follow a phrase

Two tables bound what a phrase may begin with and what may follow it, wherever it
stands in a text. Both are checked against the productions: the first is an
account of how phrases begin, and the second allows all that the rest of a
production puts after a phrase.
-/

namespace Resumable.Parser

open Grammar

/-! ## The tables -/

/-- The set of tokens of some kinds. -/
def Ahead.ofKinds (kinds : List Terminal) : Ahead :=
  kinds.foldr (fun kind ahead => (single (some kind)).union ahead) .empty

/-- The tokens that an expression other than an assignment or a throw begins with. -/
def operandKinds : List Terminal :=
  [.name, .integer, .shortString, .parenL]

/-- The tokens that an expression begins with. -/
def exprKinds : List Terminal :=
  .kwThrow :: operandKinds

/-- The tokens that a statement begins with. -/
def statementKinds : List Terminal :=
  exprKinds ++ [.kwBreak, .kwContinue, .kwDo, .kwIf, .kwReturn, .kwTry, .kwVar, .kwWhile, .braceL,
    .semicolon]

/-- How each phrase begins. -/
def begins : Nonterminal → Opening
  | .unit | .declarations => ⟨true, .ofKinds [.name, .kwVar]⟩
  | .declaration => ⟨false, .ofKinds [.name, .kwVar]⟩
  | .functionDeclaration => ⟨false, .ofKinds [.name]⟩
  | .formals | .arguments => ⟨false, .ofKinds [.parenL]⟩
  | .parameterSection => ⟨true, .ofKinds [.name, .bracketL]⟩
  | .optionals => ⟨false, .ofKinds [.bracketL]⟩
  | .optionalParameters | .optionalParameter | .parameters | .parameter | .labels | .label
  | .bindings | .binding => ⟨false, .ofKinds [.name]⟩
  | .body => ⟨false, .ofKinds [.kwAsync, .kwSync, .braceL, .arrow]⟩
  | .modifier => ⟨false, .ofKinds [.kwAsync, .kwSync]⟩
  | .statements => ⟨true, .ofKinds statementKinds⟩
  | .statement | .unlabeled => ⟨false, .ofKinds statementKinds⟩
  | .block => ⟨false, .ofKinds [.braceL]⟩
  | .clauses | .clause => ⟨false, .ofKinds [.kwCatch, .kwOn]⟩
  | .argumentSection => ⟨true, .ofKinds exprKinds⟩
  | .expressions | .expr => ⟨false, .ofKinds exprKinds⟩
  | .operand | .primary => ⟨false, .ofKinds operandKinds⟩

/-- What may follow each phrase. -/
def follow : Nonterminal → Ahead
  | .unit => .single none
  | .declarations | .declaration | .functionDeclaration | .body =>
      (Ahead.single none).union (.ofKinds [.name, .kwVar])
  | .formals => .ofKinds [.kwAsync, .kwSync, .braceL, .arrow]
  | .parameterSection | .optionals | .argumentSection => .ofKinds [.parenR]
  | .optionalParameters | .optionalParameter => .ofKinds [.bracketR, .comma]
  | .parameters | .expressions => .ofKinds [.parenR, .comma]
  | .parameter => .ofKinds [.parenR, .bracketR, .comma, .equals]
  | .modifier => .ofKinds [.braceL, .arrow]
  | .statements | .statement | .unlabeled => .ofKinds (.braceR :: statementKinds)
  | .labels | .label => .ofKinds statementKinds
  | .block =>
      (Ahead.single none).union
        (.ofKinds (.kwCatch :: .kwElse :: .kwFinally :: .kwOn :: .braceR :: statementKinds))
  | .bindings | .binding => .ofKinds [.semicolon, .comma]
  | .clauses | .clause => .ofKinds (.kwCatch :: .kwFinally :: .kwOn :: .braceR :: statementKinds)
  | .expr => .ofKinds [.parenR, .bracketR, .semicolon, .comma]
  | .arguments | .operand | .primary =>
      .ofKinds [.parenR, .bracketR, .semicolon, .comma, .dot]

/-! ## Checks -/

instance : DecidableLE Ahead := fun a b =>
  decidable_of_iff (a.union b = b) <| by
    constructor
    · intro h
      exact h ▸ Ahead.le_union_left a b
    · intro h
      refine le_antisymm (fun next hnext => ?_) fun next hnext => Ahead.mem_union.2 (.inr hnext)
      rcases Ahead.mem_union.1 hnext with hnext | hnext
      · exact h hnext
      · exact hnext

instance : DecidableLE Opening := fun _ _ =>
  decidable_of_iff _ Opening.le_iff.symm

theorem ofSymbols_le_begins (production : Production) :
    Opening.ofSymbols begins production.rhs ≤ begins production.lhs := by
  have hall : ∀ production ∈ Production.all,
      Opening.ofSymbols begins production.rhs ≤ begins production.lhs := by decide +kernel
  exact hall production production.mem_all

/-- What stands after a phrase in a production is allowed after the phrase. -/
def Allowed (production : Production) : List Symbol → Prop
  | .nonterminal phrase :: rest =>
      (Opening.ofSymbols begins rest).first ≤ follow phrase ∧
        ((Opening.ofSymbols begins rest).vanishes = true → follow production.lhs ≤ follow phrase)
  | _ => True

instance (production : Production) (symbols : List Symbol) :
    Decidable (Allowed production symbols) :=
  match symbols with
  | [] | .terminal _ :: _ => inferInstanceAs (Decidable True)
  | .nonterminal _ :: _ => inferInstanceAs (Decidable (_ ∧ _))

theorem allowed_of_suffix {production : Production} {symbols : List Symbol}
    (h : symbols <:+ production.rhs) : Allowed production symbols := by
  have hall : ∀ production ∈ Production.all, ∀ symbols ∈ production.rhs.tails,
      Allowed production symbols := by decide +kernel
  exact hall production production.mem_all symbols ((List.mem_tails _ _).2 h)

/-! ## The bound -/

theorem Possible.suffix {before : List Symbol} {production : Production} {rest : List Symbol}
    {next : Next} (h : Possible before production rest next) : rest <:+ production.rhs := by
  induction h with
  | whole => exact List.suffix_refl _
  | advance _ ih => exact (List.suffix_cons _ _).trans ih
  | expect => exact List.suffix_refl _

/-- Whatever follows a production that is under way may follow its phrase. -/
theorem Possible.mem_follow {before : List Symbol} {production : Production} {rest : List Symbol}
    {next : Next} (h : Possible before production rest next) : next ∈ follow production.lhs := by
  induction h with
  | whole hunit =>
    rw [hunit]
    exact Ahead.mem_single.2 rfl
  | advance _ ih => exact ih
  | @expect _ production expected rest last next hleader follows ih =>
    obtain ⟨hfirst, hvanishes⟩ := allowed_of_suffix hleader.suffix
    have hbegins : Opening.ofSymbols openings.get rest ≤ Opening.ofSymbols begins rest :=
      Opening.ofSymbols_mono (openings_le ofSymbols_le_begins) rest
    rw [Opening.le_iff] at hbegins
    rw [mem_first, Ahead.mem_single] at follows
    -- it begins what follows the phrase in the production, or follows the production itself
    rcases follows with follows | ⟨hempty, rfl⟩
    · exact hfirst (hbegins.2 follows)
    · exact hvanishes (hbegins.1 hempty) ih

end Resumable.Parser
