import Mathlib
import Resumable.Grammar.Meaning

/-!
# Properties that productions keep

A property that tokens have, and that the action of each production passes on to what it
makes, holds of what any derivation means.
-/

namespace Resumable.Grammar

/-- What each symbol of a list means has a property. -/
def EachMeaning (property : (symbol : Symbol) → symbol.Meaning → Prop) :
    (symbols : List Symbol) → Meanings symbols → Prop
  | [], _ => True
  | symbol :: symbols, meanings =>
      property symbol meanings.1 ∧ EachMeaning property symbols meanings.2

/-- A property that good tokens have and productions keep. -/
structure Kept (good : Token → Prop) (property : (symbol : Symbol) → symbol.Meaning → Prop) :
    Prop where
  token : ∀ token : Token, good token → property (.terminal token.kind) token
  action : ∀ (production : Production) (meanings : Meanings production.rhs),
    EachMeaning property production.rhs meanings →
      property (.nonterminal production.lhs) (production.action meanings)

section Kept

variable {good : Token → Prop} {property : (symbol : Symbol) → symbol.Meaning → Prop}

mutual

/-- What is derived from good tokens has each property that is kept. -/
theorem Kept.meaning (h : Kept good property) {symbol : Symbol} :
    (derivation : Derivation symbol) → (∀ token ∈ derivation.yield, good token) →
    property symbol derivation.meaning
  | .token token, hgood => h.token token (hgood token List.mem_cons_self)
  | .apply production children, hgood =>
      h.action production children.meanings (h.meanings children hgood)

theorem Kept.meanings (h : Kept good property) {symbols : List Symbol} :
    (forest : Forest symbols) → (∀ token ∈ forest.yield, good token) →
    EachMeaning property symbols forest.meanings
  | .nil, _ => trivial
  | .cons first rest, hgood =>
    ⟨h.meaning first fun token htoken => hgood token (List.mem_append_left _ htoken),
      h.meanings rest fun token htoken => hgood token (List.mem_append_right _ htoken)⟩

end

end Kept

/-! ## Phrases that are lists -/

section Lists

variable {α : Type} {property : α → Prop} {item : α}

theorem forall_mem_push {items : Array α} (hs : ∀ x ∈ items.toList, property x)
    (h : property item) : ∀ x ∈ (items.push item).toList, property x := by
  rw [Array.toList_push, List.forall_mem_append]
  exact ⟨hs, by simpa using h⟩

theorem forall_mem_some (h : property item) : ∀ x ∈ some item, property x := by
  rintro _ ⟨⟩
  exact h

theorem forall_mem_singleton (h : property item) :
    ∀ x ∈ (#[item] : Array α).toList, property x := by
  simpa using h

end Lists

end Resumable.Grammar
