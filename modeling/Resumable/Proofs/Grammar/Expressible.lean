import Resumable.Grammar.Meaning
import Resumable.Proofs.Token.Spelling

/-!
# What can be expressed by words

A phrase is expressed by words if tokens with these words derive it, wherever the
tokens stand in a text. Productions put the words of their parts together.
-/

namespace Resumable.Grammar

/-- Some words derive a symbol with a meaning that has a property. -/
def Expressible (symbol : Symbol) (property : symbol.Meaning → Prop) : Prop :=
  ∃ words : List Token.Word, (∀ word ∈ words, word.Spellable) ∧
    ∀ tokens : List Token, tokens.map Token.word = words →
      ∃ derivation : Derivation symbol, derivation.yield = tokens ∧ property derivation.meaning

/-- Some words derive a row of symbols with meanings that have a property. -/
def RowExpressible (symbols : List Symbol) (property : Meanings symbols → Prop) : Prop :=
  ∃ words : List Token.Word, (∀ word ∈ words, word.Spellable) ∧
    ∀ tokens : List Token, tokens.map Token.word = words →
      ∃ forest : Forest symbols, forest.yield = tokens ∧ property forest.meanings

theorem Expressible.token {kind : Terminal} {text : List Char}
    (h : Token.Word.Spellable ⟨kind, text⟩) :
    Expressible (.terminal kind) fun (token : Token) => token.text = text := by
  refine ⟨[⟨kind, text⟩], by simpa using h, fun tokens htokens => ?_⟩
  obtain ⟨token, rfl, htoken⟩ := List.map_eq_singleton_iff.1 htokens
  obtain ⟨rfl, rfl⟩ := Token.Word.mk.inj htoken
  exact ⟨.token token, rfl, rfl⟩

theorem RowExpressible.nil : RowExpressible [] fun _ => True :=
  ⟨[], nofun, fun _ htokens => ⟨.nil, (List.map_eq_nil_iff.1 htokens).symm, trivial⟩⟩

theorem RowExpressible.cons {symbol : Symbol} {symbols : List Symbol}
    {property : symbol.Meaning → Prop} {others : Meanings symbols → Prop}
    (hfirst : Expressible symbol property) (hrest : RowExpressible symbols others) :
    RowExpressible (symbol :: symbols) fun meanings => property meanings.1 ∧ others meanings.2 := by
  obtain ⟨words, hwords, hderives⟩ := hfirst
  obtain ⟨words', hwords', hderives'⟩ := hrest
  refine ⟨words ++ words', List.forall_mem_append.2 ⟨hwords, hwords'⟩, fun tokens htokens => ?_⟩
  -- the tokens are cut where the words of the first symbol end
  obtain ⟨before, after, rfl, hbefore, hafter⟩ := List.map_eq_append_iff.1 htokens
  obtain ⟨derivation, rfl, hmeaning⟩ := hderives before hbefore
  obtain ⟨forest, rfl, hmeanings⟩ := hderives' after hafter
  exact ⟨.cons derivation forest, rfl, hmeaning, hmeanings⟩

theorem Expressible.apply (production : Production) {others : Meanings production.rhs → Prop}
    {property : production.lhs.Meaning → Prop} (h : RowExpressible production.rhs others)
    (haction : ∀ meanings, others meanings → property (production.action meanings)) :
    Expressible (.nonterminal production.lhs) property := by
  obtain ⟨words, hwords, hderives⟩ := h
  refine ⟨words, hwords, fun tokens htokens => ?_⟩
  obtain ⟨forest, rfl, hmeanings⟩ := hderives tokens htokens
  exact ⟨.apply production forest, rfl, haction _ hmeanings⟩

theorem Expressible.imp {symbol : Symbol} {property other : symbol.Meaning → Prop}
    (h : Expressible symbol property) (himp : ∀ meaning, property meaning → other meaning) :
    Expressible symbol other := by
  obtain ⟨words, hwords, hderives⟩ := h
  refine ⟨words, hwords, fun tokens htokens => ?_⟩
  obtain ⟨derivation, hyield, hmeaning⟩ := hderives tokens htokens
  exact ⟨derivation, hyield, himp _ hmeaning⟩

/-! ## Tokens -/

theorem expressible_name {text : String} (h : Token.Identifier text) :
    Expressible (.terminal .name) fun (token : Token) => token.name.text = text := by
  refine (Expressible.token h.spellable).imp fun (token : Token) htext => ?_
  rw [Token.name, htext, String.ofList_toList]

/-- A reserved word or a mark, in front of a row of symbols. -/
theorem RowExpressible.fixed {kind : Terminal}
    (h : kind ∉ [Terminal.name, .integer, .shortString, .arrow]) {symbols : List Symbol}
    {others : Meanings symbols → Prop} (hrest : RowExpressible symbols others) :
    RowExpressible (.terminal kind :: symbols) fun meanings => others meanings.2 := by
  obtain ⟨words, hwords, hderives⟩ := RowExpressible.cons (.token (Token.spellable_spelling h)) hrest
  refine ⟨words, hwords, fun tokens htokens => ?_⟩
  obtain ⟨forest, hyield, -, hmeanings⟩ := hderives tokens htokens
  exact ⟨forest, hyield, hmeanings⟩

/-! ## Lists -/

section Lists

variable {α : Type} (list item : Nonterminal) (whole : List α → list.Meaning → Prop)
  {part : α → item.Meaning → Prop}

/-- A list that grows at its end is expressible if its items are. -/
theorem expressible_list (empty : Expressible (.nonterminal list) (whole []))
    (more : ∀ xs x, Expressible (.nonterminal list) (whole xs) →
      Expressible (.nonterminal item) (part x) →
      Expressible (.nonterminal list) (whole (xs ++ [x])))
    {xs : List α} (h : ∀ x ∈ xs, Expressible (.nonterminal item) (part x)) :
    Expressible (.nonterminal list) (whole xs) := by
  induction xs using List.reverseRecOn with
  | nil => exact empty
  | append_singleton xs x ih =>
    obtain ⟨hxs, hx⟩ := List.forall_mem_append.1 h
    exact more xs x (ih hxs) (hx x List.mem_cons_self)

/-- A list that has at least one item. -/
theorem expressible_nonempty
    (first : ∀ x, Expressible (.nonterminal item) (part x) →
      Expressible (.nonterminal list) (whole [x]))
    (more : ∀ xs x, Expressible (.nonterminal list) (whole xs) →
      Expressible (.nonterminal item) (part x) →
      Expressible (.nonterminal list) (whole (xs ++ [x])))
    {xs : List α} (hne : xs ≠ []) (h : ∀ x ∈ xs, Expressible (.nonterminal item) (part x)) :
    Expressible (.nonterminal list) (whole xs) := by
  induction xs using List.reverseRecOn with
  | nil => exact absurd rfl hne
  | append_singleton xs x ih =>
    obtain ⟨hxs, hx⟩ := List.forall_mem_append.1 h
    have hlast := hx x List.mem_cons_self
    by_cases hempty : xs = []
    · subst hempty
      exact first x hlast
    · exact more xs x (ih hempty hxs) hlast

end Lists

end Resumable.Grammar
