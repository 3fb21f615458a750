import Resumable.Grammar.Derivation
import Resumable.Proofs.Grammar.Enumeration

/-!
# The language of the grammar

The productions are the rules of a context-free grammar. A row of kinds of tokens
is generated by rewriting exactly if some tokens of these kinds have a
derivation, and then all tokens of these kinds have one.
-/

namespace Resumable

open Grammar (Terminal Nonterminal Production Derivation Forest)

/-- A symbol as a letter of the rewriting system. -/
def letter : Grammar.Symbol → Symbol Terminal Nonterminal
  | .terminal kind => .terminal kind
  | .nonterminal phrase => .nonterminal phrase

theorem letter_injective : Function.Injective letter := by
  rintro (kind | phrase) (kind' | phrase') h
  all_goals cases h
  all_goals rfl

/-- The productions as rules of rewriting. -/
def sourceRules : Finset (ContextFreeRule Terminal Nonterminal) :=
  (Production.all.map fun production => ⟨production.lhs, production.rhs.map letter⟩).toFinset

theorem mem_sourceRules {rule : ContextFreeRule Terminal Nonterminal} :
    rule ∈ sourceRules ↔
      ∃ production : Production, rule = ⟨production.lhs, production.rhs.map letter⟩ := by
  simp only [sourceRules, List.mem_toFinset, List.mem_map, Production.mem_all, true_and, eq_comm]

/-- The grammar of source texts. -/
abbrev sourceGrammar : ContextFreeGrammar Terminal where
  NT := Nonterminal
  initial := .unit
  rules := sourceRules

/-- The rows of kinds of tokens that are generated from the phrase for a whole text. -/
def Sentence (kinds : List Terminal) : Prop :=
  kinds ∈ sourceGrammar.language

/-! ## Derivations are generated -/

theorem produces_production (production : Production) :
    sourceGrammar.Produces [.nonterminal production.lhs] (production.rhs.map letter) :=
  ⟨_, mem_sourceRules.2 ⟨production, rfl⟩, ContextFreeRule.Rewrites.input_output⟩

/-- The kinds of some tokens as letters. -/
def kindLetters (tokens : List Token) : List (Symbol Terminal Nonterminal) :=
  (tokens.map (·.kind)).map .terminal

mutual

theorem derives_derivation : {symbol : Grammar.Symbol} → (derivation : Derivation symbol) →
    sourceGrammar.Derives [letter symbol] (kindLetters derivation.yield)
  | _, .token _ => Relation.ReflTransGen.refl
  | _, .apply production children =>
    (produces_production production).trans_derives (derives_forest children)

theorem derives_forest : {symbols : List Grammar.Symbol} → (forest : Forest symbols) →
    sourceGrammar.Derives (symbols.map letter) (kindLetters forest.yield)
  | _, .nil => Relation.ReflTransGen.refl
  | _ :: symbols, .cons first rest => by
    have hfirst := (derives_derivation first).append_right (symbols.map letter)
    have hrest := (derives_forest rest).append_left (kindLetters first.yield)
    have hyield : kindLetters (Forest.cons first rest).yield =
        kindLetters first.yield ++ kindLetters rest.yield := by
      simp [kindLetters, Forest.yield]
    rw [hyield]
    exact hfirst.trans hrest

end

/-! ## What is generated has a derivation -/

theorem exists_forest_append {symbols others : List Grammar.Symbol} (forest : Forest symbols)
    (forest' : Forest others) :
    ∃ both : Forest (symbols ++ others), both.yield = forest.yield ++ forest'.yield := by
  induction symbols with
  | nil =>
    cases forest
    exact ⟨forest', rfl⟩
  | cons symbol symbols ih =>
    cases forest with
    | cons first rest =>
      obtain ⟨both, hboth⟩ := ih rest
      exact ⟨.cons first both, by simp [Forest.yield, hboth]⟩

theorem exists_forest_split {symbols others : List Grammar.Symbol}
    (both : Forest (symbols ++ others)) :
    ∃ (forest : Forest symbols) (forest' : Forest others),
      both.yield = forest.yield ++ forest'.yield := by
  induction symbols with
  | nil => exact ⟨.nil, both, rfl⟩
  | cons symbol symbols ih =>
    cases both with
    | cons first rest =>
      obtain ⟨forest, forest', h⟩ := ih rest
      exact ⟨.cons first forest, forest', by simp [Forest.yield, h]⟩

theorem exists_forest_of_tokens (tokens : List Token) :
    ∃ forest : Forest (tokens.map fun token => .terminal token.kind), forest.yield = tokens := by
  induction tokens with
  | nil => exact ⟨.nil, rfl⟩
  | cons token tokens ih =>
    obtain ⟨forest, hforest⟩ := ih
    exact ⟨.cons (.token token) forest, by simp [Forest.yield, Derivation.yield, hforest]⟩

/-- One step of rewriting, undone in a forest. -/
theorem exists_forest_of_produces {symbols : List Grammar.Symbol}
    {letters : List (Symbol Terminal Nonterminal)}
    (h : sourceGrammar.Produces (symbols.map letter) letters) :
    ∃ symbols' : List Grammar.Symbol, letters = symbols'.map letter ∧
      ∀ forest' : Forest symbols', ∃ forest : Forest symbols, forest.yield = forest'.yield := by
  obtain ⟨rule, hrule, hrewrites⟩ := h
  obtain ⟨production, rfl⟩ := mem_sourceRules.1 hrule
  obtain ⟨before, after, hsymbols, rfl⟩ := hrewrites.exists_parts
  obtain ⟨upper, after', rfl, hupper, rfl⟩ := List.map_eq_append_iff.1 hsymbols
  obtain ⟨before', middle, rfl, rfl, hmiddle⟩ := List.map_eq_append_iff.1 hupper
  obtain ⟨symbol, rfl, hsymbol⟩ := List.map_eq_singleton_iff.1 hmiddle
  obtain rfl : symbol = .nonterminal production.lhs := letter_injective hsymbol
  refine ⟨before' ++ production.rhs ++ after', by rw [List.map_append, List.map_append], ?_⟩
  intro forest'
  obtain ⟨front, last, hfront⟩ := exists_forest_split forest'
  obtain ⟨first, children, hfirst⟩ := exists_forest_split front
  obtain ⟨front', hfront'⟩ := exists_forest_append first (.cons (.apply production children) .nil)
  obtain ⟨forest, hforest⟩ := exists_forest_append front' last
  refine ⟨forest, ?_⟩
  rw [hforest, hfront', hfront, hfirst]
  simp [Forest.yield, Derivation.yield]

/-- Tokens whose kinds are generated from a row of symbols have derivations. -/
theorem exists_forest_of_derives {symbols : List Grammar.Symbol} {tokens : List Token}
    (h : sourceGrammar.Derives (symbols.map letter) (kindLetters tokens)) :
    ∃ forest : Forest symbols, forest.yield = tokens := by
  obtain ⟨letters, hletters⟩ : ∃ letters, symbols.map letter = letters := ⟨_, rfl⟩
  rw [hletters] at h
  -- by the first step, since it is the row of symbols that is taken apart
  induction h using Relation.ReflTransGen.head_induction_on generalizing symbols with
  | refl =>
    have hsymbols : symbols = tokens.map fun token => .terminal token.kind := by
      apply letter_injective.list_map
      rw [hletters, kindLetters, List.map_map, List.map_map]
      rfl
    rw [hsymbols]
    exact exists_forest_of_tokens tokens
  | head hproduces _ ih =>
    rw [← hletters] at hproduces
    obtain ⟨symbols', rfl, hundo⟩ := exists_forest_of_produces hproduces
    obtain ⟨forest', rfl⟩ := ih rfl
    exact hundo forest'

/-- The tokens of a sentence have a derivation, and only those. -/
theorem sentence_iff_exists_yield {tokens : List Token} :
    Sentence (tokens.map (·.kind)) ↔
      ∃ derivation : Derivation (.nonterminal .unit), derivation.yield = tokens := by
  constructor
  · intro h
    have hderives :
        sourceGrammar.Derives ([.nonterminal .unit].map letter) (kindLetters tokens) := h
    obtain ⟨forest, rfl⟩ := exists_forest_of_derives hderives
    cases forest with
    | cons derivation rest =>
      cases rest
      exact ⟨derivation, by simp [Forest.yield]⟩
  · rintro ⟨derivation, rfl⟩
    exact derives_derivation derivation

end Resumable
