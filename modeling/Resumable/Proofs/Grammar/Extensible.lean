import Resumable.Proofs.Grammar.Language

/-!
# Beginnings of sentences

A row of kinds of tokens is extensible if some sentence begins with it. Every
symbol derives some tokens, so whatever a production still expects can be
supplied.
-/

namespace Resumable

open Grammar

/-- The rows of kinds of tokens that some sentence begins with. -/
def Extensible (kinds : List Terminal) : Prop :=
  ∃ more, Sentence (kinds ++ more)

theorem Extensible.of_append {kinds more : List Terminal} (h : Extensible (kinds ++ more)) :
    Extensible kinds := by
  obtain ⟨others, hothers⟩ := h
  exact ⟨more ++ others, by rwa [← List.append_assoc]⟩

/-- A token of a kind, without a text. -/
def blankToken (kind : Terminal) : Token :=
  ⟨kind, [], ⟨0, 0⟩⟩

/-- Tokens of extensible kinds begin those of a derivation, and no others do. -/
theorem extensible_iff_exists_yield {tokens : List Token} :
    Extensible (tokens.map (·.kind)) ↔
      ∃ (derivation : Derivation (.nonterminal .unit)) (more : List Token),
        derivation.yield = tokens ++ more := by
  constructor
  · rintro ⟨more, hsentence⟩
    have hkinds : (more.map blankToken).map (·.kind) = more := by
      simp [blankToken, Function.comp_def]
    rw [← hkinds, ← List.map_append, sentence_iff_exists_yield] at hsentence
    obtain ⟨derivation, hyield⟩ := hsentence
    exact ⟨derivation, more.map blankToken, hyield⟩
  · rintro ⟨derivation, more, hyield⟩
    refine ⟨more.map (·.kind), ?_⟩
    rw [← List.map_append]
    exact sentence_iff_exists_yield.2 ⟨derivation, hyield⟩

/-! ## Every symbol derives something -/

namespace Grammar

/-- How deep a derivation of a phrase must be. -/
def depth : Nonterminal → Nat
  | .declarations | .statements | .parameterSection | .argumentSection | .parameter | .modifier
  | .label | .unlabeled | .binding | .primary => 0
  | .unit | .block | .formals | .arguments | .parameters | .optionalParameter | .statement
  | .labels | .bindings | .operand => 1
  | .optionalParameters | .declaration | .body | .clause | .expr => 2
  | .optionals | .functionDeclaration | .clauses | .expressions => 3

/-- Whether a symbol is a token, or a phrase less deep than another. -/
def shallower (phrase : Nonterminal) : Symbol → Bool
  | .terminal _ => true
  | .nonterminal other => depth other < depth phrase

theorem exists_shallower (phrase : Nonterminal) :
    ∃ production : Production, production.lhs = phrase ∧
      ∀ symbol ∈ production.rhs, shallower phrase symbol = true := by
  have hall : ∀ phrase ∈ Nonterminal.all, ∃ production ∈ Production.all,
      production.lhs = phrase ∧ production.rhs.all (shallower phrase) = true := by decide +kernel
  obtain ⟨production, -, hlhs, hrhs⟩ := hall phrase phrase.mem_all
  exact ⟨production, hlhs, List.all_eq_true.1 hrhs⟩

theorem nonempty_forest_of_forall {symbols : List Symbol}
    (h : ∀ symbol ∈ symbols, Nonempty (Derivation symbol)) : Nonempty (Forest symbols) := by
  induction symbols with
  | nil => exact ⟨.nil⟩
  | cons symbol symbols ih =>
    obtain ⟨⟨first⟩, hrest⟩ := List.forall_mem_cons.1 h
    obtain ⟨rest⟩ := ih hrest
    exact ⟨.cons first rest⟩

theorem nonempty_derivation (symbol : Symbol) : Nonempty (Derivation symbol) := by
  cases symbol with
  | terminal kind => exact ⟨.token (blankToken kind)⟩
  | nonterminal phrase =>
    induction hdepth : depth phrase using Nat.strong_induction_on generalizing phrase with
    | _ n ih =>
      obtain ⟨production, rfl, hshallower⟩ := exists_shallower phrase
      have hchildren : ∀ symbol ∈ production.rhs, Nonempty (Derivation symbol) := by
        intro symbol hsymbol
        cases symbol with
        | terminal kind => exact ⟨.token (blankToken kind)⟩
        | nonterminal other =>
          have hless : depth other < depth production.lhs := by
            simpa [shallower] using hshallower _ hsymbol
          exact ih _ (hdepth ▸ hless) other rfl
      obtain ⟨children⟩ := nonempty_forest_of_forall hchildren
      exact ⟨.apply production children⟩

theorem nonempty_forest (symbols : List Symbol) : Nonempty (Forest symbols) :=
  nonempty_forest_of_forall fun symbol _ => nonempty_derivation symbol

end Grammar

end Resumable
