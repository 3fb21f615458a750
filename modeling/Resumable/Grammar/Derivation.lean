import Resumable.Grammar.Production
import Resumable.Token

/-!
# Derivations

A derivation shows how a symbol of the grammar derives some tokens: a terminal
derives a token of its kind, and a phrase derives what the symbols of one of its
productions derive.
-/

namespace Resumable.Grammar

mutual

/-- How a symbol derives its tokens. -/
inductive Derivation : Symbol → Type where
  | token (token : Token) : Derivation (.terminal token.kind)
  | apply (production : Production) (children : Forest production.rhs) :
      Derivation (.nonterminal production.lhs)

/-- How each symbol of a list derives its tokens. -/
inductive Forest : List Symbol → Type where
  | nil : Forest []
  | cons {symbol : Symbol} {symbols : List Symbol} (first : Derivation symbol)
      (rest : Forest symbols) : Forest (symbol :: symbols)

end

mutual

/-- The tokens that a derivation derives, from left to right. -/
def Derivation.yield {symbol : Symbol} : Derivation symbol → List Token
  | .token token => [token]
  | .apply _ children => children.yield

/-- The tokens that a list of derivations derives, from left to right. -/
def Forest.yield {symbols : List Symbol} : Forest symbols → List Token
  | .nil => []
  | .cons first rest => first.yield ++ rest.yield

end

end Resumable.Grammar
