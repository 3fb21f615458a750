import Resumable.Grammar.Derivation
import Resumable.Parser.State
import Resumable.Token.Scan

/-!
# The parser

The parser keeps a stack of derivations of what it has read. With the next token
in view it either puts that token on the stack, or makes one phrase of the
symbols on top of the stack, or is confused. A phrase for which there is no
alternative is made before the next token is looked at.
-/

namespace Resumable.Parser

open Grammar
open Source (Spot)

/-- A derivation on the stack, and the state after it. -/
structure Frame where
  symbol : Symbol
  derivation : Derivation symbol
  state : State

/-- What the parser has read, the last part first. -/
abbrev Stack := List Frame

namespace Stack

/-- The state after all that is on the stack. -/
def state : Stack → State
  | [] => .initial
  | frame :: _ => frame.state

/-- The symbols on the stack, the last one at the end. -/
def symbols (stack : Stack) : List Symbol :=
  (stack.map (·.symbol)).reverse

def push (stack : Stack) {symbol : Symbol} (derivation : Derivation symbol) : Stack :=
  ⟨symbol, derivation, stack.state.goto symbol⟩ :: stack

/-- Take the derivations of some symbols, the last one on top, from the stack. -/
def pop : (symbols : List Symbol) → Stack → Option (Forest symbols × Stack)
  | [], stack => some (.nil, stack)
  | symbol :: symbols, stack => do
      match ← pop symbols stack with
      | (rest, frame :: stack) =>
          if h : frame.symbol = symbol then some (.cons (h ▸ frame.derivation) rest, stack)
          else none
      | (_, []) => none

end Stack

/-- How parsing ends. -/
inductive Outcome where
  | accepted (derivation : Derivation (.nonterminal .unit))
  /-- A stray character stands where a token was to be read. -/
  | stray (character : Char) (spot : Spot)
  /-- The next token (or the end of the text) fits nothing that may follow the
  symbols on the stack. -/
  | confused (symbols : List Symbol) (next : Next) (spot : Spot)

/-- Whether parsing came to a token before it ended. Nothing is read after a token that
fits nothing. -/
def Outcome.reached (token : Token) : Outcome → Bool
  | .confused _ _ spot => token.spot.start ≤ spot.start
  | .accepted _ | .stray _ _ => true

/-- What to do next. -/
inductive Move where
  | shift
  | reduce (production : Production)
  | refuse
  deriving Repr, DecidableEq

/-- What to do with the next token in view. -/
def State.move (state : State) (next : Next) : Move :=
  match state.complete? next with
  | some production => .reduce production
  | none =>
      match next with
      | some kind => if state.expects kind then .shift else .refuse
      | none => .refuse

/-- What to do. Nothing is forced before the first token. -/
def Stack.move (stack : Stack) (tokens : List Token) (ending : Token.Ending) : Move :=
  match stack, stack.state.forced? with
  | _ :: _, some production => .reduce production
  | _, _ =>
      match tokens, ending with
      | token :: _, _ => stack.state.move (some token.kind)
      | [], .finished _ => stack.state.move none
      | [], .stray _ _ => .refuse

/-- Give up at what comes next. -/
def Stack.refuse (stack : Stack) : List Token → Token.Ending → Outcome
  | token :: _, _ => .confused stack.symbols (some token.kind) token.spot
  | [], .finished last => .confused stack.symbols none last
  | [], .stray character spot => .stray character spot

/-- The whole text, or the stack after a phrase has been made. -/
inductive Reduction where
  | whole (derivation : Derivation (.nonterminal .unit))
  | part (stack : Stack)

/-- Make a phrase of the symbols on top of the stack. -/
def Stack.reduce (stack : Stack) (production : Production) : Option Reduction := do
  let (children, stack) ← stack.pop production.rhs
  let derivation := Derivation.apply production children
  if h : production.lhs = .unit then
    return .whole (h ▸ derivation)
  else
    return .part (stack.push derivation)

/-- Run the parser for at most so many moves. -/
def run : Nat → Stack → List Token → Token.Ending → Outcome
  | 0, stack, tokens, ending => stack.refuse tokens ending
  | moves + 1, stack, tokens, ending =>
      match stack.move tokens ending with
      | .reduce production =>
          match stack.reduce production with
          | some (.whole derivation) => .accepted derivation
          | some (.part stack) => run moves stack tokens ending
          | none => stack.refuse tokens ending
      | .shift =>
          match tokens with
          | token :: tokens => run moves (stack.push (.token token)) tokens ending
          | [] => stack.refuse [] ending
      | .refuse => stack.refuse tokens ending

/-- Enough moves for any text of so many tokens. Every token is put on the stack
once, and every phrase but a few takes a share of a token that no other takes. -/
def enoughMoves (tokens : Nat) : Nat :=
  8 * (tokens + 1)

/-- Parse what a scan has found. -/
def parse (scan : Token.Scan) : Outcome :=
  run (enoughMoves scan.tokens.length) [] scan.tokens scan.ending

end Resumable.Parser
