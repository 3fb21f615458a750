import Resumable.Grammar.Symbol
import Resumable.Source.Expr
import Resumable.Text.Numeral

/-!
# Tokens

A token is a piece of a source text with its kind. What it means follows from
its text alone.
-/

namespace Resumable

open Grammar (Terminal)
open Source (Spot)

/-- A token: its kind, the text as it is written, and where that stands. -/
structure Token where
  kind : Terminal
  text : List Char
  spot : Spot
  deriving Repr, DecidableEq, Inhabited

/-- The number that an integer token denotes: hexadecimal after `0x`, else
decimal. -/
def Token.number : List Char → Nat
  | '0' :: 'x' :: digits => Text.numeralValue 16 digits
  | '0' :: 'X' :: digits => Text.numeralValue 16 digits
  | digits => Text.numeralValue 10 digits

namespace Token

/-- What is wrong with reading a token, if anything is: decimal numerals may be too
long. -/
def unreadable? (limit : Text.DigitLimit) (token : Token) : Option Text.Overlong :=
  if token.kind = .integer then
    match token.text with
    | '0' :: 'x' :: _ | '0' :: 'X' :: _ => none
    | digits => limit.reading? digits.length
  else none

/-- A word as the occurrence of a name. -/
def name (token : Token) : Source.Name :=
  ⟨String.ofList token.text, some token.spot⟩

/-- A word as the occurrence of a reserved word. -/
def keyword (token : Token) : Source.Keyword :=
  ⟨String.ofList token.text, some token.spot⟩

/-- An integer token as an expression. -/
def integer (token : Token) : Source.Expr :=
  .integer (number token.text) (some token.spot)

/-- A string token as an expression: the text between the quotation marks. -/
def string (token : Token) : Source.Expr :=
  .string (String.ofList (token.text.drop 1).dropLast) (some token.spot)

end Token

end Resumable
