import Resumable.Text.Blank

/-!
# Lines of a text

A line ends with a carriage return, a line feed, or the one followed by the
other, and includes its end.
-/

namespace Resumable.Text

/-- The lines of a text. The last one has no end and may be empty. -/
def splitLines : List Char → List (List Char)
  | [] => [[]]
  | '\r' :: '\n' :: cs => ['\r', '\n'] :: splitLines cs
  | c :: cs =>
      if c = '\r' ∨ c = '\n' then [c] :: splitLines cs
      else
        match splitLines cs with
        | line :: lines => (c :: line) :: lines
        | [] => [[c]]

/-- The same text with a line feed at the end of each line. -/
def unifyLines : List Char → List Char
  | [] => []
  | '\r' :: '\n' :: cs => '\n' :: unifyLines cs
  | c :: cs => (if c = '\r' then '\n' else c) :: unifyLines cs

/-- A place in a text: the number of the line, counted from one, the column,
counted from zero, and the line itself. -/
structure Place where
  row : Nat
  column : Nat
  line : List Char
  deriving Repr, DecidableEq

/-- The place of a position, given the lines from the one with number `row` on. A
position past the end is on the last line. -/
def locate (row position : Nat) : List (List Char) → Place
  | [] => ⟨row, position, []⟩
  | [line] => ⟨row, position, line⟩
  | line :: lines =>
      if position < line.length then ⟨row, position, line⟩
      else locate (row + 1) (position - line.length) lines

end Resumable.Text
