import Resumable.Token
import Resumable.Token.Pattern

/-!
# Scanning

A text is cut into pieces by maximal munch. Blanks and comments are dropped, and
a stray character ends the scan.
-/

namespace Resumable.Token

open Grammar (Terminal)
open Source (Spot)

/-- What becomes of a piece of text. -/
inductive Lexeme where
  | dropped
  | token (kind : Terminal)
  | stray
  deriving Repr, DecidableEq

/-- What becomes of a text that a pattern matched. -/
def Pattern.lexeme : Pattern → List Char → Lexeme
  | .blanks, _ => .dropped
  | .comment, _ => .dropped
  | .word, text => .token (.ofWord text)
  | .decimal, _ => .token .integer
  | .hexadecimal, _ => .token .integer
  | .singleQuoted, _ => .token .shortString
  | .doubleQuoted, _ => .token .shortString
  | .arrow, _ => .token .arrow
  | .mark, c :: _ =>
      match Terminal.ofMark? c with
      | some kind => .token kind
      | none => .stray
  | .mark, [] => .stray
  | .stray, _ => .stray

/-- How a scan ends. -/
inductive Ending where
  /-- At the end of the text, with the last piece that was matched, dropped or not. -/
  | finished (last : Spot)
  /-- At a character that no token starts with. -/
  | stray (character : Char) (spot : Spot)
  deriving Repr, DecidableEq

/-- The tokens of a text, and how the scan ended. -/
structure Scan where
  tokens : List Token
  ending : Ending
  deriving Repr, DecidableEq

/-- One more token in front. -/
def Scan.cons (token : Token) (scan : Scan) : Scan :=
  { scan with tokens := token :: scan.tokens }

/-- Scan the rest of a text, which starts at `position`. The first `skip`
characters belong to the piece matched last. -/
def scanFrom (position : Nat) (last : Spot) (skip : Nat) : List Char → Scan
  | [] => ⟨[], .finished last⟩
  | c :: cs =>
      match skip with
      | skip + 1 => scanFrom (position + 1) last skip cs
      | 0 =>
          let (pattern, length) := Pattern.longest (c :: cs)
          let text := (c :: cs).take length
          let spot := ⟨position, position + length⟩
          match pattern.lexeme text with
          | .dropped => scanFrom (position + 1) spot (length - 1) cs
          | .token kind =>
              (scanFrom (position + 1) spot (length - 1) cs).cons ⟨kind, text, spot⟩
          | .stray => ⟨[], .stray c spot⟩

/-- Scan a whole text. -/
def scan (text : String) : Scan :=
  scanFrom 0 ⟨0, 0⟩ 0 text.toList

end Resumable.Token
