import Resumable.Grammar.Symbol
import Resumable.Text.Blank

/-!
# The patterns of the scanner

Each pattern matches some non-empty texts. At any place the pattern with the
longest match wins, and among those that tie the one that stands first.
-/

namespace Resumable.Token

/-- The patterns, the first one first. -/
inductive Pattern where
  | blanks
  | comment
  | word
  | decimal
  | hexadecimal
  | singleQuoted
  | doubleQuoted
  | arrow
  | mark
  /-- Any single character that does not end a line. -/
  | stray
  deriving Repr, DecidableEq, Inhabited

/-- A letter of the ASCII alphabet or an underscore. -/
def startsWord (c : Char) : Bool :=
  ('a' ≤ c && c ≤ 'z') || ('A' ≤ c && c ≤ 'Z') || c == '_'

/-- An ASCII digit. -/
def isDecimal (c : Char) : Bool :=
  '0' ≤ c && c ≤ '9'

/-- A hexadecimal digit in either case. -/
def isHexadecimal (c : Char) : Bool :=
  isDecimal c || ('a' ≤ c && c ≤ 'f') || ('A' ≤ c && c ≤ 'F')

/-- A character that may follow the first one of a word. -/
def continuesWord (c : Char) : Bool :=
  startsWord c || isDecimal c

/-- A mark that is a token by itself. -/
def isMark (c : Char) : Bool :=
  (Grammar.Terminal.ofMark? c).isSome

/-- A character that ends a line. -/
def endsLine (c : Char) : Bool :=
  Text.inRanges [(0x0A, 0x0D)] c.toNat

/-- The length of a text between two marks on one line, from the first mark on;
zero if there is no such text. -/
def quotedReach (mark : Char) : List Char → Nat
  | [] => 0
  | c :: cs =>
      if c = mark then
        let content := cs.takeWhile fun d => d != mark && d != '\n'
        match cs.drop content.length with
        | d :: _ => if d = mark then content.length + 2 else 0
        | [] => 0
      else 0

/-- The length of the longest match at the start of a text; zero if there is
none. -/
def Pattern.reach : Pattern → List Char → Nat
  | .blanks, cs => (cs.takeWhile Text.isAsciiBlank).length
  | .comment, '/' :: '/' :: cs => (cs.takeWhile (· != '\n')).length + 2
  | .word, c :: cs => if startsWord c then (cs.takeWhile continuesWord).length + 1 else 0
  | .decimal, cs => (cs.takeWhile isDecimal).length
  | .hexadecimal, '0' :: x :: cs =>
      if x = 'x' ∨ x = 'X' then
        match (cs.takeWhile isHexadecimal).length with
        | 0 => 0
        | n + 1 => n + 3
      else 0
  | .singleQuoted, cs => quotedReach '\'' cs
  | .doubleQuoted, cs => quotedReach '"' cs
  | .arrow, '=' :: '>' :: _ => 2
  | .mark, c :: _ => if isMark c then 1 else 0
  | .stray, c :: _ => if endsLine c then 0 else 1
  | _, _ => 0

/-- All patterns, in the order of precedence. -/
def Pattern.all : List Pattern :=
  [.blanks, .comment, .word, .decimal, .hexadecimal, .singleQuoted, .doubleQuoted, .arrow, .mark,
   .stray]

/-- The better of two matches: the longer one, or the first if they tie. -/
def Pattern.better (cs : List Char) (best : Pattern × Nat) (pattern : Pattern) : Pattern × Nat :=
  let length := pattern.reach cs
  if best.2 < length then (pattern, length) else best

/-- The pattern that wins at the start of a text, and the length of its match. -/
def Pattern.longest (cs : List Char) : Pattern × Nat :=
  all.foldl (better cs) (.stray, 0)

end Resumable.Token
