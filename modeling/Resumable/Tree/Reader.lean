import Resumable.Text.Blank
import Resumable.Text.Quoted
import Resumable.Tree

/-!
# Reading trees

A text is read from left to right, one character at a time, into the forms it
is made of. A form is a symbol, a string literal, a group in parentheses or
brackets, or a form after an apostrophe. `Tree.read` accepts a text of exactly
one form without string literals.

An apostrophe opens a level of its own, which ends where the level around it
ends: it quotes the first form that follows, and the others follow that form.
-/

namespace Resumable.Tree

/-! ## Forms -/

/-- What a text is made of. -/
inductive Form where
  | symbol (text : String)
  | literal (text : String)
  | group (items : List Form)
  | bracket (items : List Form)
  | quoted (item : Form)
  deriving Repr, Inhabited

mutual

/-- The tree of a form: brackets and apostrophes make a list of one element. A
string literal has no tree; the error gives its text. -/
def Form.toTree : Form → Except String Tree
  | .symbol text => .ok (.atom text)
  | .literal text => .error text
  | .group items => return .list (← treesOf items)
  | .bracket items => return .list [.list (← treesOf items)]
  | .quoted item => return .list [← item.toTree]

/-- The trees of some forms; the first string literal is the error. -/
def treesOf : List Form → Except String (List Tree)
  | [] => .ok []
  | form :: forms => do
      let tree ← form.toTree
      return tree :: (← treesOf forms)

end

/-! ## What can go wrong -/

/-- Why a text has no tree. -/
inductive ReadFault where
  /-- A string literal is not closed. -/
  | openLiteral
  /-- The text ends with a backslash. -/
  | danglingBackslash
  /-- A group ends with another character than its own closing one, or with the text. -/
  | unclosed (expected : Char) (found : Option Char)
  /-- A closing character that closes nothing, and all that follows it. -/
  | leftOver (rest : String)
  /-- Nothing follows the apostrophe at this position. -/
  | nothingQuoted (position : Nat)
  /-- There is no form in the text. -/
  | noForm
  /-- There is more than one form in the text. -/
  | manyForms
  /-- There is a string literal in the text. -/
  | literal (text : String)
  deriving Repr, DecidableEq

/-- The explanation of a fault, for the faults that have one. -/
def ReadFault.message? : ReadFault → Option String
  | .openLiteral => none
  | .danglingBackslash => none
  | .unclosed expected found =>
      let got := match found with
        | some c => Text.quote c.toString
        | none => "None"
      some ("Not enough closing brackets. Expected '" ++ expected.toString ++
        "' to be the last letter in the sexp. Got: " ++ got)
  | .leftOver rest =>
      some ("Too many closing brackets. Expected no character left in the sexp. Got: " ++
        Text.quote rest)
  | .nothingQuoted position =>
      some ("No s-exp is found after an apostrophe at position " ++ Nat.repr position)
  | .noForm => some "not enough values to unpack (expected 1, got 0)"
  | .manyForms => some "too many values to unpack (expected 1)"
  | .literal text => some text

/-! ## The reading machine -/

/-- What opened a level. -/
inductive Opening where
  | parenthesis
  | bracket
  | apostrophe (position : Nat)
  deriving Repr, DecidableEq

/-- An open level: what opened it, and the forms before it in the level around
it, the last one first. -/
structure Level where
  opening : Opening
  before : List Form
  deriving Repr

/-- What the machine is in the midst of. Characters are kept the last one first. -/
inductive Mode where
  | between
  | symbol (read : List Char)
  | symbolEscape (read : List Char)
  | literal (read : List Char)
  | literalEscape (read : List Char)
  | comment
  deriving Repr, DecidableEq

/-- The machine: its mode, the forms of the innermost open level, the last one
first, and the open levels from the inside out. -/
structure Machine where
  mode : Mode := .between
  forms : List Form := []
  levels : List Level := []
  deriving Repr

/-- Whether a character ends a symbol. -/
def endsSymbol (c : Char) : Bool :=
  c ∈ ['(', ')', '[', ']', '"', ';'] || Text.isAsciiBlank c

/-- The characters before which a backslash in a symbol is dropped. -/
def symbolEscapes : List Char :=
  ['\\', '\'', '\x60', '"', '(', ')', '[', ']', ' ', ',', '?', ';', '#']

/-- What a backslash and the next character mean in a symbol. -/
def unescapeSymbol (c : Char) : List Char :=
  if c ∈ symbolEscapes then [c] else ['\\', c]

/-- What a backslash and the next character mean in a string literal. -/
def unescapeLiteral (c : Char) : List Char :=
  if c = '\\' ∨ c = '"' then [c]
  else if c = 'b' then ['\x08']
  else if c = 'f' then ['\x0c']
  else if c = 'n' then ['\n']
  else if c = 'r' then ['\r']
  else if c = 't' then ['\t']
  else ['\\', c]

namespace Machine

/-- The machine after one more form. -/
def add (machine : Machine) (form : Form) : Machine :=
  { machine with mode := .between, forms := form :: machine.forms }

/-- The machine inside a new level. -/
def enter (machine : Machine) (opening : Opening) : Machine :=
  { mode := .between, forms := [], levels := ⟨opening, machine.forms⟩ :: machine.levels }

/-- End the levels of all apostrophes that stand innermost. Each needs a form to
quote. -/
def endQuotes : (forms : List Form) → List Level → Except ReadFault (List Form × List Level)
  | forms, ⟨.apostrophe position, before⟩ :: levels =>
      match forms.reverse with
      | [] => .error (.nothingQuoted position)
      | form :: others => endQuotes ((.quoted form :: others).reverse ++ before) levels
  | forms, levels => .ok (forms, levels)

/-- The machine after a closing character, given with all that follows it. -/
def close (machine : Machine) (closing : Char) (rest : List Char) : Except ReadFault Machine := do
  match ← endQuotes machine.forms machine.levels with
  | (forms, ⟨.parenthesis, before⟩ :: levels) =>
      if closing = ')' then
        return { mode := .between, forms := .group forms.reverse :: before, levels }
      else throw (.unclosed ')' (some closing))
  | (forms, ⟨.bracket, before⟩ :: levels) =>
      if closing = ']' then
        return { mode := .between, forms := .bracket forms.reverse :: before, levels }
      else throw (.unclosed ']' (some closing))
  | _ => throw (.leftOver (String.ofList (closing :: rest)))

/-- The machine after a character that stands between two forms. -/
def start (machine : Machine) (position : Nat) (c : Char) (rest : List Char) :
    Except ReadFault Machine :=
  if c = '"' then .ok { machine with mode := .literal [] }
  else if Text.isAsciiBlank c then .ok { machine with mode := .between }
  else if c = '(' then .ok (machine.enter .parenthesis)
  else if c = '[' then .ok (machine.enter .bracket)
  else if c = ')' ∨ c = ']' then machine.close c rest
  else if c = '\'' then .ok (machine.enter (.apostrophe position))
  else if c = ';' then .ok { machine with mode := .comment }
  else if c = '\\' then .ok { machine with mode := .symbolEscape [] }
  else .ok { machine with mode := .symbol [c] }

/-- The machine after the character at a position. What follows the character
matters only for the explanation of a fault. -/
def step (machine : Machine) (position : Nat) (c : Char) (rest : List Char) :
    Except ReadFault Machine :=
  match machine.mode with
  | .between => machine.start position c rest
  | .comment => .ok { machine with mode := if c = '\n' then .between else .comment }
  | .symbol read =>
      if endsSymbol c then (machine.add (.symbol (String.ofList read.reverse))).start position c rest
      else if c = '\\' then .ok { machine with mode := .symbolEscape read }
      else .ok { machine with mode := .symbol (c :: read) }
  | .symbolEscape read =>
      .ok { machine with mode := .symbol ((unescapeSymbol c).reverse ++ read) }
  | .literal read =>
      if c = '"' then .ok (machine.add (.literal (String.ofList read.reverse)))
      else if c = '\\' then .ok { machine with mode := .literalEscape read }
      else .ok { machine with mode := .literal (c :: read) }
  | .literalEscape read =>
      .ok { machine with mode := .literal ((unescapeLiteral c).reverse ++ read) }

/-- The machine after all characters from a position on. -/
def run (machine : Machine) (position : Nat) : List Char → Except ReadFault Machine
  | [] => .ok machine
  | c :: cs => do (← machine.step position c cs).run (position + 1) cs

/-- The forms that have been read when the text ends outside all groups. -/
def finishLevels (machine : Machine) : Except ReadFault (List Form) := do
  match ← endQuotes machine.forms machine.levels with
  | (_, ⟨.parenthesis, _⟩ :: _) => throw (.unclosed ')' none)
  | (_, ⟨.bracket, _⟩ :: _) => throw (.unclosed ']' none)
  | (forms, _) => return forms.reverse

/-- The forms that have been read when the text ends. -/
def finish (machine : Machine) : Except ReadFault (List Form) :=
  match machine.mode with
  | .between | .comment => machine.finishLevels
  | .symbol read => (machine.add (.symbol (String.ofList read.reverse))).finishLevels
  | .literal _ => .error .openLiteral
  | .symbolEscape _ | .literalEscape _ => .error .danglingBackslash

end Machine

/-! ## Reading -/

/-- The forms of a text. -/
def readForms (cs : List Char) : Except ReadFault (List Form) := do
  (← Machine.run {} 0 cs).finish

/-- The tree of a text that has exactly one form. -/
def read (text : String) : Except ReadFault Tree := do
  match ← readForms text.toList with
  | [] => throw .noForm
  | [form] => form.toTree.mapError .literal
  | _ :: _ :: _ => throw .manyForms

end Resumable.Tree
