import Resumable.Doc

/-!
# Laying out a document

Groups are decided from the outside in and from left to right. A group is flat
if it and all that follows on the same line fits in the room left on the line.
Inside a flat group everything is flat.
-/

namespace Resumable.Doc

/-- Why a document could not be laid out: a hole that was reached while
printing, or while testing whether a group fits. -/
inductive Fault (α : Type) where
  | printed (label : α)
  | measured (label : α)
  deriving Repr, DecidableEq

/-- A document that is printed with its lines flat, or with its lines broken. -/
structure Item (α : Type) where
  flat : Bool
  doc : Doc α

/-! ## The fit test -/

/-- How a line stands after some of its text. -/
inductive Fit where
  /-- The text is longer than the room. -/
  | over
  /-- The line ended in time. -/
  | ended
  /-- The line goes on, and so much room is left (never less than zero). -/
  | left (room : Int)
  deriving Repr, DecidableEq

/-- Take `length` columns from the room. -/
def Fit.take (room : Int) (length : Nat) : Fit :=
  if room < length then .over else .left (room - length)

/-- Set a document on a line that has some room left. Groups inside count with
the flag of the whole document: they are not decided yet. -/
def measure (flat : Bool) : Doc α → Int → Except (Fault α) Fit
  | .empty, room => .ok (.left room)
  | .text content, room => .ok (.take room content.length)
  | .line, room => .ok (if flat then .take room 1 else .ended)
  | .append first second, room => do
      match ← first.measure flat room with
      | .left room => second.measure flat room
      | result => return result
  | .nest _ body, room => body.measure flat room
  | .group body, room => body.measure flat room
  | .hole label, _ => .error (.measured label)

/-- Set documents one after the other until the line ends. The end of the last
document ends the line. -/
def measureAll : List (Item α) → Int → Except (Fault α) Bool
  | [], _ => .ok true
  | item :: items, room => do
      match ← item.doc.measure item.flat room with
      | .over => return false
      | .ended => return true
      | .left room => measureAll items room

/-- Whether the items, up to the first broken line, fit in the room. -/
def fits (room : Int) (items : List (Item α)) : Except (Fault α) Bool :=
  if room < 0 then .ok false else measureAll items room

/-! ## Printing -/

/-- The text printed so far, and the column at which it goes on. -/
structure Cursor where
  text : String := ""
  column : Int := 0
  deriving Repr, DecidableEq

namespace Cursor

/-- Print a piece of text on the current line. -/
def write (cursor : Cursor) (content : String) : Cursor :=
  { text := cursor.text ++ content, column := cursor.column + content.length }

/-- Start a new line. A negative indentation prints no blanks, yet it is the
column at which the line starts. -/
def newline (cursor : Cursor) (indent : Int) : Cursor :=
  { text := cursor.text ++ "\n" ++ String.ofList (List.replicate indent.toNat ' '),
    column := indent }

end Cursor

/-- Print a document. What comes after it on the page, `rest`, matters only for
the fit test of its groups. -/
def print (width : Int) : Doc α → (indent : Int) → (flat : Bool) → (rest : List (Item α)) →
    Cursor → Except (Fault α) Cursor
  | .empty, _, _, _, cursor => .ok cursor
  | .text content, _, _, _, cursor => .ok (cursor.write content)
  | .line, indent, flat, _, cursor =>
      .ok (if flat then cursor.write " " else cursor.newline indent)
  | .append first second, indent, flat, rest, cursor => do
      let cursor ← first.print width indent flat (⟨flat, second⟩ :: rest) cursor
      second.print width indent flat rest cursor
  | .nest depth body, indent, flat, rest, cursor =>
      body.print width (indent + depth) flat rest cursor
  | .group body, indent, flat, rest, cursor =>
      if flat then
        body.print width indent true rest cursor
      else do
        let flat ← fits (width - cursor.column) (⟨true, body⟩ :: rest)
        body.print width indent flat rest cursor
  | .hole label, _, _, _, _ => .error (.printed label)

/-- The text of a document, fitted to a width where its groups allow it. -/
def layout (doc : Doc α) (width : Int) : Except (Fault α) String := do
  let cursor ← doc.print width 0 false [] {}
  return cursor.text

/-- The text of a document without holes. -/
def pretty (doc : Doc Empty) (width : Int) : String :=
  match doc.layout width with
  | .ok page => page
  | .error (.printed label) => nomatch label
  | .error (.measured label) => nomatch label

end Resumable.Doc
