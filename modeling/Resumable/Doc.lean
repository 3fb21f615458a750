/-!
# Documents

A document describes a text together with the places where it may be broken
into lines. A group is printed on one line if it fits and broken at each of
its lines otherwise.
-/

namespace Resumable

/--
A document whose holes, the places still to be filled in, carry an `α`.
Only a document without holes can be laid out; `Doc Empty` has none.
-/
inductive Doc (α : Type) where
  | empty
  | text (content : String)
  /-- A blank in a flat group, and otherwise a line break with the indentation. -/
  | line
  | append (first second : Doc α)
  /-- Adds `depth` (possibly negative) to the indentation of the lines inside. -/
  | nest (depth : Int) (body : Doc α)
  /-- All lines that belong to the group itself are flat, or none is. -/
  | group (body : Doc α)
  | hole (label : α)
  deriving Repr

namespace Doc

/-- The documents one after the other. -/
def concat (parts : List (Doc α)) : Doc α :=
  parts.foldr .append .empty

end Doc

end Resumable
