import Resumable.Canon.Refusal

/-!
# Classifying functions

A classifier says of what kind a function is, by the text of a tag, or refuses
the function for a reason of its own.
-/

namespace Resumable.Canon

open Source

/-- What tells the kind of a function. The function has the given name. -/
abbrev Classifier := (function : Function) → (name : Name) → Except Violation String

/-- Whether a row of characters occurs in another one. -/
def occursIn (pattern : List Char) : List Char → Bool
  | [] => pattern.isEmpty
  | c :: cs => pattern.isPrefixOf (c :: cs) || occursIn pattern cs

namespace Classifier

/-- The naming convention: `_async` in the name of an asynchronous function, else
`_syncStar` in that of a generator. -/
def kindOfName (name : String) : FunctionKind :=
  if occursIn "_async".toList name.toList then .async
  else if occursIn "_syncStar".toList name.toList then .syncStar
  else .sync

/-- Classify by the name. -/
def byName : Classifier := fun _ name =>
  .ok (kindOfName name.text).tag.text

/-- Classify by the marker before the body. -/
def byModifier : Classifier := fun function _ =>
  match function.body.modifier with
  | none => .ok FunctionKind.sync.tag.text
  | some keyword =>
      match keyword.text with
      | "async" => .ok FunctionKind.async.tag.text
      | "sync*" => .ok FunctionKind.syncStar.tag.text
      | text => .error ⟨.objection (text ++ " function"), some (.keyword keyword)⟩

/-- Give every function the same tag. -/
def const (tag : String) : Classifier := fun _ _ => .ok tag

end Classifier

end Resumable.Canon
