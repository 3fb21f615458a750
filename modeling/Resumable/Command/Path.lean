/-!
# Paths

A path is a root, which is empty for a relative path, and the names below it. A
name of a single dot and repeated slashes say nothing; two dots are kept, since
they mean the folder above, whatever it is.
-/

namespace Resumable.Command

/-- A path in a tree of folders. -/
structure Path where
  root : String
  names : List String
  deriving Repr, DecidableEq

namespace Path

/-- The root that a path starts with. Exactly two slashes are a root of their own. -/
def rootOf : List Char → String
  | '/' :: '/' :: '/' :: _ => "/"
  | '/' :: '/' :: _ => "//"
  | '/' :: _ => "/"
  | _ => ""

/-- The pieces between slashes. -/
def splitSlashes : List Char → List (List Char)
  | [] => [[]]
  | c :: cs =>
      if c = '/' then [] :: splitSlashes cs
      else
        match splitSlashes cs with
        | piece :: pieces => (c :: piece) :: pieces
        | [] => [[c]]

/-- The path that is written so. -/
def ofText (text : String) : Path :=
  let pieces := (splitSlashes text.toList).filter fun piece => piece != [] && piece != ['.']
  ⟨rootOf text.toList, pieces.map String.ofList⟩

/-- How a path is written. The path without any names is a dot. -/
def text (path : Path) : String :=
  if path.root.isEmpty && path.names.isEmpty then "."
  else path.root ++ "/".intercalate path.names

/-- Whether a null character occurs in a path. No file has such a path. -/
def hasNull (path : Path) : Bool :=
  path.text.toList.contains '\x00'

/-- A path seen from another one. A path with a root stays as it is. -/
def join (base path : Path) : Path :=
  if path.root.isEmpty then { base with names := base.names ++ path.names } else path

end Path

end Resumable.Command
