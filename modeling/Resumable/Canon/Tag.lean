import Resumable.Tree

/-!
# Tags and shapes

A tagged node is a list that starts with a tag. The tag says how many children
follow and what each of them is.
-/

namespace Resumable.Canon

/-- The tags of canonical trees. -/
inductive Tag where
  | sync
  | async
  | syncStar
  | block
  | expression
  | return_
  | yieldBreak
  | if_
  | label
  | break_
  | continue_
  | while_
  | tryCatch
  | tryFinally
  | constant
  | variable_
  | assignment
  | call
  | await
  | yield
  | yieldStar
  | throw
  deriving Repr, DecidableEq, Inhabited

/-- How a tag is written. -/
def Tag.text : Tag → String
  | .sync => "Sync"
  | .async => "Async"
  | .syncStar => "SyncStar"
  | .block => "Block"
  | .expression => "Expression"
  | .return_ => "Return"
  | .yieldBreak => "YieldBreak"
  | .if_ => "If"
  | .label => "Label"
  | .break_ => "Break"
  | .continue_ => "Continue"
  | .while_ => "While"
  | .tryCatch => "TryCatch"
  | .tryFinally => "TryFinally"
  | .constant => "Constant"
  | .variable_ => "Variable"
  | .assignment => "Assignment"
  | .call => "Call"
  | .await => "Await"
  | .yield => "Yield"
  | .yieldStar => "YieldStar"
  | .throw => "Throw"

/-- All tags. -/
def Tag.all : List Tag :=
  [.sync, .async, .syncStar, .block, .expression, .return_, .yieldBreak, .if_, .label, .break_,
   .continue_, .while_, .tryCatch, .tryFinally, .constant, .variable_, .assignment, .call, .await,
   .yield, .yieldStar, .throw]

/-- The tag that is written so. -/
def Tag.ofText? (text : String) : Option Tag :=
  all.find? fun tag => tag.text == text

/-- The tag of a tagged node. Atoms and plain lists have none. -/
def tagOf? : Tree → Option Tag
  | .list (.atom text :: _) => Tag.ofText? text
  | _ => none

/-! ## Shapes -/

/-- What a child of a tagged node is. -/
inductive Slot where
  | atom
  /-- A plain list of atoms. -/
  | atoms
  /-- A tagged node. -/
  | node
  /-- A plain list of tagged nodes. -/
  | nodes
  /-- An atom, or the empty list where there is no label. -/
  | label
  deriving Repr, DecidableEq

/-- The children that a tag calls for. -/
def Tag.slots : Tag → List Slot
  | .sync => [.atom, .atoms, .atoms, .node]
  | .async => [.atom, .atoms, .atoms, .node]
  | .syncStar => [.atom, .atoms, .atoms, .node]
  | .block => [.nodes]
  | .expression => [.node]
  | .return_ => [.node]
  | .yieldBreak => []
  | .if_ => [.node, .node, .node]
  | .label => [.atom, .node]
  | .break_ => [.atom]
  | .continue_ => [.atom]
  | .while_ => [.label, .node, .node]
  | .tryCatch => [.node, .atom, .node]
  | .tryFinally => [.node, .node]
  | .constant => [.atom]
  | .variable_ => [.atom]
  | .assignment => [.atom, .node]
  | .call => [.atom, .nodes]
  | .await => [.node]
  | .yield => [.node]
  | .yieldStar => [.node]
  | .throw => [.node]

/-- What is wrong with a tree that does not have the shape its tags call for. -/
inductive Complaint where
  | notTagged
  | arity (tag : Tag) (expected found : Nat)
  | wantsAtom (tag : Tag)
  | wantsLabel (tag : Tag)
  | wantsAtoms (tag : Tag)
  | wantsList (tag : Tag)
  | notFunctionTag
  deriving Repr, DecidableEq

/-- The wording of a complaint. -/
def Complaint.message : Complaint → String
  | .notTagged => "not a tagged node"
  | .arity tag expected found =>
      tag.text ++ " takes " ++ Nat.repr expected ++ " children, not " ++ Nat.repr found
  | .wantsAtom tag => tag.text ++ " wants an atom"
  | .wantsLabel tag => tag.text ++ " wants a label"
  | .wantsAtoms tag => tag.text ++ " wants a list of atoms"
  | .wantsList tag => tag.text ++ " wants a list"
  | .notFunctionTag => "not a function tag"

/-- A complaint and the tree it is about. -/
structure Misshapen where
  complaint : Complaint
  culprit : Tree
  deriving Repr, DecidableEq

/-- Whether a tree is an atom. -/
def isAtom : Tree → Bool
  | .atom _ => true
  | .list _ => false

/-- Check a child without tagged nodes in it against its slot, and that the place
of a list of nodes is taken by a list. -/
def checkPlain (tag : Tag) : Slot → Tree → Except Misshapen Unit
  | .atom, child => if isAtom child then .ok () else .error ⟨.wantsAtom tag, child⟩
  | .label, .atom _ => .ok ()
  | .label, .list [] => .ok ()
  | .label, child => .error ⟨.wantsLabel tag, child⟩
  | .atoms, .list items =>
      if items.all isAtom then .ok () else .error ⟨.wantsAtoms tag, .list items⟩
  | .atoms, child => .error ⟨.wantsAtoms tag, child⟩
  | .node, _ => .ok ()
  | .nodes, .list _ => .ok ()
  | .nodes, child => .error ⟨.wantsList tag, child⟩

mutual

/-- Check that a tree is a tagged node, and that every tagged node in it has the
children that its tag calls for. Children are looked at from left to right. -/
def checkShape : Tree → Except Misshapen Unit
  | .atom text => .error ⟨.notTagged, .atom text⟩
  | .list [] => .error ⟨.notTagged, .list []⟩
  | .list (first :: children) =>
      match tagOf? (.list (first :: children)) with
      | none => .error ⟨.notTagged, .list (first :: children)⟩
      | some tag =>
          if children.length = tag.slots.length then checkSlots tag tag.slots children
          else
            .error ⟨.arity tag tag.slots.length children.length, .list (first :: children)⟩
termination_by structural tree => tree

/-- Check children against their slots. -/
def checkSlots (tag : Tag) (slots : List Slot) : List Tree → Except Misshapen Unit
  | [] => .ok ()
  | child :: children =>
      match slots, child with
      | [], _ => .ok ()
      | .node :: slots, child => do
          checkShape child
          checkSlots tag slots children
      | .nodes :: slots, .list items => do
          checkShapes items
          checkSlots tag slots children
      | slot :: slots, child => do
          checkPlain tag slot child
          checkSlots tag slots children
termination_by structural children => children

/-- Check each tree of a list. -/
def checkShapes : List Tree → Except Misshapen Unit
  | [] => .ok ()
  | tree :: trees => do
      checkShape tree
      checkShapes trees
termination_by structural trees => trees

end

end Resumable.Canon
