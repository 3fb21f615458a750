import Resumable.Canon.Tag

/-!
# Canonical nodes

The canonical form of a function shows what a conversion to continuation-passing
style needs: blocks, hoisted locals, labeled loops, attempts with one handler or
one finalizer, and the forms that suspend.
-/

namespace Resumable.Canon

/-- The kinds of functions. -/
inductive FunctionKind where
  | sync
  | async
  | syncStar
  deriving Repr, DecidableEq, Inhabited

namespace FunctionKind

/-- The tag of the functions of a kind. -/
def tag : FunctionKind → Tag
  | .sync => .sync
  | .async => .async
  | .syncStar => .syncStar

/-- The kind of functions whose tag is written so. -/
def ofText? (text : String) : Option FunctionKind :=
  [sync, async, syncStar].find? fun kind => kind.tag.text == text

end FunctionKind

/-- A canonical node. -/
inductive Node where
  | function (kind : FunctionKind) (name : String) (parameters locals : List String) (body : Node)
  | block (statements : List Node)
  | expression (value : Node)
  | returning (value : Node)
  | yieldBreak
  | conditional (condition thenPart elsePart : Node)
  | labeled (label : String) (statement : Node)
  | breaking (label : String)
  | continuing (label : String)
  | loop (label : Option String) (condition body : Node)
  | tryCatch (body : Node) (exception : String) (handler : Node)
  | tryFinally (body finalizer : Node)
  | constant (text : String)
  | reference (name : String)
  | assignment (name : String) (value : Node)
  | call (name : String) (arguments : List Node)
  | await (value : Node)
  | yield (value : Node)
  | yieldStar (value : Node)
  | throwing (value : Node)
  deriving Repr, Inhabited

/-- The tree of a tagged node. -/
def tagged (tag : Tag) (children : List Tree) : Tree :=
  .list (.atom tag.text :: children)

/-- The tree in the place of a label. -/
def labelTree : Option String → Tree
  | some label => .atom label
  | none => .list []

mutual

/-- The tree of a node. -/
def Node.toTree : Node → Tree
  | .function kind name parameters locals body =>
      tagged kind.tag [.atom name, .atoms parameters, .atoms locals, body.toTree]
  | .block statements => tagged .block [.list (treesOf statements)]
  | .expression value => tagged .expression [value.toTree]
  | .returning value => tagged .return_ [value.toTree]
  | .yieldBreak => tagged .yieldBreak []
  | .conditional condition thenPart elsePart =>
      tagged .if_ [condition.toTree, thenPart.toTree, elsePart.toTree]
  | .labeled label statement => tagged .label [.atom label, statement.toTree]
  | .breaking label => tagged .break_ [.atom label]
  | .continuing label => tagged .continue_ [.atom label]
  | .loop label condition body =>
      tagged .while_ [labelTree label, condition.toTree, body.toTree]
  | .tryCatch body exception handler =>
      tagged .tryCatch [body.toTree, .atom exception, handler.toTree]
  | .tryFinally body finalizer => tagged .tryFinally [body.toTree, finalizer.toTree]
  | .constant text => tagged .constant [.atom text]
  | .reference name => tagged .variable_ [.atom name]
  | .assignment name value => tagged .assignment [.atom name, value.toTree]
  | .call name arguments => tagged .call [.atom name, .list (treesOf arguments)]
  | .await value => tagged .await [value.toTree]
  | .yield value => tagged .yield [value.toTree]
  | .yieldStar value => tagged .yieldStar [value.toTree]
  | .throwing value => tagged .throw [value.toTree]

/-- The trees of some nodes. -/
def treesOf : List Node → List Tree
  | [] => []
  | node :: nodes => node.toTree :: treesOf nodes

end

end Resumable.Canon
