import Resumable.Source.Declaration
import Resumable.Text.Quoted

/-!
# Phrases

A phrase is any piece of a source text that a diagnostic may point at.
-/

namespace Resumable.Source

/-- A piece of a source text. -/
inductive Phrase where
  | name (it : Name)
  | keyword (it : Keyword)
  | expr (it : Expr)
  | stmt (it : Stmt)
  | declared (it : Variable)
  | label (it : Name)
  | catchClause (it : CatchClause)
  | parameter (it : Parameter)
  | body (it : Body)
  | declaration (it : Declaration)
  deriving Repr

/-- A phrase has no head if it is a catch clause with neither a type nor an
exception. -/
inductive Headless where
  | namelessClause
  deriving Repr, DecidableEq

/-- The spot that identifies a catch clause best: its type, else its exception. -/
def CatchClause.head (clause : CatchClause) : Except Headless (Option Spot) :=
  match clause.exceptionType <|> clause.exception with
  | some name => .ok name.spot
  | none => .error .namelessClause

/-- The spot that identifies a declaration best. -/
def Declaration.head : Declaration → Option Spot
  | .function it => it.head
  | .bindings keyword _ => keyword.spot

namespace Phrase

/-- The spot that identifies a phrase best. It is unknown for a phrase that was
not read from a text. -/
def head : Phrase → Except Headless (Option Spot)
  | .name it => .ok it.spot
  | .keyword it => .ok it.spot
  | .expr it => .ok it.head
  | .stmt it => .ok it.head
  | .declared it => .ok it.name.spot
  | .label it => .ok it.spot
  | .catchClause it => it.head
  | .parameter it => .ok it.head
  | .body it => .ok it.head
  | .declaration it => .ok it.head

/-- A short description, for the phrases that have one. -/
def describe? : Phrase → Option String
  | .name it => some ("<Name " ++ Text.quote it.text ++ ">")
  | .keyword it => some ("<Keyword " ++ it.text ++ ">")
  | .expr (.integer value _) => some ("<Integer " ++ value.repr ++ ">")
  | .expr (.string value _) => some ("<String " ++ Text.quote value ++ ">")
  | .expr (.identifier it) => some ("<Identifier " ++ it.text ++ ">")
  | .expr (.call callee arguments) | .expr (.methodCall _ callee arguments) =>
      some ("<Call " ++ callee.text ++ "/" ++ Nat.repr arguments.length ++ ">")
  | .parameter (.required binder) => some ("<Parameter " ++ binder.name.text ++ ">")
  | .declaration (.function it) =>
      let title := match it.name with
        | some given => given.text
        | none => "?"
      some ("\x7bfn|" ++ title ++ "/" ++ Nat.repr it.parameters.length ++ "\x7d")
  | _ => none

end Phrase

end Resumable.Source
