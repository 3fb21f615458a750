import Resumable.Parser.Ahead

/-!
# The states of the parser

A state is the set of all items that are possible after the symbols on the
stack: productions that have been read in part, each with what may follow it. An
item that expects a phrase next brings along the productions of that phrase.
-/

namespace Resumable.Parser

open Grammar

/-- A production of which the symbols before `rest` have been read, and what may
come after the whole of it. -/
structure Item where
  production : Production
  rest : List Symbol
  ahead : Ahead
  deriving Repr, DecidableEq, Inhabited

namespace Item

/-- Whether all symbols have been read. -/
def isComplete (item : Item) : Bool :=
  item.rest.isEmpty

/-- Whether a token is expected next. -/
def expectsToken (item : Item) : Bool :=
  match item.rest with
  | .terminal _ :: _ => true
  | _ => false

/-- The item after one more symbol, if that is the one it expects. -/
def advance (symbol : Symbol) (item : Item) : Option Item :=
  match item.rest with
  | next :: rest => if next = symbol then some { item with rest } else none
  | [] => none

end Item

/-! ## Predictions -/

/-- What may follow each phrase that is expected; nothing may follow one that is
not. -/
abbrev Predictions := Table Ahead

/-- Expect a row of symbols with something of `ahead` after it. -/
def Predictions.expect (predictions : Predictions) (symbols : List Symbol) (ahead : Ahead) :
    Predictions :=
  match symbols with
  | .nonterminal phrase :: rest =>
      predictions.modify phrase fun known => known.union (first rest ahead)
  | _ => predictions

/-- The predictions after a look at a production, if its phrase is expected. -/
def Predictions.lookAt (predictions : Predictions) (production : Production) : Predictions :=
  let ahead := predictions.get production.lhs
  if ahead.isEmpty then predictions else predictions.expect production.rhs ahead

/-- All predictions that follow from some. Each look at all productions but the
last finds something new that may follow a phrase. -/
@[irreducible]
def Predictions.close (predictions : Predictions) : Predictions :=
  settle (Production.all.foldl lookAt) (phraseCount * nextCount + 1) predictions

/-- The productions of the expected phrases, with nothing read. -/
def Predictions.items (predictions : Predictions) : List Item :=
  Production.all.filterMap fun production =>
    let ahead := predictions.get production.lhs
    if ahead.isEmpty then none else some ⟨production, production.rhs, ahead⟩

/-! ## States -/

/-- The items that are possible at a place in a text. -/
structure State where
  items : List Item
  deriving Repr, DecidableEq, Inhabited

namespace State

/-- The state before anything has been read: the whole text is expected. -/
def initial : State :=
  let start : Predictions := (Table.fill .empty).modify .unit fun _ => .single none
  ⟨start.close.items⟩

/-- The state with some items that have been read in part. -/
def ofKernel (kernel : List Item) : State :=
  let expected := kernel.foldl (fun predictions item =>
    Predictions.expect predictions item.rest item.ahead) (Table.fill .empty)
  ⟨kernel ++ expected.close.items⟩

/-- The state after one more symbol. -/
def goto (state : State) (symbol : Symbol) : State :=
  ofKernel (state.items.filterMap (Item.advance symbol))

/-- Whether a token of a kind may come next. -/
def expects (state : State) (kind : Terminal) : Bool :=
  state.items.any fun item => item.rest.head? == some (.terminal kind)

/-- The production that is complete, if it may be followed by what comes next. -/
def complete? (state : State) (next : Next) : Option Production :=
  (state.items.find? fun item => item.isComplete && item.ahead.contains next).map
    (·.production)

/-- The production that is complete whatever comes next: no token is expected, and
there is no other production to choose. -/
def forced? (state : State) : Option Production :=
  if state.items.any Item.expectsToken then none
  else
    match state.items.filter Item.isComplete with
    | [item] => some item.production
    | _ => none

end State

end Resumable.Parser
