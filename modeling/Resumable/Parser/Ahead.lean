import Resumable.Grammar.Production

/-!
# Look-ahead sets

What may come next in a text is a terminal or the end of the text. A set of such
things is kept as a row of bits, one for each of them.
-/

namespace Resumable.Parser

open Grammar

/-- What comes next: a token of some kind, or the end of the text. -/
abbrev Next := Option Terminal

/-- The bit for what comes next. -/
def Next.place : Next → Nat
  | none => 0
  | some kind => kind.ctorIdx + 1

/-- The number of things that may come next. -/
def nextCount : Nat := 32

/-- A set of things that may come next. -/
structure Ahead where
  bits : BitVec nextCount
  deriving Repr, DecidableEq, Inhabited

namespace Ahead

def empty : Ahead := ⟨0⟩

def single (next : Next) : Ahead := ⟨.twoPow nextCount next.place⟩

def union (a b : Ahead) : Ahead := ⟨a.bits ||| b.bits⟩

def isEmpty (a : Ahead) : Bool := a.bits == 0

def contains (a : Ahead) (next : Next) : Bool := a.bits.getLsbD next.place

end Ahead

/-! ## Tables by phrase -/

/-- The number of phrases. -/
def phraseCount : Nat := 29

/-- A value for each phrase of the grammar. -/
structure Table (α : Type) where
  values : Vector α phraseCount
  deriving Repr, DecidableEq

namespace Table

/-- The place of a phrase in a table. -/
def place (phrase : Nonterminal) : Fin phraseCount :=
  ⟨phrase.ctorIdx, by cases phrase <;> decide⟩

/-- The same value for every phrase. -/
def fill (value : α) : Table α :=
  ⟨.replicate phraseCount value⟩

def get (table : Table α) (phrase : Nonterminal) : α :=
  table.values.get (place phrase)

def modify (table : Table α) (phrase : Nonterminal) (change : α → α) : Table α :=
  ⟨table.values.set (place phrase) (change (table.get phrase)) (place phrase).isLt⟩

end Table

/-- Repeat a step until it changes nothing, so many times at most. -/
def settle {α : Type} [DecidableEq α] (grow : α → α) : Nat → α → α
  | 0, value => value
  | rounds + 1, value =>
      let next := grow value
      if next = value then value else settle grow rounds next

/-! ## How phrases begin -/

/-- How the texts of a phrase begin. -/
structure Opening where
  /-- Whether the empty text is one of them. -/
  vanishes : Bool
  /-- The terminals that stand first in the others. -/
  first : Ahead
  deriving Repr, DecidableEq, Inhabited

/-- How the texts of two phrases together begin. -/
def Opening.union (a b : Opening) : Opening :=
  ⟨a.vanishes || b.vanishes, a.first.union b.first⟩

/-- How a row of symbols begins, given how phrases begin. -/
def Opening.ofSymbols (known : Nonterminal → Opening) : List Symbol → Opening
  | [] => ⟨true, .empty⟩
  | .terminal kind :: _ => ⟨false, .single (some kind)⟩
  | .nonterminal phrase :: symbols =>
      let opening := known phrase
      if opening.vanishes then
        let next := ofSymbols known symbols
        ⟨next.vanishes, opening.first.union next.first⟩
      else opening

/-- What is known after a look at a production. -/
def learn (table : Table Opening) (production : Production) : Table Opening :=
  table.modify production.lhs (·.union (.ofSymbols table.get production.rhs))

/-- How each phrase begins. Each look at all productions but the last finds
something new that a phrase may begin with. -/
@[irreducible]
def openings : Table Opening :=
  settle (Production.all.foldl learn) (phraseCount * (nextCount + 1) + 1)
    (.fill ⟨false, .empty⟩)

/-- What can stand first in a row of symbols that is followed by one of `after`. -/
def first (symbols : List Symbol) (after : Ahead) : Ahead :=
  let opening := Opening.ofSymbols openings.get symbols
  if opening.vanishes then opening.first.union after else opening.first

end Resumable.Parser
