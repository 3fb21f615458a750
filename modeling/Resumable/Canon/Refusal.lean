import Resumable.Canon.Node
import Resumable.Source.Phrase

/-!
# Refusals

What has no canonical form is refused, with a reason and mostly with a phrase that
is to blame.
-/

namespace Resumable.Canon

open Source

/-- Why there is no canonical form. -/
inductive Reason where
  | topLevelVariable
  | unnamedFunction
  /-- What a classifier says against a function, in its own words. -/
  | objection (text : String)
  | optionalParameter
  | arrowBody
  | initializedLocal
  | stringLiteral
  | propertyAccess
  | compoundTarget
  | receiver
  /-- An operator that is spelled like a call has not one argument. -/
  | arity (operator : String)
  | lateDeclaration
  | emptyStatement
  | missingElse
  | multipleLabels
  | doLoop
  | unlabeledBreak
  | unlabeledContinue
  | bareTry
  | catchAndFinally
  | multipleClauses
  | exceptionType
  | missingException
  | stackTrace
  deriving Repr, DecidableEq

/-- The name of the unsupported construct. -/
def Reason.text : Reason → String
  | .topLevelVariable => "top-level variable"
  | .unnamedFunction => "unnamed function declaration"
  | .objection text => text
  | .optionalParameter => "optional parameter"
  | .arrowBody => "not a block function"
  | .initializedLocal => "initialized local variable"
  | .stringLiteral => "string literal"
  | .propertyAccess => "property access"
  | .compoundTarget => "non-simple left-hand side in assignment"
  | .receiver => "method with a receiver"
  | .arity operator => "wrong arity for " ++ operator
  | .lateDeclaration => "variable declaration other than the first statement of a function"
  | .emptyStatement => "empty statement"
  | .missingElse => "if without an else"
  | .multipleLabels => "multiple labels"
  | .doLoop => "do-while loop"
  | .unlabeledBreak => "break without a label"
  | .unlabeledContinue => "continue without a label"
  | .bareTry => "try without catch or finally"
  | .catchAndFinally => "try/catch/finally"
  | .multipleClauses => "multiple catch clauses"
  | .exceptionType => "catch clause with an exception type"
  | .missingException => "catch clause without an exception parameter"
  | .stackTrace => "catch clause with a stack trace parameter"

/-- The sentence about an unsupported construct. -/
def unsupportedMessage (construct : String) : String :=
  "Unsupported syntax: " ++ construct ++ "."

/-- A violation of what canonical form can represent: the reason and the phrase to
blame. Only a classifier may blame none. -/
structure Violation where
  reason : Reason
  guilty : Option Phrase
  deriving Repr

/-- Where the phrase to blame is, if there is one. -/
def spotOf : Option Phrase → Except Headless (Option Spot)
  | none => .ok none
  | some phrase => phrase.head

/-- A violation, and the name of the function it was found in. -/
structure Refusal where
  violation : Violation
  within : Option String
  deriving Repr

namespace Refusal

/-- The sentence about a refusal. -/
def message (refusal : Refusal) : String :=
  unsupportedMessage refusal.violation.reason.text

/-- Where the guilty phrase is. -/
def spot (refusal : Refusal) : Except Headless (Option Spot) :=
  spotOf refusal.violation.guilty

end Refusal

end Resumable.Canon
