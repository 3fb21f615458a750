import Resumable.Ir

/-!
# Terminality

Every path through an expression is to end in a call: there is no fall-through and
no implicit return.
-/

namespace Resumable.Ir

/-- Whether a form is one of the five kinds of expressions. -/
def isExpression : Ir → Bool
  | .letValue .. | .letContinuation .. | .callFunction .. | .callContinuation .. | .branch .. =>
      true
  | _ => false

/-- Whether a form is one of the three kinds of values. -/
def isValue : Ir → Bool
  | .constant .. | .function .. | .await .. => true
  | _ => false

/-- Whether every path through a form ends in a call. The body of a function counts
too, since it is an expression of its own. -/
def endsInCalls : Ir → Bool
  | .constant _ => true
  | .function _ _ _ body => body.isExpression && body.endsInCalls
  | .await .. => true
  | .letValue _ bound rest =>
      bound.isValue && bound.endsInCalls && (rest.isExpression && rest.endsInCalls)
  | .letContinuation _ _ body rest =>
      (body.isExpression && body.endsInCalls) && (rest.isExpression && rest.endsInCalls)
  | .callFunction .. => true
  | .callContinuation .. => true
  | .branch _ thenPart elsePart =>
      (thenPart.isExpression && thenPart.endsInCalls) &&
        (elsePart.isExpression && elsePart.endsInCalls)
  | .declaration _ _ _ _ body => body.isExpression && body.endsInCalls

/-- Whether a form is an expression all of whose paths end in a call. -/
def isTerminal (ir : Ir) : Bool :=
  ir.isExpression && ir.endsInCalls

end Resumable.Ir
