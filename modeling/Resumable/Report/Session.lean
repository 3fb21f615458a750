import Resumable.Report.Compile

/-!
# Sessions

A session is a report with the declarations that were parsed last. Events happen
to it one after the other; an event that fails does not end the session.
-/

namespace Resumable.Report

open Source (Spot SourceUnit)

/-- A report and the declarations to work on. -/
structure Session where
  report : Report := {}
  unit : Option SourceUnit := none

/-- What can happen in a session. -/
inductive Event where
  | bindSource (text : String)
  | parseError (kind : String) (spot : Option Spot) (hint : String)
  | strayCharacter (character : String) (spot : Option Spot)
  | noSuchFile (path : String)
  | brokenFile (path : String)
  | unsupported (construct : String) (within : Option String) (spot : Option Spot)
  | parse (text : String)
  | canonicalize (classify : Canon.Classifier) (keepGoing : Bool)
  | reset
  | info (words : List String)
  | complain
  | assertNoIssues (message : String)

/-- What an event results in. -/
inductive Value where
  | nothing
  | parsed (success : Bool)
  | canonical (procedures : Option (List Canon.Procedure))
  deriving Repr

namespace Session

/-- The session with a new report, and nothing as the result. -/
def after (session : Session) : Report × Except Fault Unit → Session × Except Fault Value
  | (report, outcome) => ({ session with report }, outcome.map fun _ => .nothing)

/-- What becomes of a session by an event, where numerals are read and shown within a
limit. Declarations are forgotten when another text is parsed. -/
def performWithin (limit : Text.DigitLimit) (session : Session) (luck : Luck) :
    Event → Session × Except Fault Value
  | .bindSource text => session.after (session.report.bindSource text, .ok ())
  | .parseError kind spot hint => session.after (session.report.parseError kind spot hint)
  | .strayCharacter character spot =>
      session.after (session.report.strayCharacter character spot)
  | .noSuchFile path => session.after (session.report.noSuchFile path)
  | .brokenFile path => session.after (session.report.brokenFile path)
  | .unsupported construct within spot =>
      session.after (session.report.unsupported construct within spot)
  | .parse text =>
      match session.report.parseWithin limit text with
      | (report, .ok unit) => (⟨report, unit⟩, .ok (.parsed unit.isSome))
      | (report, .error fault) => (⟨report, none⟩, .error fault)
  | .canonicalize classify keepGoing =>
      match session.unit with
      | none => (session, .error .noUnit)
      | some unit =>
          match Report.canonicalizeWithin limit classify keepGoing unit session.report with
          | (report, result) => ({ session with report }, result.map .canonical)
  | .reset => session.after (session.report.reset, .ok ())
  | .info words => session.after (session.report.info words, .ok ())
  | .complain => session.after (session.report.complain luck, .ok ())
  | .assertNoIssues message => session.after (session.report.assertNoIssues luck message)

/-- What becomes of a session by an event, with numerals of any length. -/
def perform (session : Session) (luck : Luck) (event : Event) : Session × Except Fault Value :=
  session.performWithin none luck event

/-- What becomes of a session by some events, with the results in order. -/
def performAll (session : Session) (luck : Luck) : List Event →
    Session × List (Except Fault Value)
  | [] => (session, [])
  | event :: events =>
      let (session, result) := session.perform luck event
      let (session, results) := session.performAll luck events
      (session, result :: results)

end Session

end Resumable.Report
