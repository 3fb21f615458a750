import Resumable.Canon.Canonicalize
import Resumable.Grammar.Meaning
import Resumable.Parser.Hint
import Resumable.Parser.Run
import Resumable.Report.Basic

/-!
# Compiling with a report

Parsing and canonicalizing a source text, with what is wrong filed in a report. There
may be a limit on the digits of the numerals that are read and shown; one that has more
ends the work.
-/

namespace Resumable.Report

open Source (SourceUnit)
open Text (DigitLimit)

/-- How the end of a text, or the kind of the next token, is shown. -/
def nextText : Parser.Next → String
  | some kind => kind.text
  | none => "<END>"

/-- Parse a text. If that fails, one issue is filed. -/
def parse (report : Report) (text : String) : Report × Except Fault (Option SourceUnit) :=
  let report := report.bindSource text
  match Parser.parse (Token.scan text) with
  | .accepted derivation => (report, .ok (some derivation.meaning))
  | .stray character spot =>
      let (report, filed) := report.strayCharacter character.toString (some spot)
      (report, filed.map fun _ => none)
  | .confused symbols next spot =>
      let hint := Parser.Hint.text (symbols.map (·.text)) (nextText next)
      let (report, filed) := report.parseError (nextText next) (some spot) hint
      (report, filed.map fun _ => none)

/-- Parse a text in which decimal numerals are read within a limit. A token is read when
the parser asks for it. -/
def parseWithin (limit : DigitLimit) (report : Report) (text : String) :
    Report × Except Fault (Option SourceUnit) :=
  let scan := Token.scan text
  match scan.tokens.findSome? fun token => (token.unreadable? limit).map (token, ·) with
  | some (token, overlong) =>
      if (Parser.parse scan).reached token then
        (report.bindSource text, .error (.overlong overlong))
      else report.parse text
  | none => report.parse text

/-- Canonicalize declarations in order, where numerals are shown within a limit. The
first declaration that is refused ends the work, unless it is to go on; in either case
there is no result then. -/
def canonicalizeWithin (limit : DigitLimit) (classify : Canon.Classifier) (keepGoing : Bool) :
    SourceUnit → Report → Report × Except Fault (Option (List Canon.Procedure))
  | [], report => (report, .ok (some []))
  | declaration :: declarations, report =>
      match Canon.canonDeclarationWithin limit classify declaration with
      | .ok procedure =>
          let report := report.info ["Canonicalized", procedure.name]
          match canonicalizeWithin limit classify keepGoing declarations report with
          | (report, result) => (report, result.map (·.map (procedure :: ·)))
      | .error (.misshapen fault) => (report, .error (.misshapen fault))
      | .error (.overlong overlong) => (report, .error (.overlong overlong))
      | .error (.refused refusal) =>
          match report.refuse refusal with
          | (report, .error fault) => (report, .error fault)
          | (report, .ok ()) =>
              if keepGoing then
                match canonicalizeWithin limit classify keepGoing declarations report with
                | (report, result) => (report, result.map fun _ => none)
              else (report, .ok none)

/-- Canonicalize declarations in order, with numerals of any length. -/
def canonicalize (classify : Canon.Classifier) (keepGoing : Bool) (unit : SourceUnit)
    (report : Report) : Report × Except Fault (Option (List Canon.Procedure)) :=
  canonicalizeWithin none classify keepGoing unit report

/-- Parse a text and canonicalize its declarations, where numerals are read and shown
within a limit. There is no result if either fails. -/
def compileWithin (limit : DigitLimit) (classify : Canon.Classifier) (keepGoing : Bool)
    (text : String) (report : Report) : Report × Except Fault (Option (List Canon.Procedure)) :=
  match report.parseWithin limit text with
  | (report, .ok (some unit)) => canonicalizeWithin limit classify keepGoing unit report
  | (report, .ok none) => (report, .ok none)
  | (report, .error fault) => (report, .error fault)

/-- Parse a text and canonicalize its declarations, with numerals of any length. -/
def compile (classify : Canon.Classifier) (keepGoing : Bool) (text : String) (report : Report) :
    Report × Except Fault (Option (List Canon.Procedure)) :=
  compileWithin none classify keepGoing text report

end Resumable.Report
