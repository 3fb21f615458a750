import Resumable.Canon.Refusal
import Resumable.Report.Illustration
import Resumable.Report.Outburst
import Resumable.Text.Numeral

/-!
# Reports

A report collects the issues that are found in a source text, up to a limit, and
what is said on the console.
-/

namespace Resumable

open Source (Spot)

/-- Something that is wrong with a source text. -/
structure Issue where
  intro : String
  /-- The place in the text that was worked on. -/
  picture : Option Report.Illustration
  footer : List String
  deriving Repr, DecidableEq

/-- The text of an issue. -/
def Issue.text (issue : Issue) : String :=
  let picture := match issue.picture with
    | some picture => ["", picture.text]
    | none => []
  "\n".intercalate (issue.intro :: picture ++ issue.footer)

/-- The issues found so far, and how to go on collecting. -/
structure Report where
  /-- Whether to mention each step on the console. -/
  verbose : Bool := false
  /-- The number of issues at which to give up. -/
  limit : Option Int := some 3
  issues : List Issue := []
  /-- The text that spots refer to. -/
  source : Option String := none
  /-- What has been said on the console. -/
  console : String := ""
  deriving Repr, DecidableEq

/-- Why work on a source text was broken off. -/
inductive Fault where
  | tooManyIssues
  /-- The phrase to blame has no head. -/
  | headless
  /-- A function was classified by a text that is no tag. -/
  | misshapen (fault : Canon.Misshapen)
  /-- There are no declarations to work on. -/
  | noUnit
  /-- There were issues where none was expected. -/
  | assertion (message : String)
  /-- A numeral has too many digits. -/
  | overlong (overlong : Text.Overlong)
  deriving Repr, DecidableEq

namespace Report

/-- Whether no issue has been found. -/
def ok (report : Report) : Bool := report.issues.isEmpty

/-- Whether an issue has been found. -/
def sick (report : Report) : Bool := !report.issues.isEmpty

/-- File an issue, and give up if that makes as many as the limit. -/
def file (report : Report) (issue : Issue) : Report × Except Fault Unit :=
  let report := { report with issues := report.issues ++ [issue] }
  if report.limit = some (report.issues.length : Int) then (report, .error .tooManyIssues)
  else (report, .ok ())

/-- Forget all issues. -/
def reset (report : Report) : Report :=
  { report with issues := [] }

/-- Say a line on the console. -/
def print (report : Report) (line : String) : Report :=
  { report with console := report.console ++ line ++ "\n" }

/-- Say some words on the console, if every step is to be mentioned. -/
def info (report : Report) (words : List String) : Report :=
  if report.verbose then report.print (" ".intercalate words) else report

/-- Let spots refer to a text from now on. -/
def bindSource (report : Report) (source : String) : Report :=
  { report with source := some source }

/-- The illustration of a spot, if the spot and the text are known. -/
def annotate (report : Report) (spot : Option Spot) (caption : String) :
    Option Illustration :=
  match spot, report.source with
  | some spot, some source => some (illustrate source spot caption)
  | _, _ => none

/-! ## Kinds of issues -/

/-- A token, or the end of the text, that fits nothing. -/
def parseError (report : Report) (kind : String) (spot : Option Spot) (hint : String) :
    Report × Except Fault Unit :=
  report.file ⟨"The parser got confused by " ++ kind ++ ".",
    report.annotate spot "confused here", [hint]⟩

/-- A character that no token starts with. -/
def strayCharacter (report : Report) (character : String) (spot : Option Spot) :
    Report × Except Fault Unit :=
  report.file ⟨"The character " ++ Text.quote character ++ " does not belong in this language.",
    report.annotate spot "", []⟩

/-- A file that does not exist. -/
def noSuchFile (report : Report) (path : String) : Report × Except Fault Unit :=
  report.file ⟨"I see no file called " ++ path, none, []⟩

/-- A file that cannot be read. -/
def brokenFile (report : Report) (path : String) : Report × Except Fault Unit :=
  report.file ⟨"Something went pear-shaped while trying to read " ++ path, none, []⟩

/-- The caption for a place within a function. An empty name gives none. -/
def captionWithin : Option String → String
  | none => ""
  | some name => if name.isEmpty then "" else "in " ++ name

/-- A construct that has no canonical form. -/
def unsupported (report : Report) (construct : String) (within : Option String)
    (spot : Option Spot) : Report × Except Fault Unit :=
  report.file ⟨Canon.unsupportedMessage construct,
    report.annotate spot (captionWithin within), []⟩

/-- A refusal. The phrase to blame may turn out to have no head. -/
def refuse (report : Report) (refusal : Canon.Refusal) : Report × Except Fault Unit :=
  match refusal.spot with
  | .ok spot => report.unsupported refusal.violation.reason.text refusal.within spot
  | .error _ => (report, .error .headless)

/-! ## Complaints -/

/-- The line above a complaint. -/
def stars : String := String.ofList (List.replicate 60 '*')

/-- The line above each issue. -/
def dashes : String := "".intercalate (List.replicate 20 "  -")

/-- The lines of a complaint: an outburst and all issues. There is none if there
are no issues. -/
def complaint (luck : Luck) (issues : List Issue) : List String :=
  if issues.isEmpty then []
  else stars :: outburst luck :: issues.flatMap fun issue => [dashes, issue.text]

/-- Complain about all issues on the console. -/
def complain (report : Report) (luck : Luck) : Report :=
  (complaint luck report.issues).foldl print report

/-- Complain and give up if there are issues. -/
def assertNoIssues (report : Report) (luck : Luck) (message : String) :
    Report × Except Fault Unit :=
  if report.ok then (report, .ok ())
  else (report.complain luck, .error (.assertion (outburst luck ++ " " ++ message)))

end Report

end Resumable
