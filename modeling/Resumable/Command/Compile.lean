import Resumable.Command.Output
import Resumable.Command.Path
import Resumable.Report.Compile
import Resumable.Text.Lines
import Resumable.Tree.Printer

/-!
# The command

The command reads one file and prints the canonical trees of its functions as one
tree, or else complains about all issues. How the file is looked up is left open.
-/

namespace Resumable.Command

open Text (DigitLimit)

/-- The classifier that the options ask for. -/
def Options.classifier (options : Options) : Canon.Classifier :=
  if options.byModifier then .byModifier else .byName

/-- The line above the parting words. -/
def partingLine : String := "".intercalate (List.replicate 35 " *")

/-- The last words after too many issues. -/
def partingWords : String := "Giving up after a few issues. One crisis at a time, eh?"

/-- Give up, with a complaint about all issues. -/
def giveUp (luck : Report.Luck) (report : Report) : Output :=
  ⟨.exit 1, "", (report.complain luck).console⟩

/-- The output of work that was broken off. -/
def breakOff (luck : Report.Luck) (report : Report) : Output :=
  let report := report.complain luck
  ⟨.exit 1, "", ((report.print partingLine).print partingWords).console⟩

/-- The text of a tree. Without a width only a tree can be printed that has nothing
to fit: an atom or the empty list. -/
def printTree? : Option Int → Tree → Option String
  | some width, tree => some (tree.render width)
  | none, .list (_ :: _) => none
  | none, tree => some (tree.render Tree.defaultWidth)

/-- Compile a text, where numerals are read and shown within a limit, and print the
result. -/
def compileText (limit : DigitLimit) (options : Options) (luck : Report.Luck) (text : String)
    (report : Report) : Output :=
  match Report.compileWithin limit options.classifier options.keepGoing text report with
  | (report, .ok (some procedures)) =>
      match printTree? options.width (.list (procedures.map (·.toTree))) with
      | some page => ⟨.exit 0, page ++ "\n", report.console⟩
      | none => ⟨.unfitted, "", report.console⟩
  | (report, .ok none) => giveUp luck report
  | (report, .error (.overlong overlong)) => ⟨.overlong overlong, "", report.console⟩
  | (report, .error _) => breakOff luck report

/-- The output after an issue about the file itself. -/
def withoutText (luck : Report.Luck) : Report × Except Fault Unit → Output
  | (report, .ok ()) => giveUp luck report
  | (report, .error _) => breakOff luck report

/-- The text in some bytes, with a line feed at the end of each line. -/
def decode? (bytes : ByteArray) : Option String :=
  (String.fromUTF8? bytes).map fun text => String.ofList (Text.unifyLines text.toList)

/-- What comes of reading a file. -/
inductive Finding where
  | content (bytes : ByteArray)
  /-- There is no such file. -/
  | missing
  /-- There is something, but it cannot be read as a file. -/
  | broken

/-- Compile what was found at a path. -/
def compile (limit : DigitLimit) (options : Options) (luck : Report.Luck) (path : Path)
    (finding : Finding) : Output :=
  let report : Report := { verbose := options.verbose }
  let report := report.info ["Parsing", path.text]
  if path.hasNull then ⟨.nullInPath, "", report.console⟩
  else
    match finding with
    | .missing => withoutText luck (report.noSuchFile path.text)
    | .broken => withoutText luck (report.brokenFile path.text)
    | .content bytes =>
        match decode? bytes with
        | some text => compileText limit options luck text report
        | none => ⟨.undecodable, "", report.console⟩

/-- What the arguments ask for: an output that is known already, or a compilation. -/
def request (arguments : List String) : Except Output Options :=
  match arguments with
  | [] => .error ⟨.returned, introduction, ""⟩
  | arguments =>
      match readArguments arguments with
      | .ok options => .ok options
      | .error .help => .error ⟨.exit 0, helpText, ""⟩
      | .error (.error error) => .error ⟨.exit 2, "", usageComplaint error⟩

/-- Run the command in a folder that stands at a path. The file is looked up by its
whole path. -/
def run {m : Type → Type} [Monad m] (limit : DigitLimit) (arguments : List String) (here : Path)
    (find : Path → m Finding) (luck : Report.Luck) : m Output :=
  match request arguments with
  | .error output => pure output
  | .ok options => do
      let path := here.join (Path.ofText options.program)
      return compile limit options luck path (← find path)

end Resumable.Command
