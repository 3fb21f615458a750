import Resumable.Text.Numeral
import Resumable.Text.Quoted

/-!
# Command-line arguments

Arguments are read from left to right. Options may stand before and after the
program. Short options that take no value may be combined, a long one may be cut
short, and all after a double dash is no option. A double dash that is written as
the value of an option says that there is no value: this is the convention of the
early releases of 3.11, while 3.11.10 refuses such a value.
-/

namespace Resumable.Command

/-- What a command line asks for. -/
structure Options where
  program : String
  /-- The width to fit the output to; nothing if it was taken away. -/
  width : Option Int
  byModifier : Bool
  keepGoing : Bool
  verbose : Bool
  deriving Repr, DecidableEq

/-- The options of the command line. -/
inductive Switch where
  | help
  | width
  | byModifier
  | keepGoing
  | verbose
  deriving Repr, DecidableEq

namespace Switch

def all : List Switch :=
  [.help, .width, .byModifier, .keepGoing, .verbose]

/-- The short name of an option. -/
def short : Switch → String
  | .help => "-h"
  | .width => "-w"
  | .byModifier => "-m"
  | .keepGoing => "-k"
  | .verbose => "-v"

/-- The long name of an option. -/
def long : Switch → String
  | .help => "--help"
  | .width => "--width"
  | .byModifier => "--by-modifier"
  | .keepGoing => "--keep-going"
  | .verbose => "--verbose"

/-- Whether a value follows the option. -/
def takesValue : Switch → Bool
  | .width => true
  | _ => false

/-- How an option is called in a message. -/
def title (switch : Switch) : String :=
  switch.short ++ "/" ++ switch.long

/-- The option whose short name has this letter. -/
def ofLetter? (letter : Char) : Option Switch :=
  all.find? fun switch => switch.short == String.ofList ['-', letter]

end Switch

/-- What is wrong with a command line. -/
inductive UsageError where
  | ambiguous (argument : String) (candidates : List String)
  | ignoredValue (switch : Switch) (value : String)
  | missingValue (switch : Switch)
  | invalidWidth (value : String)
  | missingProgram
  | unrecognized (arguments : List String)
  deriving Repr, DecidableEq

/-- The wording of a usage error. -/
def UsageError.message : UsageError → String
  | .ambiguous argument candidates =>
      "ambiguous option: " ++ argument ++ " could match " ++ ", ".intercalate candidates
  | .ignoredValue switch value =>
      "argument " ++ switch.title ++ ": ignored explicit argument " ++ Text.quote value
  | .missingValue switch => "argument " ++ switch.title ++ ": expected one argument"
  | .invalidWidth value =>
      "argument " ++ Switch.width.title ++ ": invalid int value: " ++ Text.quote value
  | .missingProgram => "the following arguments are required: program"
  | .unrecognized arguments => "unrecognized arguments: " ++ " ".intercalate arguments

/-! ## What each argument is -/

/-- What an argument is. -/
inductive Piece where
  | plain (argument : String)
  | doubleDash
  /-- A short option, and what is written after its letter. -/
  | short (switch : Switch) (tail : List Char)
  /-- A long option, and what is written after an equals sign. -/
  | long (switch : Switch) (value : Option (List Char))
  /-- It looks like an option, but there is none of that name. -/
  | unknown (argument : String)
  deriving Repr, DecidableEq

/-- The part before the first equals sign, and the part after it if there is one. -/
def splitEquals : List Char → List Char × Option (List Char)
  | [] => ([], none)
  | c :: cs =>
      if c = '=' then ([], some cs)
      else
        let (before, after) := splitEquals cs
        (c :: before, after)

/-- The characters without a line feed at the end. -/
def dropFinalNewline (cs : List Char) : List Char :=
  if cs.getLast? = some '\n' then cs.dropLast else cs

/-- Whether an argument is a negative number, with or without a point. -/
def looksNegative (argument : List Char) : Bool :=
  match dropFinalNewline argument with
  | '-' :: cs =>
      let isDigit := fun c => (Text.decimalDigit? c).isSome
      let digits := cs.takeWhile isDigit
      match cs.drop digits.length with
      | [] => !digits.isEmpty
      | '.' :: fraction => !fraction.isEmpty && fraction.all isDigit
      | _ => false
  | _ => false

/-- What an argument is that starts with a dash and names no option. -/
def noOption (argument : String) : Piece :=
  if looksNegative argument.toList || argument.toList.contains ' ' then .plain argument
  else .unknown argument

/-- What an argument before the first double dash is. -/
def classify (argument : String) : Except UsageError Piece :=
  match argument.toList with
  | '-' :: '-' :: cs =>
      let (name, value) := splitEquals ('-' :: '-' :: cs)
      match Switch.all.filter fun switch => name.isPrefixOf switch.long.toList with
      | [] => .ok (noOption argument)
      | [switch] => .ok (.long switch value)
      | switches => .error (.ambiguous argument (switches.map (·.long)))
  | '-' :: c :: cs =>
      match Switch.ofLetter? c with
      | some switch => .ok (.short switch cs)
      | none => .ok (noOption argument)
  | _ => .ok (.plain argument)

/-- What the arguments are. -/
def classifyAll : List String → Except UsageError (List Piece)
  | [] => .ok []
  | argument :: arguments =>
      if argument = "--" then .ok (.doubleDash :: arguments.map .plain)
      else do
        let piece ← classify argument
        return piece :: (← classifyAll arguments)

/-! ## Reading -/

/-- What has been read so far. -/
structure Progress where
  program : Option String := none
  width : Option Int := some 120
  byModifier : Bool := false
  keepGoing : Bool := false
  verbose : Bool := false
  /-- The arguments that nobody asked for. -/
  extras : List String := []
  deriving Repr, DecidableEq

/-- Why reading ended before the last argument. -/
inductive Stop where
  | help
  | error (error : UsageError)
  deriving Repr, DecidableEq

/-- An option, with its value if it takes one. -/
structure Setting where
  switch : Switch
  value : String
  deriving Repr, DecidableEq

/-- What the options of one argument amount to. -/
structure Expansion where
  settings : List Setting := []
  /-- An option whose value is the next argument. -/
  awaiting : Option Switch := none
  deriving Repr, DecidableEq

/-- An option without a value in the same argument. -/
def expandBare (switch : Switch) : Expansion :=
  if switch.takesValue then { awaiting := some switch } else { settings := [⟨switch, ""⟩] }

/-- An option with a value in the same argument. -/
def expandValued (switch : Switch) (value : List Char) : Except UsageError Expansion :=
  if switch.takesValue then .ok { settings := [⟨switch, String.ofList value⟩] }
  else .error (.ignoredValue switch (String.ofList value))

/-- A short option and the letters right after it: its value, or the letters of
other short options if it takes none. -/
def bundle (switch : Switch) : List Char → Except UsageError Expansion
  | [] => .ok (expandBare switch)
  | c :: cs =>
      if switch.takesValue then expandValued switch (c :: cs)
      else
        match Switch.ofLetter? c with
        | none => expandValued switch (c :: cs)
        | some next => do
            let others ← bundle next cs
            return { others with settings := ⟨switch, ""⟩ :: others.settings }

/-- A short option and what is written after its letter. An equals sign may stand
between the two, but not alone. -/
def expandShort (switch : Switch) : List Char → Except UsageError Expansion
  | ['='] => expandValued switch []
  | '=' :: cs => bundle switch cs
  | cs => bundle switch cs

/-- A long option and what is written after an equals sign. -/
def expandLong (switch : Switch) : Option (List Char) → Except UsageError Expansion
  | none => .ok (expandBare switch)
  | some value => expandValued switch value

/-- The width that a value stands for. A double dash stands for none. -/
def readWidth (value : String) : Except UsageError (Option Int) :=
  if value = "--" then .ok none
  else
    match Text.readInt? .standard value with
    | some width => .ok (some width)
    | none => .error (.invalidWidth value)

namespace Progress

/-- Apply an option. -/
def set (progress : Progress) (setting : Setting) : Except Stop Progress :=
  match setting.switch with
  | .help => .error .help
  | .width => do
      let width ← (readWidth setting.value).mapError .error
      return { progress with width }
  | .byModifier => .ok { progress with byModifier := true }
  | .keepGoing => .ok { progress with keepGoing := true }
  | .verbose => .ok { progress with verbose := true }

/-- Apply some options in order. -/
def setAll (progress : Progress) (settings : List Setting) : Except Stop Progress :=
  settings.foldlM set progress

/-- Keep an argument that nobody asked for. -/
def reject (progress : Progress) (arguments : List String) : Progress :=
  { progress with extras := progress.extras ++ arguments }

/-- Apply the options of one argument. Tells also whether the argument after it is
the value of one of them. -/
def apply (progress : Progress) (expansion : Except UsageError Expansion) (next : Option Piece) :
    Except Stop (Progress × Bool) := do
  let expansion ← expansion.mapError .error
  match expansion.awaiting, next with
  | none, _ => return (← progress.setAll expansion.settings, false)
  | some switch, some (.plain argument) =>
      return (← progress.setAll (expansion.settings ++ [⟨switch, argument⟩]), true)
  | some switch, _ => throw (.error (.missingValue switch))

/-- Read the rest of the arguments. The first plain one is the program; a double
dash next to it belongs to it. -/
def read (progress : Progress) : List Piece → Except Stop Progress
  | [] => .ok progress
  | .plain argument :: pieces =>
      match progress.program, pieces with
      | none, .doubleDash :: pieces => read { progress with program := argument } pieces
      | none, pieces => read { progress with program := argument } pieces
      | some _, pieces => read (progress.reject [argument]) pieces
  | .doubleDash :: pieces =>
      match progress.program, pieces with
      | none, .plain argument :: pieces => read { progress with program := argument } pieces
      | _, pieces => read (progress.reject ["--"]) pieces
  | .unknown argument :: pieces => read (progress.reject [argument]) pieces
  | .short switch tail :: pieces =>
      match progress.apply (expandShort switch tail) pieces.head?, pieces with
      | .error stop, _ => .error stop
      | .ok (progress, true), _ :: pieces => read progress pieces
      | .ok (progress, _), pieces => read progress pieces
  | .long switch value :: pieces =>
      match progress.apply (expandLong switch value) pieces.head?, pieces with
      | .error stop, _ => .error stop
      | .ok (progress, true), _ :: pieces => read progress pieces
      | .ok (progress, _), pieces => read progress pieces
termination_by structural pieces => pieces

/-- What has been asked for, once all arguments have been read. -/
def finish (progress : Progress) : Except Stop Options :=
  match progress.program with
  | none => .error (.error .missingProgram)
  | some program =>
      if progress.extras.isEmpty then
        .ok { program, width := progress.width, byModifier := progress.byModifier,
              keepGoing := progress.keepGoing, verbose := progress.verbose }
      else .error (.error (.unrecognized progress.extras))

end Progress

/-- Read a command line. -/
def readArguments (arguments : List String) : Except Stop Options := do
  let pieces ← (classifyAll arguments).mapError .error
  (← Progress.read {} pieces).finish

end Resumable.Command
