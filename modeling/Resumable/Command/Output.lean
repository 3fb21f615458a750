import Resumable.Command.Arguments

/-!
# What the command prints about itself
-/

namespace Resumable.Command

/-- The line that shows how the command is used. -/
def usage : String :=
  "usage: cpsfront [-h] [-w WIDTH] [-m] [-k] [-v] program\n"

/-- The explanation of all arguments. -/
def helpText : String :=
  usage ++
  "\nCanonicalize Dart-like functions for conversion to continuation-passing style.\n" ++
  "\npositional arguments:\n" ++
  "  program               try examples/generators.dart for example.\n" ++
  "\noptions:\n" ++
  "  -h, --help            show this help message and exit\n" ++
  "  -w WIDTH, --width WIDTH\n" ++
  "                        Fit the output to this many columns. (Default 120.)\n" ++
  "  -m, --by-modifier     Classify functions by their body modifier rather than\n" ++
  "                        their name.\n" ++
  "  -k, --keep-going      Report every unsupported declaration, not just the\n" ++
  "                        first.\n" ++
  "  -v, --verbose         Mention each step along the way.\n"

/-- The introduction for somebody who gives no arguments. -/
def introduction : String :=
  "This is the canonicalizing front end of a continuation-passing-style compiler.\n\n" ++
  usage ++
  "\n\nFor example:\n\n" ++
  "    cpsfront program.dart\n\n" ++
  "will print the canonical trees for program.dart as one S-expression,\n" ++
  "or else try to explain which construct it cannot represent.\n\n" ++
  "    cpsfront -h\n\n" ++
  "will explain all the arguments.\n\n" ++
  "Functions are classified by name: `foo_async` is asynchronous and `foo_syncStar`\n" ++
  "is a synchronous generator. Pass --by-modifier to go by the `async` and `sync*` " ++
  "markers instead.\n"

/-- What is said about a usage error. -/
def usageComplaint (error : UsageError) : String :=
  usage ++ "cpsfront: error: " ++ error.message ++ "\n"

/-- How the command ends. -/
inductive Status where
  | exit (code : Nat)
  /-- It has said all it had to say. -/
  | returned
  /-- The file is not a text in UTF-8. -/
  | undecodable
  /-- A null character occurs in the path of the file. -/
  | nullInPath
  /-- There are trees to print, but no width to fit them to. -/
  | unfitted
  /-- A numeral is too long. -/
  | overlong (overlong : Text.Overlong)
  deriving Repr, DecidableEq

/-- The explanation of how the command ends, where there is one. -/
def Status.message? : Status → Option String
  | .nullInPath => some "embedded null byte"
  | .overlong reason => some reason.message
  | _ => none

/-- What the command does in the end. -/
structure Output where
  status : Status
  stdout : String
  stderr : String
  deriving Repr, DecidableEq

end Resumable.Command
