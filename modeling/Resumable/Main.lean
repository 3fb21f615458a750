import Resumable.Command.Compile

/-!
# The command line

Reads the file that the arguments name, and prints what the command has to say.
-/

namespace Resumable.Command

/-- Read a file. -/
def findFile (path : String) : IO Finding := do
  try
    return .content (← IO.FS.readBinFile path)
  catch
    | .noFileOrDirectory .. => return .missing
    | _ => return .broken

end Resumable.Command

open Resumable Resumable.Command

/-- Run the command, and end with its status. -/
def main (arguments : List String) : IO UInt32 := do
  let here := Path.ofText (← IO.currentDir).toString
  let luck : Report.Luck := ⟨← IO.rand 0 999999, ← IO.rand 0 999999, ← IO.rand 0 999999⟩
  let output ← run .standard arguments here (findFile ·.text) luck
  IO.print output.stdout
  IO.eprint output.stderr
  match output.status with
  | .exit code => return code.toUInt32
  | .returned => return 0
  | .undecodable => throw (IO.userError "the file is not a text in UTF-8")
  | .nullInPath => throw (IO.userError "there is a null character in the path")
  | .unfitted => throw (IO.userError "there is no width to fit the trees to")
  | .overlong overlong => throw (IO.userError overlong.message)
