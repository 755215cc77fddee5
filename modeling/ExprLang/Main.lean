import ExprLang.CommandLine.FileTree
import ExprLang.CommandLine.Run

/-!
# The program

Reads the file that the arguments name and writes the report on it.
-/

open ExprLang

namespace ExprLang.CommandLine

/-- The reason of a failed read, as the operating system words it. -/
def reasonOf : IO.Error → String
  | .noFileOrDirectory _ code details => s!"{details} (os error {code})"
  | .inappropriateType (some _) code details => s!"{details} (os error {code})"
  | .permissionDenied (some _) code details => s!"{details} (os error {code})"
  | failure => toString failure

/-- The source of the file at a path, or the reason why it cannot be read. -/
def readSource (path : String) : IO (Except String String) := do
  try
    match String.fromUTF8? (← IO.FS.readBinFile path) with
    | none => return .error ReadFailure.notText.message
    | some source => return .ok source
  catch failure => return .error (reasonOf failure)

end ExprLang.CommandLine

def main (arguments : List String) : IO UInt32 := do
  let report ←
    match CommandLine.path? arguments with
    | none => pure CommandLine.usage
    | some path => CommandLine.reportOnFile path <$> CommandLine.readSource path
  IO.print report.output
  IO.eprint report.errors
  return report.status
