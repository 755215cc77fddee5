import ExprLang.Diagnostic
import ExprLang.Parser.Program
import ExprLang.Token.Stream

/-!
# The command line

The command takes the path of one file and prints the items of its program,
each on a line. Anything that goes wrong is reported on the error stream, and
the command then ends with the status one.
-/

namespace ExprLang.CommandLine

/-- What a run of the command writes, and the status it ends with. -/
structure Report where
  status : UInt32
  output : String
  errors : String
  deriving DecidableEq, Repr

namespace Report

def success (output : String) : Report :=
  ⟨0, output, ""⟩

def failure (errors : String) : Report :=
  ⟨1, "", errors⟩

end Report

/-- The name by which the command calls itself. -/
def program : String :=
  "minilang"

/-- The part of a path after its last slash. -/
def fileName (path : String) : String :=
  (path.splitOn "/").getLastD path

/-- The report on the source of a file. -/
def reportOn (file source : String) : Report :=
  match (tokenize source (some file)).outcome with
  | .error fault => .failure (fault.render source)
  | .ok tokens =>
      match (parse { file := file } tokens).outcome with
      | .error fault => .failure (fault.render source)
      | .ok nodes => .success (String.join (nodes.map fun node => node.text ++ "\n"))

/-- The path that the arguments name, if they are well formed. -/
def path? : List String → Option String
  | [path] => some path
  | _ => none

def usage : Report :=
  .failure s!"usage: {program} <file>\n"

/-- The report on the file at a path, given its source or the reason why it cannot be read. -/
def reportOnFile (path : String) (read : Except String String) : Report :=
  match read with
  | .error reason => .failure s!"Failed to read {path}: {reason}\n"
  | .ok source => reportOn (fileName path) source

/-- The report of a run with the given arguments. -/
def run (arguments : List String) (read : String → Except String String) : Report :=
  match path? arguments with
  | none => usage
  | some path => reportOnFile path (read path)

end ExprLang.CommandLine
