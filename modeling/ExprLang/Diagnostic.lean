import ExprLang.Fault
import ExprLang.Source.Line
import ExprLang.Text.Blank

/-!
# Diagnostics

A diagnostic shows a fault in its source: the headline with a hint, the file,
and the line of the fault over an arrow that ends below the byte to blame. The
arrow counts the bytes of the line after its leading spaces.
-/

namespace ExprLang

open Text

/-- The text with fillers in front, as far as it is shorter than the width. -/
def padLeft (filler : Char) (width : Nat) (text : String) : String :=
  String.ofList (List.replicate (width - text.length) filler) ++ text

namespace Fault

/-- The name of the cause, and in parentheses what may help. -/
def headline (fault : Fault) : String :=
  match fault.cause.tip? with
  | none => s!"Error: {fault.cause.name}\n"
  | some tip => s!"Error: {fault.cause.name} ({tip})\n"

/-- A line of the source under a margin with its number, and an arrow to a byte of it. -/
def excerpt (line : Line) : String :=
  let number := toString line.number
  let margin := padLeft ' ' (number.length + 2) "|"
  let indentation := (line.text.takeWhile (· == ' ')).length
  let shown := String.ofList (trimBlanks (line.text.drop indentation))
  let arrow := padLeft '-' (line.offset - indentation + 1) "^"
  s!"{margin}\n{number} | {shown}\n{margin} {arrow}\n"

/-- The diagnostic of a fault, with an excerpt if the source reaches its position. -/
def render (fault : Fault) (source : String) : String :=
  let head := fault.headline ++ s!"-> {fault.position.file}\n"
  match Line.at? source fault.position.offset.toNat with
  | none => head
  | some line => head ++ excerpt line

end Fault

end ExprLang
