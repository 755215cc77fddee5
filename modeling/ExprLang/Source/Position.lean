/-!
# Positions and spans

A position is a byte offset into a named file. Offsets are 32-bit words, so an
offset past the range of words is kept modulo `2 ^ 32`.
-/

namespace ExprLang

/-- A byte offset into a named file. -/
structure Position where
  offset : UInt32
  file : String
  deriving DecidableEq

/-- The part of a source from one position up to another. -/
structure Span where
  start : Position
  stop : Position
  deriving DecidableEq

namespace Position

/-- The position of a byte, whose number is cut to 32 bits. -/
def ofByte (file : String) (byte : Nat) : Position :=
  ⟨UInt32.ofNat byte, file⟩

/-- The position of what was not read from any file. -/
def nowhere : Position :=
  ⟨0, "<null>"⟩

/-- The file and the offset, as messages show them. -/
def text (position : Position) : String :=
  s!"{position.file}:{position.offset.toNat}"

end Position

namespace Span

def nowhere : Span :=
  ⟨.nowhere, .nowhere⟩

/-- The span of `length` bytes from a byte of a file on. -/
def ofBytes (file : String) (first length : Nat) : Span :=
  ⟨.ofByte file first, .ofByte file (first + length)⟩

end Span

end ExprLang
