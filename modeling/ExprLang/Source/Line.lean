import ExprLang.Text.ByteLength

/-!
# Lines of a source

A line ends after its line feed or at the end of the source. Looking up a byte
gives the line that holds it; the byte just past the source belongs to the end
of the last line.
-/

namespace ExprLang

/-- A line of a source, numbered from one, and the place of a byte in it. -/
structure Line where
  number : Nat
  text : List Char
  offset : Nat
  deriving DecidableEq, Repr

namespace Line

open Text

/-- The characters up to the first line feed, which is included, and those after it. -/
def split : List Char → List Char × List Char
  | [] => ([], [])
  | c :: rest =>
      if c = '\n' then ([c], rest)
      else
        let (line, later) := split rest
        (c :: line, later)

theorem split_append (text : List Char) : (split text).1 ++ (split text).2 = text := by
  induction text with
  | nil => rfl
  | cons c rest ih =>
      unfold split
      split
      · rfl
      · simpa using ih

theorem split_rest_length_lt (c : Char) (rest : List Char) :
    (split (c :: rest)).2.length < (c :: rest).length := by
  have whole := congrArg List.length (split_append (c :: rest))
  have nonempty : (split (c :: rest)).1 ≠ [] := by
    unfold split
    split <;> simp
  have positive := List.length_pos_iff.mpr nonempty
  rw [List.length_append] at whole
  omega

/-- The line that holds a byte of the text, which starts with the line of the given number. -/
def within? (number : Nat) (text : List Char) (byte : Nat) : Option Line :=
  match text with
  | [] => none
  | c :: rest =>
      let line := (split (c :: rest)).1
      let later := (split (c :: rest)).2
      if byte < byteLength line then some ⟨number, line, byte⟩
      else if later.isEmpty then some ⟨number, line, byteLength line⟩
      else within? (number + 1) later (byte - byteLength line)
termination_by text.length
decreasing_by exact split_rest_length_lt c rest

/-- The line that holds a byte of the source, unless the byte lies further on than its end. -/
def at? (source : String) (byte : Nat) : Option Line :=
  if source.utf8ByteSize < byte then none else within? 1 source.toList byte

end Line

end ExprLang
