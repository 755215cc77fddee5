/-!
# Lengths in bytes

Positions in a source count the bytes of its UTF-8 encoding. A text is handled
as a list of characters, so its length in bytes is a sum over the characters.
-/

namespace ExprLang.Text

/-- The number of bytes that the UTF-8 encoding of the text takes. -/
def byteLength (text : List Char) : Nat :=
  text.foldr (fun c bytes => c.utf8Size + bytes) 0

@[simp]
theorem byteLength_nil : byteLength [] = 0 :=
  rfl

@[simp]
theorem byteLength_cons (c : Char) (rest : List Char) :
    byteLength (c :: rest) = c.utf8Size + byteLength rest :=
  rfl

@[simp]
theorem byteLength_append (first second : List Char) :
    byteLength (first ++ second) = byteLength first + byteLength second := by
  induction first with
  | nil => simp
  | cons c rest ih => simp [ih, Nat.add_assoc]

/-- The text after its first `count` bytes, when these end between two characters. -/
def dropBytes? : Nat → List Char → Option (List Char)
  | 0, text => some text
  | _ + 1, [] => none
  | count + 1, c :: rest =>
      if c.utf8Size ≤ count + 1 then dropBytes? (count + 1 - c.utf8Size) rest else none

theorem dropBytes?_append (first second : List Char) :
    dropBytes? (byteLength first) (first ++ second) = some second := by
  induction first with
  | nil => simp [dropBytes?]
  | cons c rest ih =>
      have positive := c.utf8Size_pos
      obtain ⟨count, same⟩ : ∃ count, byteLength (c :: rest) = count + 1 :=
        ⟨c.utf8Size + byteLength rest - 1, by simp; omega⟩
      rw [same, List.cons_append, dropBytes?, ← same, byteLength_cons,
        if_pos (Nat.le_add_right _ _), Nat.add_sub_cancel_left, ih]

end ExprLang.Text
