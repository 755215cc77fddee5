import ExprLang.Source.Position
import ExprLang.Text.ByteLength
import Mathlib.Data.String.Basic

/-!
# Bytes

The length of a list of characters in bytes is that of their string, and the parts
of a text can be told by their lengths in bytes. A byte of a source with less than
`2 ^ 32` of them is kept in full by its position.
-/

namespace ExprLang

namespace Text

theorem byteLength_eq_utf8Len (text : List Char) : byteLength text = String.utf8Len text := by
  induction text with
  | nil => rfl
  | cons c rest ih => rw [byteLength_cons, String.utf8Len_cons, ih, Nat.add_comm]

theorem byteLength_toList (text : String) : byteLength text.toList = text.utf8ByteSize := by
  rw [byteLength_eq_utf8Len, String.utf8Len_toList]

theorem byteLength_pos {text : List Char} (nonempty : text ≠ []) : 0 < byteLength text := by
  obtain ⟨c, rest, rfl⟩ := List.exists_cons_of_ne_nil nonempty
  exact Nat.add_pos_left c.utf8Size_pos _

/-- Of two ways to cut a text in two, the one with fewer bytes in front cuts it earlier. -/
theorem exists_eq_append_of_byteLength_le {first second first' second' : List Char}
    (same : first ++ second = first' ++ second') (fewer : byteLength first ≤ byteLength first') :
    ∃ middle, first' = first ++ middle ∧ second = middle ++ second' := by
  rcases List.append_eq_append_iff.mp same with ⟨middle, front, back⟩ | ⟨middle, front, back⟩
  · exact ⟨middle, front, back⟩
  · have none : middle = [] := by
      by_contra nonempty
      have more := byteLength_pos nonempty
      rw [front, byteLength_append] at fewer
      omega
    subst none
    exact ⟨[], by rw [front, List.append_nil, List.append_nil], back.symm⟩

/-- Two ways to cut a text at one byte are the same. -/
theorem append_inj_of_byteLength {first second first' second' : List Char}
    (same : first ++ second = first' ++ second') (place : byteLength first = byteLength first') :
    first = first' ∧ second = second' := by
  obtain ⟨middle, front, back⟩ := exists_eq_append_of_byteLength_le same (Nat.le_of_eq place)
  have none : middle = [] := by
    by_contra nonempty
    have more := byteLength_pos nonempty
    rw [front, byteLength_append] at place
    omega
  rw [none, List.append_nil] at front
  rw [none, List.nil_append] at back
  exact ⟨front.symm, back⟩

end Text

theorem Position.toNat_offset_ofByte {file : String} {byte : Nat} (short : byte < 2 ^ 32) :
    (Position.ofByte file byte).offset.toNat = byte :=
  UInt32.toNat_ofNat_of_lt' short

theorem Position.ofByte_inj {file : String} {byte byte' : Nat} (short : byte < 2 ^ 32)
    (short' : byte' < 2 ^ 32) (same : Position.ofByte file byte = .ofByte file byte') :
    byte = byte' := by
  have offsets := congrArg (fun position => position.offset.toNat) same
  rwa [toNat_offset_ofByte short, toNat_offset_ofByte short'] at offsets

end ExprLang
