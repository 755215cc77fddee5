import ExprLang.Diagnostic
import ExprLang.Proofs.Source.Location
import ExprLang.Proofs.Token.PlainLine
import Mathlib.Data.List.TakeWhile

/-!
# Arrows of diagnostics

The excerpt of a fault shows its line without the blanks around it, over an arrow.
The shown line has the character that the fault stands at in some column, which
counts the characters after all leading blanks. The arrow ends in a column that
counts bytes after the leading spaces alone, so it never ends before the character.
It ends right below it exactly if the line is indented by nothing but spaces and
all blanks of the line before the character take a single byte.
-/

namespace ExprLang

open Text

/-! ## Text before a character that is no blank -/

namespace Text

theorem dropWhile_append_cons {p : Char → Bool} {c : Char} (stop : p c = false)
    (left right : List Char) :
    (left ++ c :: right).dropWhile p = left.dropWhile p ++ c :: right := by
  rw [List.dropWhile_append, List.dropWhile_cons_of_neg (by rw [stop]; decide)]
  split
  · next empty => rw [List.isEmpty_iff.mp empty, List.nil_append]
  · rfl

theorem takeWhile_append_cons {p : Char → Bool} {c : Char} (stop : p c = false)
    (left right : List Char) : (left ++ c :: right).takeWhile p = left.takeWhile p := by
  rw [List.takeWhile_append, List.takeWhile_cons_of_neg (by rw [stop]; decide), List.append_nil]
  split
  · next whole => exact (List.takeWhile_prefix p).eq_of_length whole |>.symm
  · rfl

/-- Trimming takes the blanks before the first character that is none, and leaves this one. -/
theorem exists_trimBlanks_append_cons {c : Char} (dark : isBlank c = false)
    (left right : List Char) :
    ∃ rest, trimBlanks (left ++ c :: right) = left.dropWhile isBlank ++ c :: rest := by
  rw [trimBlanks, dropWhile_append_cons dark, List.reverse_append, List.reverse_cons,
    List.append_assoc, List.singleton_append, dropWhile_append_cons dark]
  refine ⟨(right.reverse.dropWhile isBlank).reverse, ?_⟩
  simp

/-- Spaces that are dropped ahead of trimming would be trimmed anyway. -/
theorem trimBlanks_drop_spaces (text : List Char) :
    trimBlanks (text.drop (text.takeWhile (· == ' ')).length) = trimBlanks text := by
  have spaces : ∀ c ∈ text.takeWhile (· == ' '), isBlank c = true := by
    intro c member
    have space : (c == ' ') = true := List.all_eq_true.mp List.all_takeWhile c member
    rw [eq_of_beq space]
    rfl
  have whole := List.take_append_drop (text.takeWhile (· == ' ')).length text
  rw [List.prefix_iff_eq_take.mp (List.takeWhile_prefix _) |>.symm] at whole
  rw [trimBlanks, trimBlanks]
  conv_rhs => rw [← whole, List.dropWhile_append_of_pos spaces]

end Text

/-! ## The place of a fault in its line -/

/-- A fault of splitting a source into tokens, or of parsing the tokens that it is split into. -/
inductive Fault.IsRaisedFrom (source : String) (file? : Option String) (settings : Settings)
    (fault : Fault) : Prop where
  | tokenize (failed : (tokenize source file?).outcome = .error fault)
  | parse {tokens : List Token} (split : (tokenize source file?).outcome = .ok tokens)
      (failed : (parse settings tokens).outcome = .error fault)

/-- The fault stands at the character of the source that comes after the front. -/
structure Fault.StandsAfter (fault : Fault) (source : String) (front : List Char) (c : Char)
    (back : List Char) : Prop where
  whole : source.toList = front ++ c :: back
  offset : fault.position.offset.toNat = byteLength front
  dark : isBlank c = false
  ends : EndsPlain front

section Sources

variable {source : String} (short : source.utf8ByteSize < 2 ^ 32)

include short

theorem Position.toNat_offset_of_front {file : String} {front back : List Char}
    (whole : source.toList = front ++ back) :
    (Position.ofByte file (byteLength front)).offset.toNat = byteLength front := by
  rw [← byteLength_toList, whole, byteLength_append] at short
  exact toNat_offset_ofByte (by omega)

/-- Unless it stands at the end of the source, a fault stands at a character that is no blank. -/
theorem Fault.IsRaisedFrom.exists_standsAfter {file? : Option String} {settings : Settings}
    {fault : Fault} (raised : fault.IsRaisedFrom source file? settings)
    (inside : fault.position.offset.toNat < source.utf8ByteSize) :
    ∃ front c back, fault.StandsAfter source front c back := by
  have first : ∀ c ∈ source.toList.head?, c ≠ '\n' → EndsPlain [] :=
    fun _ _ _ line ⟨_, empty⟩ _ c member => by simp_all
  cases raised with
  | tokenize failed =>
      cases tokenizeEnds source file? with
      | done outcome _ =>
          rw [outcome] at failed
          cases failed
      | @failed _ scanned c rest outcome whole tiles =>
          have dark := isBlank_of_outcome_tokenize outcome
          rw [outcome] at failed
          cases failed
          refine ⟨scanned, c, rest, whole, Position.toNat_offset_of_front short whole, dark, ?_⟩
          obtain ⟨_, scanned', whole', ended⟩ := tiles.endsPlain first
          rw [List.append_cancel_right (whole.symm.trans whole')]
          exact ended c rfl (by rintro rfl; cases dark)
  | parse split failed =>
      cases tokenizeEnds source file? with
      | failed outcome _ _ =>
          rw [outcome] at split
          cases split
      | @done words outcome tiles =>
          rw [outcome] at split
          cases split
          obtain ⟨start, stop, _, _, member, position, _⟩ :=
            Parser.exists_stop_of_outcome_parse ⟨_, List.getLast?_concat, rfl⟩ failed
          rw [position] at inside
          rcases List.mem_append.mp member with word | closing
          · obtain ⟨front, back, written, ends⟩ := (tiles.endsPlain first).1 stop.current word
            obtain ⟨c, more, text⟩ := List.exists_cons_of_ne_nil written.spelled.ne_nil
            have whole := written.whole
            rw [List.nil_append, text, List.append_assoc] at whole
            refine ⟨front, c, more ++ back, whole, ?_, ?_, ends⟩
            · rw [position, written.start, Position.toNat_offset_of_front short whole]
            · exact written.spelled.isBlank_of_mem c (text ▸ List.mem_cons_self ..)
          · rw [List.mem_singleton.mp closing] at inside
            refine absurd inside (Nat.not_lt.mpr (Nat.le_of_eq ?_))
            exact (Position.toNat_offset_ofByte short).symm

end Sources

/-! ## Excerpts -/

namespace Fault

/--
A line under a margin with its number, and an arrow that ends below a column of the
line. The bars of all three rows are below each other.
-/
def excerptWith (number : Nat) (shown : List Char) (column : Nat) : String :=
  let digits := toString number
  let margin := String.ofList (List.replicate (digits.length + 1) ' ') ++ "|"
  let arrow := String.ofList (List.replicate column '-') ++ "^"
  s!"{margin}\n{digits} | {String.ofList shown}\n{margin} {arrow}\n"

theorem excerpt_eq (line : Line) :
    excerpt line = excerptWith line.number (trimBlanks line.text)
      (line.offset - (line.text.takeWhile (· == ' ')).length) := by
  rw [excerpt, trimBlanks_drop_spaces]
  rfl

/--
The diagnostic shows the line of the fault without the blanks around it, over an
arrow that ends in the given column. The character that the fault stands at comes
after some text of the line, whose leading blanks are not shown.
-/
structure IsPictured (fault : Fault) (source : String) (line : Line) (left : List Char)
    (c : Char) (right : List Char) (column : Nat) : Prop where
  found : Line.at? source fault.position.offset.toNat = some line
  isOf : line.IsOf source
  stands : ∃ front back, fault.StandsAfter source front c back ∧ left <:+ front
  text : line.text = left ++ c :: right
  offset : line.offset = byteLength left
  shown : ∃ rest, trimBlanks line.text = left.dropWhile isBlank ++ c :: rest
  rendered : fault.render source = fault.headline ++ s!"-> {fault.position.file}\n" ++
    excerptWith line.number (trimBlanks line.text) column

end Fault

/-! ## The column of the arrow -/

namespace Text

theorem length_le_byteLength (text : List Char) : text.length ≤ byteLength text := by
  induction text with
  | nil => exact Nat.le_refl _
  | cons c rest ih =>
      have positive := c.utf8Size_pos
      rw [List.length_cons, byteLength_cons]
      omega

theorem byteLength_eq_length_iff {text : List Char} :
    byteLength text = text.length ↔ ∀ c ∈ text, c.utf8Size = 1 := by
  induction text with
  | nil => simp
  | cons c rest ih =>
      have positive := c.utf8Size_pos
      have longer := length_le_byteLength rest
      rw [List.length_cons, byteLength_cons, List.forall_mem_cons, ← ih]
      omega

/-- The text is indented by spaces alone, and each of its blanks takes a single byte. -/
structure IsPlainlySpaced (text : List Char) : Prop where
  indentation : ∀ blank ∈ text.takeWhile isBlank, blank = ' '
  narrow : ∀ blank ∈ text, isBlank blank = true → blank.utf8Size = 1

/-- All leading spaces of a text are leading blanks. -/
theorem takeWhile_space (text : List Char) :
    text.takeWhile (· == ' ') = (text.takeWhile isBlank).takeWhile (· == ' ') := by
  have blank : ∀ c : Char, (c == ' ' && isBlank c) = (c == ' ') := by
    intro c
    cases same : c == ' ' with
    | false => rfl
    | true =>
        rw [eq_of_beq same]
        rfl
  rw [List.takeWhile_takeWhile]
  simp only [← Bool.and_eq_true, blank, Bool.decide_eq_true]

/-- The leading spaces are all of the leading blanks, or there are fewer of them. -/
theorem length_takeWhile_space (text : List Char) :
    (text.takeWhile (· == ' ')).length ≤ (text.takeWhile isBlank).length ∧
    ((text.takeWhile (· == ' ')).length = (text.takeWhile isBlank).length ↔
      ∀ blank ∈ text.takeWhile isBlank, blank = ' ') := by
  rw [takeWhile_space]
  have ahead := List.takeWhile_prefix (· == ' ') (l := text.takeWhile isBlank)
  refine ⟨ahead.length_le, fun whole => ?_, fun spaces => ?_⟩
  · have same := List.takeWhile_eq_self_iff.mp (ahead.eq_of_length whole)
    exact fun blank member => eq_of_beq (same blank member)
  · rw [List.takeWhile_eq_self_iff.mpr fun c member => beq_iff_eq.mpr (spaces c member)]

theorem byteLength_takeWhile_dropWhile (text : List Char) :
    byteLength text = byteLength (text.takeWhile isBlank) + byteLength (text.dropWhile isBlank) := by
  rw [← byteLength_append, List.takeWhile_append_dropWhile]

/-- The bytes after the leading spaces are no fewer than the characters after all leading blanks. -/
theorem length_dropWhile_le (text : List Char) :
    (text.dropWhile isBlank).length ≤ byteLength text - (text.takeWhile (· == ' ')).length := by
  have spaces := (length_takeWhile_space text).1
  have indentation := length_le_byteLength (text.takeWhile isBlank)
  have shown := length_le_byteLength (text.dropWhile isBlank)
  rw [byteLength_takeWhile_dropWhile]
  omega

end Text

theorem IsPlain.byteLength_eq_length_iff {text : List Char} (plain : IsPlain text) :
    byteLength text = text.length ↔ ∀ blank ∈ text, isBlank blank = true → blank.utf8Size = 1 := by
  rw [Text.byteLength_eq_length_iff]
  refine ⟨fun single blank member _ => single blank member, fun narrow c member => ?_⟩
  cases dark : isBlank c with
  | false => exact plain c member dark
  | true => exact narrow c member dark

theorem IsPlain.eq_length_dropWhile_iff {text : List Char} (plain : IsPlain text) :
    byteLength text - (text.takeWhile (· == ' ')).length = (text.dropWhile isBlank).length ↔
      IsPlainlySpaced text := by
  obtain ⟨spaces, spaces'⟩ := length_takeWhile_space text
  have indentation := length_le_byteLength (text.takeWhile isBlank)
  have shown := length_le_byteLength (text.dropWhile isBlank)
  have whole := List.takeWhile_append_dropWhile (p := isBlank) (l := text)
  constructor
  · intro same
    rw [byteLength_takeWhile_dropWhile] at same
    refine ⟨spaces'.mp (by omega), plain.byteLength_eq_length_iff.mp ?_⟩
    rw [byteLength_takeWhile_dropWhile, ← whole, List.length_append, whole]
    omega
  · intro spaced
    have narrow := plain.byteLength_eq_length_iff.mpr spaced.narrow
    have same := spaces'.mpr spaced.indentation
    rw [narrow, same]
    conv_lhs => rw [← whole, List.length_append, whole]
    exact Nat.add_sub_cancel_left _ _

/--
The diagnostic of a fault before the end of its source shows the character that the
fault stands at. The arrow does not end before the column of this character, and it
ends below it exactly if the line up to there is plainly spaced.
-/
theorem Fault.IsRaisedFrom.exists_isPictured {source : String} {file? : Option String}
    {settings : Settings} {fault : Fault} (short : source.utf8ByteSize < 2 ^ 32)
    (raised : fault.IsRaisedFrom source file? settings)
    (inside : fault.position.offset.toNat < source.utf8ByteSize) :
    ∃ line left c right column, fault.IsPictured source line left c right column ∧
      (left.dropWhile isBlank).length ≤ column ∧
      (column = (left.dropWhile isBlank).length ↔ IsPlainlySpaced left) := by
  obtain ⟨front, c, back, stands⟩ := raised.exists_standsAfter short inside
  have whole := stands.whole
  rw [List.append_cons] at whole
  obtain ⟨line, left, right, lookup, isOf, ahead, unbroken, text, offset⟩ :=
    Line.exists_at?_of_piece whole (List.cons_ne_nil c []) List.not_mem_nil
  rw [List.append_assoc, List.singleton_append] at text
  rw [← stands.offset] at lookup
  have space : (c == ' ') = false := by
    refine Bool.eq_false_iff.mpr fun same => ?_
    have dark := stands.dark
    rw [eq_of_beq same] at dark
    cases dark
  have spaces := takeWhile_append_cons (p := (· == ' ')) space left right
  refine ⟨line, left, c, right, byteLength left - (left.takeWhile (· == ' ')).length,
    ⟨lookup, isOf, ⟨front, back, stands, ahead⟩, text, offset, ?_, ?_⟩, length_dropWhile_le left,
    (stands.ends left ahead unbroken).eq_length_dropWhile_iff⟩
  · rw [text]
    exact exists_trimBlanks_append_cons stands.dark left right
  · rw [render, lookup]
    dsimp only
    rw [excerpt_eq, text, offset, spaces]

/-- In a line that is indented by two spaces, the arrow ends below the parenthesis. -/
theorem isPictured_spaced_parenthesis :
    ∃ fault : Fault, fault.IsRaisedFrom "  )" none ⟨"shell", 3⟩ ∧
      ∃ line left c right column, fault.IsPictured "  )" line left c right column ∧
        (column = (left.dropWhile isBlank).length ↔ IsPlainlySpaced left) := by
  have cut : Cut.ofText "  )".toList = ⟨[⟨none, "  "⟩, ⟨some .rightParen, ")"⟩], []⟩ := by
    decide +kernel
  have split : (tokenize "  )" none).outcome =
      .ok [⟨.rightParen, ")", .ofBytes "shell" 2 1⟩, .endOfInput (.ofBytes "shell" 3 0)] := by
    rw [tokenize, cut]
    rfl
  have raised : Fault.IsRaisedFrom "  )" none ⟨"shell", 3⟩
      ⟨.unexpectedToken ")", .ofByte "shell" 2⟩ := .parse split rfl
  obtain ⟨line, left, c, right, column, pictured, _, below⟩ :=
    raised.exists_isPictured (by decide) (by decide)
  exact ⟨_, raised, line, left, c, right, column, pictured, below⟩

/-- In a line that is indented by a tab, the arrow ends behind the parenthesis. -/
theorem not_isPictured_tabbed_parenthesis :
    ∃ fault : Fault, fault.IsRaisedFrom "\t)" (some "main.mini") ⟨"main.mini", 256⟩ ∧
      fault.position.offset.toNat = 1 ∧
      fault.render "\t)" = "Error: UnexpectedToken (Unexpected token: `)`)\n" ++
        "-> main.mini\n  |\n1 | )\n  | -^\n" ∧
      ∀ line left c right,
        ¬ fault.IsPictured "\t)" line left c right (left.dropWhile isBlank).length := by
  have cut : Cut.ofText "\t)".toList = ⟨[⟨none, "\t"⟩, ⟨some .rightParen, ")"⟩], []⟩ := by
    decide +kernel
  have split : (tokenize "\t)" (some "main.mini")).outcome =
      .ok [⟨.rightParen, ")", .ofBytes "main.mini" 1 1⟩,
        .endOfInput (.ofBytes "main.mini" 2 0)] := by
    rw [tokenize, cut]
    rfl
  have drawn : Fault.render ⟨.unexpectedToken ")", .ofByte "main.mini" 1⟩ "\t)" =
      "Error: UnexpectedToken (Unexpected token: `)`)\n" ++
        "-> main.mini\n  |\n1 | )\n  | -^\n" := by
    decide +kernel
  have raised : Fault.IsRaisedFrom "\t)" (some "main.mini") ⟨"main.mini", 256⟩
      ⟨.unexpectedToken ")", .ofByte "main.mini" 1⟩ := .parse split rfl
  refine ⟨_, raised, rfl, drawn, fun line left c right pictured => ?_⟩
  have lookup : Line.at? "\t)" 1 = some ⟨1, ['\t', ')'], 1⟩ := by decide +kernel
  obtain rfl : line = ⟨1, ['\t', ')'], 1⟩ := Option.some.inj (pictured.found.symm.trans lookup)
  have front : left = ['\t'] :=
    (append_inj_of_byteLength pictured.text.symm pictured.offset.symm).1
  have rendered := pictured.rendered
  rw [drawn, front] at rendered
  revert rendered
  decide

end ExprLang
