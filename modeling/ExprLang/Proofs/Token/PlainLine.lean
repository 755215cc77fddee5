import ExprLang.Proofs.Token.Boundary
import ExprLang.Proofs.Token.Tiling

/-!
# Plain lines

Up to any of its tokens, a line of a source holds blanks and the texts of other
tokens, which take a single byte a character. Comments are where other characters
may be, and no token comes after a comment on its line. The same is true of a
character that starts no lexeme, which is no blank either.
-/

namespace ExprLang

open Text

/-- All characters of the text but its blanks take a single byte. -/
def IsPlain (text : List Char) : Prop :=
  ∀ c ∈ text, isBlank c = false → c.utf8Size = 1

/-- The line that the text stops in is plain up to there. -/
def EndsPlain (text : List Char) : Prop :=
  ∀ line, line <:+ text → '\n' ∉ line → IsPlain line

namespace EndsPlain

variable {before text : List Char}

theorem append (ends : EndsPlain before) (plain : IsPlain text) : EndsPlain (before ++ text) := by
  rintro line ⟨front, whole⟩ unbroken
  rcases List.append_eq_append_iff.mp whole with ⟨more, rfl, rfl⟩ | ⟨more, _, rfl⟩
  · have earlier := ends more (List.suffix_append front more)
      fun member => unbroken (List.mem_append_left _ member)
    exact List.forall_mem_append.mpr ⟨earlier, plain⟩
  · exact fun c member => plain c (List.mem_append_right _ member)

/-- After a line feed, nothing before it matters. -/
theorem append_lineFeed (plain : IsPlain text) : EndsPlain (before ++ '\n' :: text) := by
  rintro line ⟨front, whole⟩ unbroken
  rcases List.append_eq_append_iff.mp whole with ⟨more, _, rfl⟩ | ⟨more, _, tail⟩
  · exact absurd (List.mem_append_right _ (List.mem_cons_self ..)) unbroken
  · cases more with
    | nil =>
        rw [List.nil_append] at tail
        exact absurd (tail ▸ List.mem_cons_self ..) unbroken
    | cons _ more =>
        rw [(List.cons.inj tail).2] at plain
        exact fun c member => plain c (List.mem_append_right _ member)

end EndsPlain

theorem utf8Size_of_code {c : Char} (ascii : c.toNat < 128) : c.utf8Size = 1 :=
  Char.utf8Size_eq_one_iff.mpr (UInt32.le_iff_toNat_le.mpr (Nat.le_of_lt_succ ascii))

theorem Spelling.isPlain {kind : TokenKind} {text : List Char} (spelling : Spelling kind text) :
    IsPlain text := by
  have digits : ∀ {digits : List Char}, (∀ c ∈ digits, c.isDigit = true) → IsPlain digits :=
    fun all c member _ => utf8Size_of_code (by have := code_of_isDigit (all c member); omega)
  cases spelling with
  | name starts parts _ =>
      refine List.forall_mem_cons.mpr ⟨fun _ => ?_, fun c member _ => ?_⟩
      · exact utf8Size_of_code (by have := Pattern.code_of_isWordStart starts; omega)
      · exact utf8Size_of_code (by have := Pattern.code_of_isWordPart (parts c member); omega)
  | integer _ all => exact digits all
  | fractional _ all _ all' =>
      exact List.forall_mem_append.mpr ⟨digits all, List.forall_mem_cons.mpr ⟨fun _ => rfl, digits all'⟩⟩
  | operator listed =>
      refine List.forall_mem_singleton.mpr fun _ => ?_
      simp only [List.mem_cons, List.not_mem_nil, or_false] at listed
      rcases listed with rfl | rfl | rfl | rfl | rfl <;> rfl
  | fixed same =>
      have single : text.all (fun c => c.utf8Size == 1) = true := by
        cases kind <;> cases same
        all_goals rfl
      exact fun c member _ => by simpa using List.all_eq_true.mp single c member

/--
Before each token that a text is split into, and before what is left over of it, the
line is plain. A comment reaches up to the end of its line, so no token comes after
it on the line.
-/
theorem Tiles.endsPlain {file : String} {leftover before text : List Char} {tokens : List Token}
    (tiles : Tiles file leftover before text tokens)
    (starts : ∀ c ∈ text.head?, c ≠ '\n' → EndsPlain before) :
    (∀ token ∈ tokens, ∃ front back, token.IsWrittenIn (before ++ text) file front back ∧
      EndsPlain front) ∧
    ∃ scanned, text = scanned ++ leftover ∧
      ∀ c ∈ leftover.head?, c ≠ '\n' → EndsPlain (before ++ scanned) := by
  induction tiles with
  | @nil before => exact ⟨nofun, [], rfl, by rwa [List.append_nil]⟩
  | @gap before gap rest tokens separates _ ih =>
      have later : ∀ c ∈ rest.head?, c ≠ '\n' → EndsPlain (before ++ gap) := by
        intro c first other
        cases separates with
        | comment _ ended => exact absurd (ended c first) other
        | blanks nonempty all =>
            have plain : IsPlain gap := fun d member dark => by
              rw [all d member] at dark
              cases dark
            obtain ⟨d, more, rfl⟩ := List.exists_cons_of_ne_nil nonempty
            by_cases broken : d = '\n'
            · subst broken
              exact .append_lineFeed (List.forall_mem_cons.mp plain).2
            · exact (starts d rfl broken).append plain
      obtain ⟨written, scanned, rfl, ended⟩ := ih later
      rw [List.append_assoc] at written
      exact ⟨written, gap ++ scanned, (List.append_assoc _ _ _).symm,
        by rwa [← List.append_assoc]⟩
  | @token before text rest kind tokens spelled _ ih =>
      have ends : EndsPlain before := by
        obtain ⟨d, more, rfl⟩ := List.exists_cons_of_ne_nil spelled.ne_nil
        refine starts d rfl ?_
        rintro rfl
        exact spelled.not_mem_lineFeed (List.mem_cons_self ..)
      obtain ⟨written, scanned, rfl, ended⟩ := ih fun _ _ _ => ends.append spelled.isPlain
      rw [List.append_assoc] at written
      refine ⟨List.forall_mem_cons.mpr ⟨?_, written⟩, text ++ scanned,
        (List.append_assoc _ _ _).symm, by rwa [← List.append_assoc]⟩
      refine ⟨before, scanned ++ leftover, ⟨?_, rfl, ?_⟩, ends⟩
      · rw [String.toList_ofList, List.append_assoc]
      · rwa [String.toList_ofList]

/-! ## What is left over -/

/-- Cutting stops where no lexeme starts. -/
theorem Cut.first?_leftover (text : List Char) : Lexeme.first? (ofText text).leftover = none := by
  induction count : text.length using Nat.strongRecOn generalizing text with
  | ind _ ih =>
      cases found : Lexeme.first? text with
      | none => rwa [ofText_of_first?_eq_none found]
      | some pair =>
          obtain ⟨lexeme, rest⟩ := pair
          cases text with
          | nil => cases found
          | cons c more =>
              rw [ofText_cons_of_first? found]
              exact ih rest.length (count ▸ Lexeme.length_rest_lt_of_first? found) rest rfl

/-- What a failed splitting of a source blames is no blank. -/
theorem isBlank_of_outcome_tokenize {source : String} {file? : Option String} {c : Char}
    {position : Position}
    (failed : (tokenize source file?).outcome =
      .error ⟨.unrecognisedToken (String.singleton c), position⟩) : isBlank c = false := by
  have stuck := Cut.first?_leftover source.toList
  rw [tokenize] at failed
  dsimp only at failed
  split at failed
  · cases failed
  · next d rest leftover =>
      rw [leftover] at stuck
      simp only [Except.error.injEq, Fault.mk.injEq, Cause.unrecognisedToken.injEq,
        String.singleton_inj] at failed
      exact failed.1 ▸ (Lexeme.first?_eq_none_iff.mp stuck).1

end ExprLang
