import ExprLang.Proofs.Token.Spelling

/-!
# Shapes of lexemes

Every lexeme that is cut off a text is either written as a token of its kind, or
it separates tokens, as blanks or as a comment up to the end of its line. All
lexemes of a text in a row give it back, up to the text that starts with none.
-/

namespace ExprLang

open Text

/-- A text that separates tokens, before the rest of a source. -/
inductive IsGap : List Char → List Char → Prop where
  | blanks {gap rest : List Char} (nonempty : gap ≠ []) (all : ∀ c ∈ gap, isBlank c = true) :
      IsGap gap rest
  | comment {line rest : List Char} (unbroken : '\n' ∉ line) (ended : ∀ c ∈ rest.head?, c = '\n') :
      IsGap ('/' :: '/' :: line) rest

/-- A lexeme that is a gap before the rest of a source, or that is written as its kind is. -/
inductive Lexeme.Fits : Lexeme → List Char → Prop where
  | gap {text rest : List Char} (separates : IsGap text rest) : Fits ⟨none, String.ofList text⟩ rest
  | token {kind : TokenKind} {text rest : List Char} (spelled : Spelling kind text) :
      Fits ⟨some kind, String.ofList text⟩ rest

/-! ## Patterns -/

namespace Pattern

/-- Whatever the pattern takes fits before the rest of the text. -/
def IsSound (pattern : Pattern) : Prop :=
  ∀ text, pattern.length text ≠ 0 → ∃ taken rest, text = taken ++ rest ∧
    pattern.length text = taken.length ∧
    Lexeme.Fits ⟨pattern.kind? (String.ofList taken), String.ofList taken⟩ rest

theorem isSound_blank : IsSound ⟨blankLength, fun _ => none⟩ := by
  intro text taken
  refine ⟨text.takeWhile isBlank, text.dropWhile isBlank,
    List.takeWhile_append_dropWhile.symm, rfl, .gap (.blanks ?_ ?_)⟩
  · exact fun empty => taken (congrArg List.length empty)
  · exact List.all_eq_true.mp List.all_takeWhile

theorem isSound_comment : IsSound ⟨commentLength, fun _ => none⟩ := by
  intro text taken
  dsimp only at taken ⊢
  unfold commentLength at taken ⊢
  split at taken
  · next rest =>
      have split := List.takeWhile_append_dropWhile (p := (· != '\n')) (l := rest)
      refine ⟨'/' :: '/' :: rest.takeWhile (· != '\n'), rest.dropWhile (· != '\n'),
        by rw [List.cons_append, List.cons_append, split], ?_, .gap (.comment ?_ ?_)⟩
      · rw [List.length_cons, List.length_cons, Nat.add_comm]
      · intro member
        have other := List.all_eq_true.mp List.all_takeWhile _ member
        simp at other
      · intro c first
        simpa using stop_of_dropWhile (p := (· != '\n')) rest c first
  · exact absurd rfl taken

/-- A word is reserved, or it is written as a name is. -/
theorem spelling_ofWord {c : Char} {parts : List Char} (starts : isWordStart c = true)
    (all : ∀ d ∈ parts, isWordPart d = true) :
    Spelling (TokenKind.ofWord (String.ofList (c :: parts))) (c :: parts) := by
  rw [TokenKind.ofWord]
  cases reserved : TokenKind.ofReservedWord? (String.ofList (c :: parts)) with
  | none => exact .name starts all reserved
  | some kind =>
      have spelled : ∀ {word : String}, String.ofList (c :: parts) = word →
          c :: parts = word.toList := fun same => by rw [← same, String.toList_ofList]
      refine .fixed ?_
      unfold TokenKind.ofReservedWord? at reserved
      split at reserved <;> cases reserved
      all_goals
        next same => exact congrArg some (spelled same).symm

theorem isSound_word : IsSound ⟨wordLength, fun word => some (TokenKind.ofWord word)⟩ := by
  intro text taken
  cases text with
  | nil => exact absurd rfl taken
  | cons c rest =>
      dsimp only [wordLength] at taken ⊢
      split at taken
      · next starts =>
          refine ⟨c :: rest.takeWhile isWordPart, rest.dropWhile isWordPart, ?_, ?_,
            .token (spelling_ofWord starts (List.all_eq_true.mp List.all_takeWhile))⟩
          · rw [List.cons_append, List.takeWhile_append_dropWhile]
          · rw [List.length_cons, Nat.add_comm, if_pos starts]
      · exact absurd rfl taken

theorem isSound_digits : IsSound ⟨digitsLength, fun _ => some .integerLiteral⟩ := by
  intro text taken
  refine ⟨text.takeWhile Char.isDigit, text.dropWhile Char.isDigit,
    List.takeWhile_append_dropWhile.symm, rfl, .token (.integer ?_ ?_)⟩
  · exact fun empty => taken (congrArg List.length empty)
  · exact List.all_eq_true.mp List.all_takeWhile

theorem isSound_fractional : IsSound ⟨fractionalLength, fun _ => some .floatingLiteral⟩ := by
  intro text taken
  dsimp only at taken ⊢
  obtain ⟨fraction, point, some, some', length⟩ := exists_point_of_fractionalLength taken
  have whole := List.takeWhile_append_dropWhile (p := Char.isDigit) (l := text)
  have whole' := List.takeWhile_append_dropWhile (p := Char.isDigit) (l := fraction)
  refine ⟨text.takeWhile Char.isDigit ++ '.' :: fraction.takeWhile Char.isDigit,
    fraction.dropWhile Char.isDigit, ?_, ?_, .token (.fractional ?_ ?_ ?_ ?_)⟩
  · rw [List.append_assoc, List.cons_append, whole', ← point, whole]
  · rw [length, List.length_append, List.length_cons]
    simp only [digitsLength]
    omega
  · exact fun empty => some (congrArg List.length empty)
  · exact List.all_eq_true.mp List.all_takeWhile
  · exact fun empty => some' (congrArg List.length empty)
  · exact List.all_eq_true.mp List.all_takeWhile

theorem isSound_mark {text : String} {kind : TokenKind}
    (same : kind.fixedText? = some text.toList) : IsSound (mark text kind) := by
  intro whole taken
  dsimp only [mark, markLength] at taken ⊢
  split at taken
  · next starts =>
      obtain ⟨rest, rfl⟩ := List.isPrefixOf_iff_prefix.mp starts
      exact ⟨text.toList, rest, rfl, if_pos starts, .token (.fixed same)⟩
  · exact absurd rfl taken

theorem isSound_operator : IsSound ⟨operatorLength, fun _ => some .binaryOperator⟩ := by
  intro text taken
  cases text with
  | nil => exact absurd rfl taken
  | cons c rest =>
      dsimp only [operatorLength] at taken ⊢
      split at taken
      · next listed =>
          exact ⟨[c], rest, rfl, if_pos listed, .token (.operator (List.contains_iff_mem.mp listed))⟩
      · exact absurd rfl taken

theorem isSound_of_mem_all : ∀ pattern ∈ all, pattern.IsSound := by
  simp only [all, List.forall_mem_cons]
  exact ⟨isSound_blank, isSound_comment, isSound_word, isSound_fractional, isSound_digits,
    isSound_mark rfl, isSound_mark rfl, isSound_mark rfl, isSound_mark rfl, isSound_mark rfl,
    isSound_mark rfl, isSound_mark rfl, isSound_operator, nofun⟩

end Pattern

/-! ## Cuts -/

/-- The first lexeme of a text stands in front of the rest and fits there. -/
theorem Lexeme.fits_of_first? {text rest : List Char} {lexeme : Lexeme}
    (found : first? text = some (lexeme, rest)) :
    text = lexeme.text.toList ++ rest ∧ lexeme.Fits rest := by
  obtain ⟨pattern, member, taken⟩ := List.exists_of_findSome?_eq_some found
  unfold Pattern.take? at taken
  dsimp only at taken
  split at taken
  · cases taken
  · next nonzero =>
      obtain ⟨front, back, rfl, length, fits⟩ :=
        Pattern.isSound_of_mem_all pattern member text nonzero
      rw [length, List.take_left, List.drop_left] at taken
      cases taken
      exact ⟨by rw [String.toList_ofList], fits⟩

end ExprLang
