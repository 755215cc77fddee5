import ExprLang.Proofs.Token.Scanning

/-!
# Layouts

Tokens can be written out with blanks and comments between them in many ways. As
long as a blank comes first between any two of them, a text is split into the very
tokens that it was written from. So the tokens of any source can be laid out anew
without a change to their kinds and texts.
-/

namespace ExprLang

open Text

/-! ## Gaps -/

/-- Blanks in any number, and comments that are over at the end of their line. -/
inductive IsFiller : List Char → Prop where
  | nil : IsFiller []
  | blank {c : Char} {more : List Char} (blank : isBlank c = true) (others : IsFiller more) :
      IsFiller (c :: more)
  | comment {line more : List Char} (unbroken : '\n' ∉ line) (others : IsFiller more) :
      IsFiller ('/' :: '/' :: line ++ '\n' :: more)

/-- A text that keeps tokens apart: a blank, and whatever else may stand between tokens. -/
inductive IsSeparator : List Char → Prop where
  | blank {c : Char} {more : List Char} (blank : isBlank c = true) (others : IsFiller more) :
      IsSeparator (c :: more)

/-- A text before the first or after the last token. -/
inductive IsMargin : List Char → Prop where
  | none : IsMargin []
  | some {gap : List Char} (separator : IsSeparator gap) : IsMargin gap

theorem IsSeparator.isFiller {gap : List Char} (separator : IsSeparator gap) : IsFiller gap := by
  cases separator with
  | blank blank others => exact .blank blank others

theorem IsMargin.isFiller {gap : List Char} (margin : IsMargin gap) : IsFiller gap := by
  cases margin with
  | none => exact .nil
  | some separator => exact separator.isFiller

/-- What may stand between tokens is passed over. -/
theorem IsFiller.scans {file : String} {place stop : Nat} {gap text rest : List Char}
    {tokens : List Token} (filler : IsFiller gap)
    (others : Scans file (place + byteLength gap) text tokens stop rest) :
    Scans file place (gap ++ text) tokens stop rest := by
  induction filler generalizing place with
  | nil => exact others
  | blank blank _ ih =>
      rw [byteLength_cons, ← Nat.add_assoc] at others
      exact .blank blank (ih others)
  | @comment line more unbroken _ ih =>
      rw [byteLength_append, byteLength_cons '\n' more, ← Nat.add_assoc, ← Nat.add_assoc] at others
      rw [List.append_assoc]
      exact .comment unbroken (by rintro c ⟨⟩; rfl) (.blank rfl (ih others))

/-! ## Layouts -/

/-- Pieces in a row, a text before the first of them, and a text after each of them. -/
structure Layout where
  front : List Char
  slots : List (Piece × List Char)
  opening : IsMargin front
  between : ∀ slot ∈ slots.dropLast, IsSeparator slot.2
  closing : ∀ slot ∈ slots.getLast?, IsMargin slot.2

namespace Layout

def pieces (layout : Layout) : List Piece :=
  layout.slots.map Prod.fst

/-- The pieces of a layout written out. -/
def text (layout : Layout) : List Char :=
  layout.front ++ layout.slots.flatMap fun slot => slot.1.text.toList ++ slot.2

/-- A piece and the gap after it are read as a token, unless the text goes on behind an empty gap. -/
theorem scans_slot {file : String} {place stop : Nat} {piece : Piece} {gap text : List Char}
    {tokens : List Token} (spelled : piece.IsSpelled) (margin : IsMargin gap)
    (apart : gap = [] → text = [])
    (others : Scans file (place + byteLength (piece.text.toList ++ gap)) text tokens stop []) :
    ∃ token, token.piece = piece ∧
      Scans file place (piece.text.toList ++ gap ++ text) (token :: tokens) stop [] := by
  have ends : piece.kind.EndsBefore piece.text.toList (gap ++ text) := by
    cases margin with
    | none =>
        rw [apart rfl]
        exact .nil
    | some separator =>
        cases separator with
        | blank blank _ =>
            refine .of_isBlank ?_
            rintro c ⟨⟩
            exact blank
  rw [byteLength_append, ← Nat.add_assoc] at others
  refine ⟨.spelledAt file place piece.kind piece.text.toList, ?_, ?_⟩
  · rw [Token.spelledAt, String.ofList_toList]
    rfl
  · rw [List.append_assoc]
    exact .token spelled ends (margin.isFiller.scans others)

theorem exists_scans_slots (file : String) (place : Nat) {slots : List (Piece × List Char)}
    (spelled : ∀ piece ∈ slots.map Prod.fst, piece.IsSpelled)
    (between : ∀ slot ∈ slots.dropLast, IsSeparator slot.2)
    (closing : ∀ slot ∈ slots.getLast?, IsMargin slot.2) :
    ∃ tokens stop,
      Scans file place (slots.flatMap fun slot => slot.1.text.toList ++ slot.2) tokens stop [] ∧
        tokens.map Token.piece = slots.map Prod.fst := by
  induction slots generalizing place with
  | nil => exact ⟨[], place, .done, rfl⟩
  | cons slot slots ih =>
      obtain ⟨first, spelled⟩ := List.forall_mem_cons.mp spelled
      have margin : IsMargin slot.2 ∧ (slot.2 = [] → slots = []) := by
        cases slots with
        | nil => exact ⟨closing slot rfl, fun _ => rfl⟩
        | cons next slots =>
            have separator := between slot (List.mem_cons_self ..)
            refine ⟨.some separator, fun empty => ?_⟩
            rw [empty] at separator
            cases separator
      have inner : (∀ slot ∈ slots.dropLast, IsSeparator slot.2) ∧
          ∀ slot ∈ slots.getLast?, IsMargin slot.2 := by
        cases slots with
        | nil => exact ⟨nofun, nofun⟩
        | cons next slots =>
            exact ⟨fun later member => between later (List.mem_cons_of_mem _ member), closing⟩
      obtain ⟨tokens, stop, others, written⟩ :=
        ih (place + byteLength (slot.1.text.toList ++ slot.2)) spelled inner.1 inner.2
      obtain ⟨token, same, scans⟩ := scans_slot first margin.1
        (fun empty => by rw [margin.2 empty]; rfl) others
      exact ⟨token :: tokens, stop, scans, by rw [List.map_cons, List.map_cons, same, written]⟩

/-- A layout of pieces that tokens are written with is split into tokens for them and for the end. -/
theorem exists_outcome_tokenize (layout : Layout) (file? : Option String)
    (spelled : ∀ piece ∈ layout.pieces, piece.IsSpelled) :
    ∃ tokens, (tokenize (String.ofList layout.text) file?).outcome = .ok tokens ∧
      tokens.map Token.piece = layout.pieces ++ [⟨.endOfInput, "EOF"⟩] := by
  obtain ⟨tokens, stop, others, written⟩ := exists_scans_slots (file?.getD Reader.defaultFile)
    (0 + byteLength layout.front) spelled layout.between layout.closing
  have scans := layout.opening.isFiller.scans others
  refine ⟨_, scans.outcome_tokenize String.toList_ofList, ?_⟩
  rw [List.map_append, written]
  rfl

end Layout

/-! ## Tokens of sources -/

/-- The tokens of a scan are written as tokens of their kinds are. -/
theorem Scans.isSpelled {file : String} {place stop : Nat} {text rest : List Char}
    {tokens : List Token} (scans : Scans file place text tokens stop rest) :
    ∀ token ∈ tokens, token.piece.IsSpelled := by
  induction scans with
  | done => nofun
  | blank _ _ ih => exact ih
  | comment _ _ _ ih => exact ih
  | @token _ _ kind word _ _ _ spelled _ _ ih =>
      refine List.forall_mem_cons.mpr ⟨?_, ih⟩
      rw [← String.toList_ofList (l := word)] at spelled
      exact spelled

/-- A source that is split is split into tokens that can be written out, and the end. -/
theorem isSpelled_of_outcome_tokenize {source : String} {file? : Option String}
    {tokens : List Token} (split : (tokenize source file?).outcome = .ok tokens) :
    (∀ piece ∈ tokens.dropLast.map Token.piece, piece.IsSpelled) ∧
      tokens.map Token.piece = tokens.dropLast.map Token.piece ++ [⟨.endOfInput, "EOF"⟩] := by
  obtain ⟨words, stop, scans, rfl⟩ := exists_scans_of_outcome_ok split
  rw [List.dropLast_concat]
  exact ⟨List.forall_mem_map.mpr scans.isSpelled, List.map_append⟩

/--
Splitting undoes writing tokens out, whatever blanks and comments keep them apart.
So the tokens of a source that are laid out in any other way are split into tokens
of the same kinds and texts.
-/
theorem tokenize_layout (layout : Layout) (file? : Option String) :
    ((∀ piece ∈ layout.pieces, piece.IsSpelled) →
      ∃ tokens, (tokenize (String.ofList layout.text) file?).outcome = .ok tokens ∧
        tokens.map Token.piece = layout.pieces ++ [⟨.endOfInput, "EOF"⟩]) ∧
    ∀ source name? tokens, (tokenize source name?).outcome = .ok tokens →
      layout.pieces = tokens.dropLast.map Token.piece →
      ∃ tokens', (tokenize (String.ofList layout.text) file?).outcome = .ok tokens' ∧
        tokens'.map Token.piece = tokens.map Token.piece := by
  refine ⟨layout.exists_outcome_tokenize file?, fun source name? tokens split same => ?_⟩
  obtain ⟨spelled, whole⟩ := isSpelled_of_outcome_tokenize split
  rw [← same] at spelled whole
  rw [whole]
  exact layout.exists_outcome_tokenize file? spelled

/-- A quotient with a comment in it, and the same tokens on one line. -/
theorem tokenize_layout_quotient :
    (∀ piece ∈ [Piece.mk .integerLiteral "1", ⟨.binaryOperator, "/"⟩, ⟨.floatingLiteral, "2.5"⟩],
      piece.IsSpelled) ∧
    ∃ tokens tokens', (tokenize "1\u00a0/ // -\n2.5" none).outcome = .ok tokens ∧
      (tokenize "1 / 2.5 " (some "line")).outcome = .ok tokens' ∧
      tokens.map Token.piece = [⟨.integerLiteral, "1"⟩, ⟨.binaryOperator, "/"⟩,
        ⟨.floatingLiteral, "2.5"⟩, ⟨.endOfInput, "EOF"⟩] ∧
      tokens'.map Token.piece = tokens.map Token.piece := by
  have spelled : ∀ piece ∈ [Piece.mk .integerLiteral "1", ⟨.binaryOperator, "/"⟩,
      ⟨.floatingLiteral, "2.5"⟩], piece.IsSpelled := by
    simp only [List.forall_mem_cons]
    refine ⟨.integer (List.cons_ne_nil '1' []) (List.forall_mem_singleton.mpr rfl),
      .operator (by decide), ?_, List.forall_mem_nil _⟩
    exact .fractional (List.cons_ne_nil '2' []) (List.forall_mem_singleton.mpr rfl)
      (List.cons_ne_nil '5' []) (List.forall_mem_singleton.mpr rfl)
  have space {more : List Char} (others : IsFiller more) : IsSeparator (' ' :: more) :=
    .blank rfl others
  have comment : IsSeparator (' ' :: '/' :: '/' :: [' ', '-'] ++ '\n' :: []) :=
    space (.comment (by decide) .nil)
  let wide : Layout := ⟨[], [(⟨.integerLiteral, "1"⟩, ['\u00a0']),
      (⟨.binaryOperator, "/"⟩, [' ', '/', '/', ' ', '-', '\n']), (⟨.floatingLiteral, "2.5"⟩, [])],
    .none, List.forall_mem_cons.mpr ⟨.blank rfl .nil, List.forall_mem_singleton.mpr comment⟩,
    by rintro slot ⟨⟩; exact .none⟩
  let narrow : Layout := ⟨[], [(⟨.integerLiteral, "1"⟩, [' ']), (⟨.binaryOperator, "/"⟩, [' ']),
      (⟨.floatingLiteral, "2.5"⟩, [' '])],
    .none, List.forall_mem_cons.mpr ⟨space .nil, List.forall_mem_singleton.mpr (space .nil)⟩,
    by rintro slot ⟨⟩; exact .some (space .nil)⟩
  obtain ⟨tokens, split, written⟩ := (tokenize_layout wide none).1 spelled
  have same : narrow.pieces = tokens.dropLast.map Token.piece := by
    rw [List.map_dropLast, written]
    rfl
  obtain ⟨tokens', split', written'⟩ :=
    (tokenize_layout narrow (some "line")).2 _ none tokens split same
  exact ⟨spelled, tokens, tokens', split, split', written, written'⟩

end ExprLang
