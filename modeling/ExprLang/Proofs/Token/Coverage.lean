import ExprLang.Proofs.Token.Tiling
import Mathlib.Data.List.Chain

/-!
# Coverage

The spans of the tokens of a source cover it but for blanks and comments. Each of
them is that of the text of its token, they come in order, and what lies between
two of them in a row only separates the tokens. The end of the input stands just
past the last byte, so the text after the last word lies in between as well.
-/

namespace ExprLang

open Text

/-! ## Pieces of a source -/

/-- The text of a source from one byte up to another, with what comes before and after it. -/
structure IsPiece (source : String) (start stop : Nat) (front text back : List Char) : Prop where
  whole : source.toList = front ++ text ++ back
  start : byteLength front = start
  stop : byteLength (front ++ text) = stop

/-- Blanks and comments in a row, before the rest of a source. -/
inductive IsSpacing : List Char → List Char → Prop where
  | nil {rest : List Char} : IsSpacing [] rest
  | cons {gap more rest : List Char} (separates : IsGap gap (more ++ rest))
      (others : IsSpacing more rest) : IsSpacing (gap ++ more) rest

/-- From one byte of a source up to another, there are only blanks and comments. -/
def SpacedBetween (source : String) (start stop : Nat) : Prop :=
  ∃ front gap back, IsPiece source start stop front gap back ∧ IsSpacing gap back

namespace SpacedBetween

variable {source : String} {stop : Nat}

theorem le {start : Nat} (spaced : SpacedBetween source start stop) : start ≤ stop := by
  obtain ⟨front, gap, back, piece, _⟩ := spaced
  rw [← piece.start, ← piece.stop, byteLength_append]
  exact Nat.le_add_right _ _

theorem refl {front back : List Char} (whole : source.toList = front ++ back) :
    SpacedBetween source (byteLength front) (byteLength front) :=
  ⟨front, [], back, ⟨by rw [whole, List.append_nil], rfl, by rw [List.append_nil]⟩, .nil⟩

/-- A gap in front of what only separates tokens. -/
theorem gap {front gap rest : List Char} (whole : source.toList = front ++ (gap ++ rest))
    (separates : IsGap gap rest) (spaced : SpacedBetween source (byteLength (front ++ gap)) stop) :
    SpacedBetween source (byteLength front) stop := by
  obtain ⟨front', more, back, piece, others⟩ := spaced
  have same : (front ++ gap) ++ rest = front' ++ (more ++ back) := by
    rw [List.append_assoc, ← whole, piece.whole, List.append_assoc]
  obtain ⟨rfl, rfl⟩ := append_inj_of_byteLength same piece.start.symm
  refine ⟨front, gap ++ more, back, ⟨?_, rfl, ?_⟩, .cons separates others⟩
  · rw [whole, List.append_assoc, List.append_assoc]
  · rw [← List.append_assoc]
    exact piece.stop

end SpacedBetween

/-! ## Spans of tokens -/

namespace Token

/-- The byte of the source that a token starts at. -/
def startByte (token : Token) : Nat :=
  token.span.start.offset.toNat

/-- The byte of the source that a token ends before. -/
def stopByte (token : Token) : Nat :=
  token.span.stop.offset.toNat

/-- A token whose span is that of some text of the source, which is the text of the token. -/
structure FillsSpan (token : Token) (source : String) : Prop where
  nonempty : token.startByte < token.stopByte
  written : ∃ front back,
    IsPiece source token.startByte token.stopByte front token.value.toList back

end Token

section Tilings

variable {source file : String} {before text : List Char} {tokens : List Token}

theorem Tiles.file_eq {leftover : List Char} (tiles : Tiles file leftover before text tokens) :
    ∀ token ∈ tokens, token.span.start.file = file ∧ token.span.stop.file = file := by
  induction tiles with
  | nil => nofun
  | gap _ _ ih => exact ih
  | token _ _ ih => exact List.forall_mem_cons.mpr ⟨⟨rfl, rfl⟩, ih⟩

variable (short : source.utf8ByteSize < 2 ^ 32)

include short

/-- In a source of less than `2 ^ 32` bytes, a token keeps the bytes of its text. -/
theorem bytes_of_text (file : String) (kind : TokenKind) {rest : List Char}
    (whole : source.toList = before ++ (text ++ rest)) :
    (Token.mk kind (String.ofList text)
        (.ofBytes file (byteLength before) (byteLength text))).startByte = byteLength before ∧
      (Token.mk kind (String.ofList text)
        (.ofBytes file (byteLength before) (byteLength text))).stopByte =
          byteLength (before ++ text) := by
  have size := congrArg byteLength whole
  rw [byteLength_toList, byteLength_append, byteLength_append] at size
  rw [byteLength_append]
  exact ⟨Position.toNat_offset_ofByte (by omega), Position.toNat_offset_ofByte (by omega)⟩

/-- The tokens that a text is split into fill their spans. -/
theorem Tiles.fillsSpan (tiles : Tiles file [] before text tokens)
    (whole : source.toList = before ++ text) : ∀ token ∈ tokens, token.FillsSpan source := by
  induction tiles with
  | nil => nofun
  | gap _ _ ih => exact ih (by rw [whole, List.append_assoc])
  | @token before text rest kind tokens spelled _ ih =>
      refine List.forall_mem_cons.mpr ⟨?_, ih (by rw [whole, List.append_assoc])⟩
      obtain ⟨first, last⟩ := bytes_of_text short file kind whole
      refine ⟨?_, before, rest, ?_⟩
      · rw [first, last, byteLength_append]
        exact Nat.lt_add_of_pos_right (byteLength_pos spelled.ne_nil)
      · rw [first, last, String.toList_ofList]
        exact ⟨by rw [whole, List.append_assoc], rfl, rfl⟩

/-- What lies before, between and after the tokens that a text is split into separates them. -/
theorem Tiles.spaced (tiles : Tiles file [] before text tokens)
    (whole : source.toList = before ++ text) {closing : Token}
    (past : closing.startByte = source.utf8ByteSize) :
    (∀ next ∈ (tokens ++ [closing]).head?,
      SpacedBetween source (byteLength before) next.startByte) ∧
    (tokens ++ [closing]).IsChain fun token next =>
      SpacedBetween source token.stopByte next.startByte := by
  induction tiles with
  | @nil before =>
      rw [List.append_nil] at whole
      refine ⟨fun next first => ?_, .singleton closing⟩
      rw [← Option.some.inj first, past, ← byteLength_toList, whole]
      exact .refl (whole.trans (List.append_nil _).symm)
  | gap separates _ ih =>
      obtain ⟨head, chain⟩ := ih (by rw [whole, List.append_assoc])
      exact ⟨fun next first => .gap whole separates (head next first), chain⟩
  | @token before text rest kind tokens _ _ ih =>
      obtain ⟨head, chain⟩ := ih (by rw [whole, List.append_assoc])
      obtain ⟨first, last⟩ := bytes_of_text short file kind whole
      refine ⟨fun next starts => ?_, List.isChain_cons.mpr ⟨?_, chain⟩⟩
      · rw [← Option.some.inj starts, first]
        exact .refl whole
      · rwa [last]

end Tilings

/-! ## Covered sources -/

/-- Tokens that are spaced one after another come in order, also those further apart. -/
theorem pairwise_of_spaced {source : String} {tokens : List Token}
    (chain : tokens.IsChain fun token next => SpacedBetween source token.stopByte next.startByte)
    (fits : ∀ token ∈ tokens, token.startByte ≤ token.stopByte) :
    tokens.Pairwise fun token later => token.stopByte ≤ later.startByte := by
  induction tokens with
  | nil => exact .nil
  | cons token rest ih =>
      obtain ⟨head, chain⟩ := List.isChain_cons.mp chain
      have ordered := ih chain (List.forall_mem_cons.mp fits).2
      refine List.pairwise_cons.mpr ⟨fun later member => ?_, ordered⟩
      cases rest with
      | nil => cases member
      | cons next more =>
          have near := (head next rfl).le
          rcases List.mem_cons.mp member with rfl | further
          · exact near
          · have fit := fits next (List.mem_cons_of_mem _ (List.mem_cons_self ..))
            exact (near.trans fit).trans ((List.pairwise_cons.mp ordered).1 later further)

/-- The tokens of a source with all their spans, and what lies between them. -/
structure CoveredBy (source file : String) (tokens : List Token) : Prop where
  closed : ∃ words closing, tokens = words ++ [closing] ∧ closing.kind = .endOfInput ∧
    closing.startByte = source.utf8ByteSize ∧ closing.stopByte = source.utf8ByteSize ∧
    ∀ word ∈ words, word.kind ≠ .endOfInput ∧ word.FillsSpan source
  file : ∀ token ∈ tokens, token.span.start.file = file ∧ token.span.stop.file = file
  solid : ∀ token ∈ tokens, ∀ c ∈ token.value.toList, isBlank c = false
  ordered : tokens.Pairwise fun token later => token.stopByte ≤ later.startByte
  front : ∀ first ∈ tokens.head?, SpacedBetween source 0 first.startByte
  between : tokens.IsChain fun token next => SpacedBetween source token.stopByte next.startByte

/-- A source of less than `2 ^ 32` bytes that is split into tokens is covered by them. -/
theorem coveredBy_of_tokenize {source : String} {file? : Option String} {tokens : List Token}
    (short : source.utf8ByteSize < 2 ^ 32) (split : (tokenize source file?).outcome = .ok tokens) :
    CoveredBy source (file?.getD Reader.defaultFile) tokens := by
  cases tokenizeEnds source file? with
  | failed outcome _ _ =>
      rw [outcome] at split
      cases split
  | @done words outcome tiles =>
      rw [outcome] at split
      cases split
      generalize file?.getD Reader.defaultFile = file at tiles ⊢
      have past : (Token.endOfInput (.ofBytes file source.utf8ByteSize 0)).startByte =
          source.utf8ByteSize := Position.toNat_offset_ofByte short
      obtain ⟨front, between⟩ := tiles.spaced short rfl past
      have filled := tiles.fillsSpan short rfl
      have written := tiles.exists_isWrittenIn
      refine ⟨⟨words, _, rfl, rfl, past, past, fun word member => ?_⟩, ?_, ?_, ?_, front, between⟩
      · obtain ⟨_, _, found⟩ := written word member
        exact ⟨found.spelled.kind_ne_endOfInput, filled word member⟩
      · exact List.forall_mem_append.mpr
          ⟨tiles.file_eq, List.forall_mem_singleton.mpr ⟨rfl, rfl⟩⟩
      · refine List.forall_mem_append.mpr ⟨fun word member => ?_, ?_⟩
        · obtain ⟨_, _, found⟩ := written word member
          exact found.spelled.isBlank_of_mem
        · refine List.forall_mem_singleton.mpr fun c member => ?_
          have dark : ("EOF".toList.all fun c => !isBlank c) = true := rfl
          simpa using List.all_eq_true.mp dark c member
      · refine pairwise_of_spaced between (List.forall_mem_append.mpr ⟨fun word member => ?_, ?_⟩)
        · exact Nat.le_of_lt (filled word member).nonempty
        · exact List.forall_mem_singleton.mpr (Nat.le_refl _)

/-- A blank of two bytes and a comment come between and after the tokens of a source. -/
theorem coveredBy_opened_call : CoveredBy "f\u00a0(//x" "shell"
    [⟨.identifier, "f", .ofBytes "shell" 0 1⟩, ⟨.leftParen, "(", .ofBytes "shell" 3 1⟩,
      .endOfInput (.ofBytes "shell" 7 0)] := by
  have cut : Cut.ofText "f\u00a0(//x".toList = ⟨[⟨some .identifier, "f"⟩, ⟨none, "\u00a0"⟩,
      ⟨some .leftParen, "("⟩, ⟨none, "//x"⟩], []⟩ := by
    decide +kernel
  have split : (tokenize "f\u00a0(//x" none).outcome =
      .ok [⟨.identifier, "f", .ofBytes "shell" 0 1⟩, ⟨.leftParen, "(", .ofBytes "shell" 3 1⟩,
        .endOfInput (.ofBytes "shell" 7 0)] := by
    rw [tokenize, cut]
    rfl
  exact coveredBy_of_tokenize (by decide) split

end ExprLang
