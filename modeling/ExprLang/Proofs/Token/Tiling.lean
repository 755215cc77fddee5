import ExprLang.Proofs.Text.Bytes
import ExprLang.Proofs.Token.Shapes

/-!
# Tilings

The tokens of a source tile it. Each of them is written out at its span, as tokens
of its kind are, and only blanks and comments lie in between. When a source is not
split to its end, its tokens tile it up to the character that is to blame.
-/

namespace ExprLang

open Text

/-! ## Spelled texts -/

namespace Spelling

variable {kind : TokenKind} {text : List Char}

theorem isBlank_of_isDigit {c : Char} (digit : c.isDigit = true) : isBlank c = false :=
  Pattern.isBlank_of_isWordPart (Pattern.isWordPart_of_isDigit digit)

/-- No token has a blank in its text. -/
theorem isBlank_of_mem (spelling : Spelling kind text) : ∀ c ∈ text, isBlank c = false := by
  cases spelling with
  | name starts parts _ =>
      refine List.forall_mem_cons.mpr ⟨?_, fun d member => ?_⟩
      · exact Pattern.isBlank_of_isWordPart (Pattern.isWordPart_of_isWordStart starts)
      · exact Pattern.isBlank_of_isWordPart (parts d member)
  | integer _ all => exact fun c member => isBlank_of_isDigit (all c member)
  | fractional _ all _ all' =>
      intro c member
      rcases List.mem_append.mp member with member | member
      · exact isBlank_of_isDigit (all c member)
      · rcases List.mem_cons.mp member with rfl | member
        · rfl
        · exact isBlank_of_isDigit (all' c member)
  | operator listed =>
      refine List.forall_mem_singleton.mpr ?_
      simp only [List.mem_cons, List.not_mem_nil, or_false] at listed
      rcases listed with rfl | rfl | rfl | rfl | rfl <;> rfl
  | fixed same =>
      have dark : text.all (fun c => !isBlank c) = true := by
        cases kind <;> cases same
        all_goals rfl
      exact fun c member => by simpa using List.all_eq_true.mp dark c member

theorem not_mem_lineFeed (spelling : Spelling kind text) : '\n' ∉ text :=
  fun member => absurd (spelling.isBlank_of_mem '\n' member) (by decide)

/-- The end of the input is not written out. -/
theorem kind_ne_endOfInput (spelling : Spelling kind text) : kind ≠ .endOfInput := by
  rintro rfl
  cases spelling with
  | fixed same => cases same

end Spelling

/-! ## Tilings -/

/--
The tokens that a text is split into before what is left over of it, where the
text comes after the given one.
-/
inductive Tiles (file : String) (leftover : List Char) :
    List Char → List Char → List Token → Prop where
  | nil {before : List Char} : Tiles file leftover before leftover []
  | gap {before gap rest : List Char} {tokens : List Token} (separates : IsGap gap rest)
      (others : Tiles file leftover (before ++ gap) rest tokens) :
      Tiles file leftover before (gap ++ rest) tokens
  | token {before text rest : List Char} {kind : TokenKind} {tokens : List Token}
      (spelled : Spelling kind text)
      (others : Tiles file leftover (before ++ text) rest tokens) :
      Tiles file leftover before (text ++ rest)
        (⟨kind, String.ofList text, .ofBytes file (byteLength before) (byteLength text)⟩ :: tokens)

/-- The token is written in the source at the start of its span, as tokens of its kind are. -/
structure Token.IsWrittenIn (token : Token) (source : List Char) (file : String)
    (front back : List Char) : Prop where
  whole : source = front ++ token.value.toList ++ back
  start : token.span.start = .ofByte file (byteLength front)
  spelled : Spelling token.kind token.value.toList

namespace Tiles

variable {file : String} {leftover before text : List Char} {tokens : List Token}

theorem exists_isWrittenIn (tiles : Tiles file leftover before text tokens) :
    ∀ token ∈ tokens, ∃ front back, token.IsWrittenIn (before ++ text) file front back := by
  induction tiles with
  | nil => nofun
  | gap _ _ ih =>
      rw [← List.append_assoc]
      exact ih
  | @token before text rest _ tokens spelled _ ih =>
      rw [← List.append_assoc]
      refine List.forall_mem_cons.mpr ⟨⟨before, rest, ?_, rfl, ?_⟩, ih⟩
      · rw [String.toList_ofList]
      · rwa [String.toList_ofList]

end Tiles

/-! ## Readers -/

namespace Reader

theorem offset_accept_ofList {reader : Reader} {before : List Char} (text : List Char)
    (place : reader.offset = byteLength before) (kind? : Option TokenKind) :
    (reader.accept ⟨kind?, String.ofList text⟩).offset = byteLength (before ++ text) := by
  rw [offset_accept, place, byteLength_append, ← byteLength_toList, String.toList_ofList]

theorem tokens_accept_of_kind {reader : Reader} {before text : List Char}
    (place : reader.offset = byteLength before) (kind : TokenKind) :
    (reader.accept ⟨some kind, String.ofList text⟩).tokens = reader.tokens ++
      [⟨kind, String.ofList text, .ofBytes reader.file (byteLength before) (byteLength text)⟩] := by
  rw [← place, ← String.toList_ofList (l := text), byteLength_toList, String.toList_ofList]
  exact tokens_push reader _

/--
The second reader comes after the first one in a source, at what is left over of
the text ahead, and it has collected the tokens that the text is split into.
-/
structure Covers (start stop : Reader) (leftover before text : List Char) (tokens : List Token) :
    Prop where
  collected : stop.tokens = start.tokens ++ tokens
  file : stop.file = start.file
  place : ∃ scanned, text = scanned ++ leftover ∧ stop.offset = byteLength (before ++ scanned)
  tiles : Tiles start.file leftover before text tokens

namespace Covers

variable {start stop : Reader} {leftover before text rest : List Char} {tokens : List Token}

theorem refl (place : start.offset = byteLength before) :
    start.Covers start leftover before leftover [] := by
  refine ⟨(List.append_nil _).symm, rfl, ⟨[], rfl, ?_⟩, .nil⟩
  rw [List.append_nil]
  exact place

/-- The place that is reached over the rest of a text is reached over the whole text. -/
theorem place_append (covers : start.Covers stop leftover (before ++ text) rest tokens) :
    ∃ scanned, text ++ rest = scanned ++ leftover ∧
      stop.offset = byteLength (before ++ scanned) := by
  obtain ⟨scanned, shape, offset⟩ := covers.place
  exact ⟨text ++ scanned, by rw [shape, List.append_assoc],
    by rw [offset, List.append_assoc]⟩

theorem gap (separates : IsGap text rest)
    (covers : (start.accept ⟨none, String.ofList text⟩).Covers stop leftover (before ++ text)
      rest tokens) : start.Covers stop leftover before (text ++ rest) tokens :=
  ⟨covers.collected, covers.file, covers.place_append, .gap separates covers.tiles⟩

theorem token {kind : TokenKind} (spelled : Spelling kind text)
    (place : start.offset = byteLength before)
    (covers : (start.accept ⟨some kind, String.ofList text⟩).Covers stop leftover
      (before ++ text) rest tokens) :
    start.Covers stop leftover before (text ++ rest)
      (⟨kind, String.ofList text, .ofBytes start.file (byteLength before) (byteLength text)⟩ ::
        tokens) := by
  refine ⟨?_, covers.file, covers.place_append, .token spelled covers.tiles⟩
  rw [covers.collected, tokens_accept_of_kind place, List.append_assoc]
  rfl

end Covers

/-- A reader that accepts the lexemes of a text covers it up to what is left over. -/
theorem exists_covers (reader : Reader) (before text : List Char)
    (place : reader.offset = byteLength before) :
    ∃ tokens, reader.Covers ((Cut.ofText text).lexemes.foldl accept reader)
      (Cut.ofText text).leftover before text tokens := by
  -- what comes after the first lexeme is shorter, and the reader has moved up to it
  induction count : text.length using Nat.strongRecOn generalizing text reader before with
  | ind _ ih =>
      cases text with
      | nil =>
          rw [Cut.ofText_nil]
          exact ⟨[], .refl place⟩
      | cons c more =>
          cases found : Lexeme.first? (c :: more) with
          | none =>
              rw [Cut.ofText_of_first?_eq_none found]
              exact ⟨[], .refl place⟩
          | some pair =>
              obtain ⟨lexeme, rest⟩ := pair
              have shorter := Lexeme.length_rest_lt_of_first? found
              obtain ⟨shape, fits⟩ := Lexeme.fits_of_first? found
              rw [Cut.ofText_cons_of_first? found, List.foldl_cons, shape]
              cases fits with
              | @gap text _ separates =>
                  rw [String.toList_ofList]
                  obtain ⟨tokens, covers⟩ := ih rest.length (count ▸ shorter) _ _ rest
                    (offset_accept_ofList text place none) rfl
                  exact ⟨tokens, .gap separates covers⟩
              | @token kind text _ spelled =>
                  rw [String.toList_ofList]
                  obtain ⟨tokens, covers⟩ := ih rest.length (count ▸ shorter) _ _ rest
                    (offset_accept_ofList text place (some kind)) rfl
                  exact ⟨_, .token spelled place covers⟩

end Reader

/-! ## Sources -/

/-- How splitting a source ends: at its end, or at the first character that starts no lexeme. -/
inductive TokenizeEnds (source : String) (file? : Option String) : Prop where
  | done {tokens : List Token}
      (outcome : (tokenize source file?).outcome =
        .ok (tokens ++
          [.endOfInput (.ofBytes (file?.getD Reader.defaultFile) source.utf8ByteSize 0)]))
      (tiles : Tiles (file?.getD Reader.defaultFile) [] [] source.toList tokens)
  | failed {tokens : List Token} {scanned : List Char} {c : Char} {rest : List Char}
      (outcome : (tokenize source file?).outcome = .error
        ⟨.unrecognisedToken (String.singleton c),
          .ofByte (file?.getD Reader.defaultFile) (byteLength scanned)⟩)
      (whole : source.toList = scanned ++ c :: rest)
      (tiles : Tiles (file?.getD Reader.defaultFile) (c :: rest) [] source.toList tokens)

theorem tokenizeEnds (source : String) (file? : Option String) : TokenizeEnds source file? := by
  obtain ⟨tokens, covers⟩ := Reader.exists_covers (.ofSource source file?) [] source.toList rfl
  obtain ⟨stop, final⟩ : ∃ stop, (Cut.ofText source.toList).lexemes.foldl Reader.accept
      (.ofSource source file?) = stop := ⟨_, rfl⟩
  rw [final] at covers
  obtain ⟨scanned, whole, place⟩ := covers.place
  have tiles := covers.tiles
  cases leftover : (Cut.ofText source.toList).leftover with
  | nil =>
      rw [leftover, List.append_nil] at whole
      rw [leftover] at tiles
      rw [List.nil_append, ← whole, byteLength_toList] at place
      refine .done ?_ tiles
      rw [tokenize]
      dsimp only
      rw [leftover, final, Reader.close, Reader.tokens_push, covers.collected, Reader.spanOf,
        covers.file, place]
      rfl
  | cons c rest =>
      rw [leftover] at tiles whole
      refine .failed ?_ whole tiles
      rw [tokenize]
      dsimp only
      rw [leftover, final]
      dsimp only
      rw [Reader.position, covers.file, place]
      rfl

end ExprLang
