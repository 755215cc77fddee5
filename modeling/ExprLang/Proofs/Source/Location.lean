import ExprLang.Number.Binary64
import ExprLang.Proofs.Grammar.Blame
import ExprLang.Proofs.Grammar.EndOfInput
import ExprLang.Proofs.Source.LineLookup
import ExprLang.Proofs.Token.Tiling

/-!
# Locations of faults

Whatever goes wrong in a source can be shown in it. A fault of splitting stands at
the character that starts no lexeme, and a fault of parsing at the token that the
parser stops at; the line of either is found, and the place in the line is right.
At the end of the input, the place is the end of the last line.
-/

namespace ExprLang

open Text

/-! ## Faults of the parser on a split source -/

/-- The causes that the token which parsing stops at is blamed for in a source. -/
inductive Cause.IsRaisedAt (token : Token) : Cause → Prop where
  | unexpected : IsRaisedAt token (.unexpectedToken token.value)
  | unexpectedWith (message : String) :
      IsRaisedAt token (.unexpectedTokenDetailed token.value message)
  | tooDeep (limit : Nat) : IsRaisedAt token (.nestedTooDeeply limit)
  | conditional (word : token.kind = .ifWord) : IsRaisedAt token (.notImplemented "if/else")
  | comparison (denoted : token.operator? = some .lessThan) :
      IsRaisedAt token (.notImplemented "binary operator `<`")

/-- A text that numbers are written with is a numeral in positional form. -/
theorem Spelling.exists_isPositional {kind : TokenKind} {text : List Char}
    (spelling : Spelling kind text) (number : kind = .integerLiteral ∨ kind = .floatingLiteral) :
    ∃ decimal, Decimal.IsPositional text decimal := by
  cases spelling with
  | name _ _ _ => exact absurd number (by decide)
  | integer nonempty all => exact ⟨_, .whole nonempty all⟩
  | fractional nonempty all nonempty' all' => exact ⟨_, .pointed nonempty all nonempty' all'⟩
  | operator _ => exact absurd number (by decide)
  | fixed same => rcases number with rfl | rfl <;> cases same

theorem Spelling.read?_ne_none {token : Token} (spelling : Spelling token.kind token.value.toList)
    (number : token.isNumber = true) : Binary64.read? token.value ≠ none := by
  obtain ⟨decimal, positional⟩ :=
    spelling.exists_isPositional ((Parser.Rule.isNumber_iff token).mp number)
  rw [Binary64.read?, positional.parse?_eq]
  nofun

namespace Parser

variable {settings : Settings} {tokens : List Token} {fault : Fault}

/-- Unless the token is a number that cannot be read, it is blamed for one of its causes. -/
theorem isRaisedAt_of_blamedAlike {limit : Nat} {token : Token}
    (blamed : token.BlamedAlike limit token fault fault) (blames : fault.Blames token)
    (readable : token.isNumber = true → Binary64.read? token.value ≠ none) :
    fault.cause.IsRaisedAt token := by
  cases blamed with
  | unexpected => exact .unexpected
  | unexpectedWith message => exact .unexpectedWith message
  | unreadable number unread => exact absurd unread (readable number)
  | conditional word => exact .conditional word
  | comparison denoted => exact .comparison denoted
  | tooDeep => exact .tooDeep limit
  | pastEnd => exact absurd rfl blames.cause_ne_unexpectedEnd

/-- A failing parse stops at a token of the stream, which is to blame if numbers can be read. -/
theorem exists_stop_of_outcome_parse (stream : IsStream tokens)
    (failed : (parse settings tokens).outcome = .error fault) :
    ∃ start stop, Cursor.ofTokens settings.file tokens = .ok start ∧
      program.run settings start = (.error fault, stop) ∧ stop.current ∈ tokens ∧
      fault.position = stop.current.span.start ∧
      ((stop.current.isNumber = true → Binary64.read? stop.current.value ≠ none) →
        fault.cause.IsRaisedAt stop.current) := by
  obtain ⟨first, rest, rfl, ends, made⟩ := stream.exists_first settings.file
  obtain ⟨stop, ran⟩ := exists_run_program made failed
  obtain ⟨read, reaches, blames⟩ := exists_reaches_of_run_program ends ran
  have member : stop.current ∈ first :: rest := by
    rw [show first :: rest = read ++ stop.remaining from reaches.remaining]
    exact List.mem_append_right _ (List.mem_cons_self ..)
  refine ⟨_, stop, made, ran, member, blames.position_eq, fun readable => ?_⟩
  obtain ⟨_, ⟨⟩, items⟩ | ⟨_, _, ⟨⟩, _⟩ := run_program_cases ran
  cases inLockstep_items ⟨[], 0⟩ settings settings (.start first rest) _ rfl (.refl _) with
  | done ran' _ _ _ _ =>
      rw [items] at ran'
      cases ran'
  | failed ran' ran'' _ _ blamed =>
      rw [items] at ran' ran''
      cases ran'
      cases ran''
      exact isRaisedAt_of_blamedAlike blamed blames readable

end Parser

/-! ## Places in a source -/

theorem Line.IsLastOf.isOf {line : Line} {source : String} (last : line.IsLastOf source) :
    line.IsOf source := by
  obtain ⟨before, whole, between⟩ := last
  exact ⟨before, [], by rw [List.append_nil, whole], between⟩

section Sources

variable {source : String} {file : String}

/-- A token is shown by the line that the start of its span is in. -/
theorem Token.IsWrittenIn.exists_at? {token : Token} {front back : List Char}
    (written : token.IsWrittenIn source.toList file front back)
    (short : source.utf8ByteSize < 2 ^ 32) :
    ∃ line, Line.at? source token.span.start.offset.toNat = some line ∧ line.IsOf source ∧
      line.Shows token.value.toList := by
  have inside : byteLength front < 2 ^ 32 := by
    rw [← byteLength_toList, written.whole, byteLength_append, byteLength_append] at short
    omega
  rw [written.start, Position.toNat_offset_ofByte inside]
  refine Line.exists_at?_shows written.whole written.spelled.ne_nil fun member => ?_
  exact written.spelled.not_mem_lineFeed (List.dropLast_subset _ member)

/-- A source without characters has no tokens but the end of the input. -/
theorem Tiles.eq_nil {leftover : List Char} {tokens : List Token}
    (tiles : Tiles file leftover [] [] tokens) : tokens = [] := by
  cases tokens with
  | nil => rfl
  | cons token tokens =>
      obtain ⟨front, back, written⟩ := tiles.exists_isWrittenIn token (List.mem_cons_self ..)
      have empty := written.whole
      simp [written.spelled.ne_nil] at empty

/-- A failing parse of a source has a token before the end of the input, so there is a line. -/
theorem ne_empty_of_outcome_parse {tokens : List Token} {closing : Token} {settings : Settings}
    {fault : Fault} (tiles : Tiles file [] [] source.toList tokens)
    (ends : closing.kind = .endOfInput)
    (failed : (parse settings (tokens ++ [closing])).outcome = .error fault) : source ≠ "" := by
  rintro rfl
  rw [tiles.eq_nil, outcome_parse_of_items .nil ends (Nat.zero_le _)] at failed
  cases failed

/-- The first character that starts no lexeme is shown by the line that is found. -/
theorem exists_line_of_outcome_tokenize (short : source.utf8ByteSize < 2 ^ 32)
    {file? : Option String} {fault : Fault}
    (failed : (tokenize source file?).outcome = .error fault) :
    ∃ c, fault.cause = .unrecognisedToken (String.singleton c) ∧
      fault.position.file = file?.getD Reader.defaultFile ∧
      ∃ line, Line.at? source fault.position.offset.toNat = some line ∧ line.IsOf source ∧
        line.Shows [c] := by
  cases tokenizeEnds source file? with
  | done outcome _ =>
      rw [outcome] at failed
      cases failed
  | @failed _ scanned c rest outcome whole _ =>
      rw [outcome] at failed
      cases failed
      refine ⟨c, rfl, rfl, ?_⟩
      have inside : byteLength scanned < 2 ^ 32 := by
        rw [← byteLength_toList, whole, byteLength_append] at short
        omega
      rw [List.append_cons] at whole
      rw [Position.toNat_offset_ofByte inside]
      exact Line.exists_at?_shows whole (List.cons_ne_nil c []) List.not_mem_nil

/-- The token that a failing parse stops at is shown, unless it is the end of the input. -/
theorem exists_line_of_outcome_parse (short : source.utf8ByteSize < 2 ^ 32)
    {file? : Option String} {settings : Settings} {tokens : List Token} {fault : Fault}
    (split : (tokenize source file?).outcome = .ok tokens)
    (failed : (parse settings tokens).outcome = .error fault) :
    ∃ start stop, Cursor.ofTokens settings.file tokens = .ok start ∧
      Parser.program.run settings start = (.error fault, stop) ∧
      fault.cause.IsRaisedAt stop.current ∧ fault.position = stop.current.span.start ∧
      fault.position.file = file?.getD Reader.defaultFile ∧
      ∃ line, Line.at? source fault.position.offset.toNat = some line ∧ line.IsOf source ∧
        (stop.current.kind ≠ .endOfInput → line.Shows stop.current.value.toList) ∧
        (stop.current.kind = .endOfInput →
          line.IsLastOf source ∧ line.offset = byteLength line.text) := by
  cases tokenizeEnds source file? with
  | failed outcome _ _ =>
      rw [outcome] at split
      cases split
  | @done written outcome tiles =>
      rw [outcome] at split
      cases split
      have stream : IsStream (written ++ [.endOfInput (.ofBytes
          (file?.getD Reader.defaultFile) source.utf8ByteSize 0)]) :=
        ⟨_, List.getLast?_concat, rfl⟩
      obtain ⟨start, stop, made, ran, member, position, raised⟩ :=
        Parser.exists_stop_of_outcome_parse stream failed
      refine ⟨start, stop, made, ran, ?_⟩
      rw [position]
      rcases List.mem_append.mp member with inside | closing
      · obtain ⟨front, back, found⟩ := tiles.exists_isWrittenIn stop.current inside
        have unfinished := found.spelled.kind_ne_endOfInput
        obtain ⟨line, lookup, isOf, shows⟩ := found.exists_at? short
        exact ⟨raised found.spelled.read?_ne_none, rfl, by rw [found.start]; rfl, line, lookup,
          isOf, fun _ => shows, fun ended => absurd ended unfinished⟩
      · have same := List.mem_singleton.mp closing
        have nonempty := ne_empty_of_outcome_parse tiles rfl failed
        obtain ⟨line, lookup, isLastOf, place⟩ := Line.exists_at?_end nonempty
        rw [same] at raised ⊢
        refine ⟨raised nofun, rfl, rfl, line, ?_, isLastOf.isOf, fun unfinished => ?_,
          fun _ => ⟨isLastOf, place⟩⟩
        · rw [← lookup]
          exact congrArg _ (Position.toNat_offset_ofByte short)
        · exact absurd rfl unfinished

end Sources

/--
A fault in a source of less than `2 ^ 32` bytes stands in the file of its tokens,
and its line is found. Splitting blames a character there; parsing blames the
token that it stops at, which the line shows unless it is the end of the input.
-/
theorem locates_faults {source : String} (short : source.utf8ByteSize < 2 ^ 32)
    (file? : Option String) (settings : Settings) :
    (∀ fault, (tokenize source file?).outcome = .error fault →
      ∃ c, fault.cause = .unrecognisedToken (String.singleton c) ∧
        fault.position.file = file?.getD Reader.defaultFile ∧
        ∃ line, Line.at? source fault.position.offset.toNat = some line ∧ line.IsOf source ∧
          line.Shows [c]) ∧
    ∀ tokens fault, (tokenize source file?).outcome = .ok tokens →
      (parse settings tokens).outcome = .error fault →
      ∃ start stop, Cursor.ofTokens settings.file tokens = .ok start ∧
        Parser.program.run settings start = (.error fault, stop) ∧
        fault.cause.IsRaisedAt stop.current ∧ fault.position = stop.current.span.start ∧
        fault.position.file = file?.getD Reader.defaultFile ∧
        ∃ line, Line.at? source fault.position.offset.toNat = some line ∧ line.IsOf source ∧
          (stop.current.kind ≠ .endOfInput → line.Shows stop.current.value.toList) ∧
          (stop.current.kind = .endOfInput →
            line.IsLastOf source ∧ line.offset = byteLength line.text) :=
  ⟨fun _ failed => exists_line_of_outcome_tokenize short failed,
    fun _ _ split failed => exists_line_of_outcome_parse short split failed⟩

/-- Where the argument of a call is missing, the end of the only line is blamed. -/
theorem locates_missing_argument :
    ∃ tokens fault, (tokenize "f(" none).outcome = .ok tokens ∧
      (parse ⟨"shell", 3⟩ tokens).outcome = .error fault ∧
      fault.cause = .unexpectedTokenDetailed "EOF" "expected an argument label" ∧
      ∃ line, Line.at? "f(" fault.position.offset.toNat = some line ∧ line.IsOf "f(" := by
  have cut : Cut.ofText "f(".toList = ⟨[⟨some .identifier, "f"⟩, ⟨some .leftParen, "("⟩], []⟩ := by
    have name : Lexeme.first? ['f', '('] = some (⟨some .identifier, "f"⟩, ['(']) := rfl
    have mark : Lexeme.first? ['('] = some (⟨some .leftParen, "("⟩, []) := rfl
    change Cut.ofText ['f', '('] = _
    rw [Cut.ofText_cons_of_first? name, Cut.ofText_cons_of_first? mark, Cut.ofText_nil]
  have split : (tokenize "f(" none).outcome =
      .ok [⟨.identifier, "f", .ofBytes "shell" 0 1⟩, ⟨.leftParen, "(", .ofBytes "shell" 1 1⟩,
        .endOfInput (.ofBytes "shell" 2 0)] := by
    rw [tokenize, cut]
    rfl
  obtain ⟨_, _, _, _, _, _, _, line, lookup, isOf, _⟩ :=
    (locates_faults (by decide) none ⟨"shell", 3⟩).2 _ _ split rfl
  exact ⟨_, _, split, rfl, rfl, line, lookup, isOf⟩

end ExprLang
