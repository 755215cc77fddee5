import ExprLang.Proofs.Grammar.Continuation
import ExprLang.Proofs.Parser.Uniformity

/-!
# Locality

A rule looks at no token after the one that it stops at, and it never goes past
the end of the input. So the tokens from the one where a rule starts up to the
one where it stops settle what it gives and where it stops, whatever the other
tokens of the stream are.
-/

namespace ExprLang

/-! ## Streams -/

/-- A list of tokens that closes with the end of the input. -/
def IsStream (tokens : List Token) : Prop :=
  ∃ last ∈ tokens.getLast?, last.kind = .endOfInput

namespace IsStream

theorem of_getLastD {first : Token} {rest : List Token}
    (ends : (rest.getLastD first).kind = .endOfInput) : IsStream (first :: rest) := by
  rw [List.getLastD_eq_getLast?] at ends
  exact ⟨_, List.getLast?_cons .., ends⟩

theorem append {tokens : List Token} (stream : IsStream tokens) (front : List Token) :
    IsStream (front ++ tokens) := by
  obtain ⟨closing, final, ends⟩ := stream
  exact ⟨closing, List.mem_getLast?_append_of_mem_getLast? final, ends⟩

theorem exists_ofTokens {tokens : List Token} (stream : IsStream tokens) (file : String) :
    ∃ start, Cursor.ofTokens file tokens = .ok start := by
  obtain ⟨closing, final, ends⟩ := stream
  rw [← List.dropLast_append_getLast? closing final]
  obtain ⟨_, _, _, made⟩ := Cursor.ofTokens_append_singleton file ends
  exact ⟨_, made⟩

/-- A stream is parsed from before its first token. -/
theorem exists_first {tokens : List Token} (stream : IsStream tokens) (file : String) :
    ∃ first rest, tokens = first :: rest ∧ (rest.getLastD first).kind = .endOfInput ∧
      Cursor.ofTokens file tokens = .ok ⟨first, first :: rest, 0, []⟩ := by
  obtain ⟨_, made⟩ := stream.exists_ofTokens file
  obtain ⟨first, rest, rfl, rfl, ends⟩ := Cursor.exists_of_ofTokens made
  exact ⟨first, rest, rfl, ends, made⟩

end IsStream

/-- The end of the input comes nowhere from the first index up to the one before the last. -/
def UnfinishedBetween (first last : Nat) (tokens : List Token) : Prop :=
  ∀ index, first ≤ index → index < last → ∀ token ∈ tokens[index]?, token.kind ≠ .endOfInput

/-- Both lists have the same tokens from the first index up to the last one. -/
def AgreeBetween (first last : Nat) (tokens tokens' : List Token) : Prop :=
  ∀ index, first ≤ index → index ≤ last → tokens'[index]? = tokens[index]?

namespace Cursor

/-- The token with the index is the current one, and those after it have not been read. -/
def StandsAt (cursor : Cursor) (tokens : List Token) (index : Nat) : Prop :=
  tokens.drop index = cursor.remaining

namespace StandsAt

variable {start start' stop : Cursor} {tokens tokens' read : List Token} {first : Nat}

theorem isClosed (stands : start.StandsAt tokens first) (closed : IsStream tokens) :
    start.IsClosed := by
  obtain ⟨closing, final, ends⟩ := closed
  have same : start.remaining.getLast? = some closing := by
    rw [← stands, List.getLast?_drop, if_neg ?_]
    · exact final
    · intro short
      rw [StandsAt, List.drop_eq_nil_of_le short] at stands
      cases stands
  exact ⟨_, closing, (List.dropLast_append_getLast? _ same).symm, ends⟩

/-- After some tokens, the index is larger by their number. -/
theorem reaches (stands : start.StandsAt tokens first) (reaches : start.Reaches read stop) :
    stop.StandsAt tokens (first + read.length) ∧
      UnfinishedBetween first (first + read.length) tokens := by
  rw [StandsAt, reaches.remaining] at stands
  constructor
  · rw [StandsAt, ← List.drop_drop, stands, List.drop_left]
  · intro index after below token found
    refine reaches.unfinished token (List.mem_of_getElem? (i := index - first) ?_)
    have place : (tokens.drop first)[index - first]? = some token := by
      rw [List.getElem?_drop, Nat.add_sub_cancel' after]
      exact found
    rwa [stands, List.getElem?_append_left (by omega)] at place

/-- From the same index, the tokens that are read are ahead in any list that agrees on them. -/
theorem remaining_of_agree (stands : start.StandsAt tokens first) (reaches : start.Reaches read stop)
    (stands' : start'.StandsAt tokens' first)
    (agree : AgreeBetween first (first + read.length) tokens tokens') :
    start'.remaining = read ++ stop.current :: tokens'.drop (first + read.length + 1) := by
  have front : (tokens'.drop first).take (read.length + 1) = read ++ [stop.current] := by
    have given : (tokens.drop first).take (read.length + 1) = read ++ [stop.current] := by
      rw [stands, reaches.remaining, List.take_length_add_append]
      rfl
    rw [← given]
    refine List.ext_getElem? fun index => ?_
    by_cases inside : index < read.length + 1
    · rw [List.getElem?_take_of_lt inside, List.getElem?_take_of_lt inside, List.getElem?_drop,
        List.getElem?_drop]
      exact agree _ (Nat.le_add_right _ _) (by omega)
    · rw [List.getElem?_take_eq_none (by omega), List.getElem?_take_eq_none (by omega)]
  rw [← stands', ← List.take_append_drop (read.length + 1) (tokens'.drop first), front,
    List.drop_drop, List.append_assoc]
  rfl

end StandsAt

end Cursor

/-! ## Local parsers -/

namespace Parser

variable {α : Type}

/--
A run of the parser stops no later than at the first end of the input. It ends
in the same way, at the same index, on any other stream that agrees with the
first one from the index where the run starts up to the one where it stops.
-/
def IsLocal (parser : Parser α) : Prop :=
  ∀ (settings : Settings) (tokens : List Token) (start : Cursor) (first : Nat),
    IsStream tokens → start.StandsAt tokens first →
    ∃ last, (parser.run settings start).2.StandsAt tokens last ∧ first ≤ last ∧
      UnfinishedBetween first last tokens ∧
      ∀ (settings' : Settings) (tokens' : List Token) (start' : Cursor),
        IsStream tokens' → start'.StandsAt tokens' first → start'.depth = start.depth →
        settings'.maxDepth = settings.maxDepth → AgreeBetween first last tokens tokens' →
        (parser.run settings' start').1 = (parser.run settings start).1 ∧
          (parser.run settings' start').2.StandsAt tokens' last

/--
A parser is local if it looks at no token after the one that it stops at, and
if it goes in lockstep, so that neither the trace nor the file matters to it.
-/
theorem isLocal {noted : Event → Prop} {related : Token → α → α → Prop} {parser : Parser α}
    (mirrored : ∀ ahead bound, Mirrored ahead bound parser parser)
    (lockstep : InLockstep noted related parser)
    (same : ∀ stop value value', related stop value value' → value = value') :
    parser.IsLocal := by
  intro settings tokens start first stream stands
  obtain ⟨read, reaches⟩ := (lockstep.moves settings start).reaches
  obtain ⟨there, unfinished⟩ := stands.reaches reaches
  refine ⟨first + read.length, there, Nat.le_add_right _ _, unfinished, ?_⟩
  intro settings' tokens' start' stream' stands' depth limit agree
  have ahead := stands.remaining_of_agree reaches stands' agree
  have reaches' : start'.Reaches read
      ⟨(parser.run settings start).2.current, tokens'.drop (first + read.length + 1),
        start'.depth, []⟩ := ⟨ahead, rfl, reaches.unfinished⟩
  have goesOn : (parser.run settings start).2.current.kind ≠ .endOfInput →
      (tokens'.drop (first + read.length + 1) = [] ↔
        (parser.run settings start).2.unread = []) := by
    intro unfinished
    obtain ⟨_, _, more⟩ := (there.isClosed stream).unread_ne_nil unfinished
    obtain ⟨_, _, more'⟩ :=
      ((stands'.reaches reaches').1.isClosed stream').unread_ne_nil unfinished
    rw [more, show tokens'.drop (first + read.length + 1) = _ from more']
    constructor <;> nofun
  -- the other stream is read with the first settings, and then with the other settings
  obtain ⟨trace, ran⟩ := Mirrored.run_of_remaining mirrored rfl (.refl settings _) depth
    reaches.remaining ahead goesOn
  obtain ⟨stop', ran', same'⟩ := lockstep.run_of_remaining same ran limit rfl rfl
  rw [ran']
  refine ⟨rfl, ?_⟩
  rw [Cursor.StandsAt, same']
  exact (stands'.reaches reaches').1

/-- Parsers with an optional result are local if they miss it at the end of the input only. -/
theorem isLocal_of_sameUnlessEnded {noted : Event → Prop} {parser : Parser (Option α)}
    (mirrored : ∀ ahead bound, Mirrored ahead bound parser parser)
    (lockstep : InLockstep noted SameUnlessEnded parser) : parser.IsLocal :=
  isLocal mirrored lockstep fun _ _ _ => And.left

theorem isLocal_of_same {noted : Event → Prop} {parser : Parser α}
    (mirrored : ∀ ahead bound, Mirrored ahead bound parser parser)
    (lockstep : InLockstep noted Same parser) : parser.IsLocal :=
  isLocal mirrored lockstep fun _ _ _ => id

/-! ## Whole streams -/

/--
A run from before the first token of a stream is settled, in the same sense, by
the tokens up to the one where it stops.
-/
def IsLocalOnStreams (parser : Parser α) : Prop :=
  ∀ (settings : Settings) (tokens : List Token) (start : Cursor),
    Cursor.ofTokens settings.file tokens = .ok start →
    ∃ last, (parser.run settings start).2.StandsAt tokens last ∧
      UnfinishedBetween 0 last tokens ∧
      ∀ (settings' : Settings) (tokens' : List Token) (start' : Cursor),
        Cursor.ofTokens settings'.file tokens' = .ok start' →
        settings'.maxDepth = settings.maxDepth → AgreeBetween 0 last tokens tokens' →
        (parser.run settings' start').1 = (parser.run settings start).1 ∧
          (parser.run settings' start').2.StandsAt tokens' last

theorem isLocal_items (progress : Progress) : (recurse itemsStep progress).IsLocal :=
  isLocal_of_same (fun _ _ => guarded_itemsStep.mirrored_recurse progress)
    (inLockstep_items progress)

/-- A program ends as its items do. -/
theorem run_program_eq (settings : Settings) (first : Token) (rest : List Token) :
    (program.run settings ⟨first, first :: rest, 0, []⟩).1 =
        ((recurse itemsStep ⟨[], 0⟩).run settings (.start first rest)).1.map
          (fun progress => progress.items.reverse) ∧
      (program.run settings ⟨first, first :: rest, 0, []⟩).2.remaining =
        ((recurse itemsStep ⟨[], 0⟩).run settings (.start first rest)).2.remaining := by
  rw [run_program]
  cases (recurse itemsStep ⟨[], 0⟩).run settings (.start first rest) with
  | mk result stop => cases result <;> exact ⟨rfl, rfl⟩

theorem isLocalOnStreams_program : program.IsLocalOnStreams := by
  intro settings tokens start made
  obtain ⟨first, rest, rfl, rfl, ends⟩ := Cursor.exists_of_ofTokens made
  obtain ⟨last, there, -, unfinished, follows⟩ := isLocal_items ⟨[], 0⟩ settings (first :: rest)
    (.start first rest) 0 (.of_getLastD ends) rfl
  obtain ⟨result, stop⟩ := run_program_eq settings first rest
  refine ⟨last, there.trans stop.symm, unfinished, ?_⟩
  intro settings' tokens' start' made' limit agree
  obtain ⟨first', rest', rfl, rfl, ends'⟩ := Cursor.exists_of_ofTokens made'
  obtain ⟨same, there'⟩ := follows settings' (first' :: rest') (.start first' rest')
    (.of_getLastD ends') rfl rfl limit agree
  obtain ⟨result', stop'⟩ := run_program_eq settings' first' rest'
  exact ⟨by rw [result', same, result], there'.trans stop'.symm⟩

end Parser

/-- The outcome of parsing is the result of the program. -/
theorem outcome_parse_of_ofTokens {settings : Settings} {tokens : List Token} {start : Cursor}
    (made : Cursor.ofTokens settings.file tokens = .ok start) :
    (parse settings tokens).outcome = (Parser.program.run settings start).1 := by
  rw [parse, made]

/-- The run of the program behind an outcome of parsing. -/
theorem exists_run_program {settings : Settings} {tokens : List Token} {start : Cursor}
    {result : Except Fault (List Node)} (made : Cursor.ofTokens settings.file tokens = .ok start)
    (parsed : (parse settings tokens).outcome = result) :
    ∃ stop, Parser.program.run settings start = (result, stop) :=
  ⟨_, Prod.ext ((outcome_parse_of_ofTokens made).symm.trans parsed) rfl⟩

/-- What comes after an end of the input does not matter. -/
theorem outcome_parse_append_cons {settings settings' : Settings} {before rest rest' : List Token}
    {closing : Token} (limit : settings'.maxDepth = settings.maxDepth)
    (ends : closing.kind = .endOfInput) (stream : IsStream (closing :: rest))
    (stream' : IsStream (closing :: rest')) :
    (parse settings' (before ++ closing :: rest')).outcome =
      (parse settings (before ++ closing :: rest)).outcome := by
  obtain ⟨start, made⟩ := (stream.append before).exists_ofTokens settings.file
  obtain ⟨start', made'⟩ := (stream'.append before).exists_ofTokens settings'.file
  obtain ⟨last, -, unfinished, follows⟩ := Parser.isLocalOnStreams_program _ _ _ made
  have early : last ≤ before.length := by
    refine Nat.le_of_not_lt fun late => unfinished before.length (Nat.zero_le _) late closing ?_ ends
    rw [List.getElem?_append_right (Nat.le_refl _), Nat.sub_self]
    rfl
  rw [outcome_parse_of_ofTokens made, outcome_parse_of_ofTokens made']
  refine (follows _ _ _ made' limit fun index _ below => ?_).1
  rcases Nat.lt_or_eq_of_le (Nat.le_trans below early) with inside | final
  · rw [List.getElem?_append_left inside, List.getElem?_append_left inside]
  · subst final
    simp

namespace Parser

/--
All rules for expressions and definitions are local, and so is a whole program.
In particular, no token after the first end of the input matters to a parse.
-/
theorem isLocal_rules :
    expression.IsLocal ∧ (∀ least lhs, (climb least lhs).IsLocal) ∧ primary.IsLocal ∧
      identifier.IsLocal ∧ parenthesised.IsLocal ∧ returned.IsLocal ∧ definition.IsLocal ∧
      topLevelExpression.IsLocal ∧ program.IsLocalOnStreams ∧
      ∀ (settings settings' : Settings) (before rest rest' : List Token) (closing : Token),
        settings'.maxDepth = settings.maxDepth → closing.kind = .endOfInput →
        IsStream (closing :: rest) → IsStream (closing :: rest') →
        (parse settings' (before ++ closing :: rest')).outcome =
          (parse settings (before ++ closing :: rest)).outcome := by
  have inner : ∀ ahead bound, Mirrored ahead bound expression expression :=
    fun _ _ => mirrored_expression
  refine ⟨?_, fun least lhs => ?_, ?_, ?_, ?_, ?_, ?_, ?_, isLocalOnStreams_program, ?_⟩
  · exact isLocal_of_sameUnlessEnded inner inLockstep_expression
  · exact isLocal_of_sameUnlessEnded
      (fun _ _ => Rule.mirrored_climb mirrored_primary least lhs) (inLockstep_climb least lhs)
  · exact isLocal_of_sameUnlessEnded (fun _ _ => mirrored_primary) inLockstep_primary
  · exact isLocal_of_same
      (fun _ _ => (Rule.mirrored_identifier mirrored_expression).weaken (Nat.le_succ _)
        (Nat.le_succ _)) (Rule.inLockstep_identifier inLockstep_expression)
  · exact isLocal_of_sameUnlessEnded
      (fun _ _ => (Rule.mirrored_parenthesised mirrored_expression).weaken (Nat.le_succ _)
        (Nat.le_succ _)) (Rule.inLockstep_parenthesised inLockstep_expression)
  · exact isLocal_of_same
      (fun _ _ => (Rule.mirrored_returned mirrored_expression).weaken (Nat.le_succ _)
        (Nat.le_succ _)) (Rule.inLockstep_returned inLockstep_expression)
  · exact isLocal_of_same (fun _ _ => mirrored_definition)
      (Rule.inLockstep_definition inLockstep_expression)
  · exact isLocal_of_sameUnlessEnded (fun _ _ => mirrored_topLevelExpression)
      inLockstep_topLevelExpression
  · exact fun _ _ _ _ _ _ limit ends => outcome_parse_append_cons limit ends

end Parser

/-- The comma after the first end of the input is not seen. -/
theorem outcome_parse_comma_after_end :
    (parse ⟨"", 3⟩ ([.sample .identifier] ++
        .sample .endOfInput :: [.sample .comma, .sample .endOfInput])).outcome =
      (parse ⟨"", 3⟩ ([.sample .identifier] ++ .sample .endOfInput :: [])).outcome :=
  Parser.isLocal_rules.2.2.2.2.2.2.2.2.2 _ _ _ _ _ _ rfl rfl ⟨_, rfl, rfl⟩ ⟨_, rfl, rfl⟩

end ExprLang
