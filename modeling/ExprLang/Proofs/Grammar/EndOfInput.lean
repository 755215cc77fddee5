import ExprLang.Proofs.Grammar.Recognition
import ExprLang.Proofs.Parser.Locality

/-!
# The end of the input

A stream that closes with the end of the input is never left behind, and parsing
it never complains about a missing end. An expression is missing only at the end
of the input, so no token is ever passed over, and a parse that succeeds stops at
the first end of the input that there is.
-/

namespace ExprLang

/-! ## Faults and events of a parse -/

namespace Fault.Blames

variable {fault : Fault} {token : Token}

theorem cause_ne_unexpectedEnd (blames : fault.Blames token) : fault.cause ≠ .unexpectedEnd := by
  cases blames <;> nofun

theorem cause_ne_missingEnd (blames : fault.Blames token) : fault.cause ≠ .missingEnd := by
  cases blames <;> nofun

end Fault.Blames

/-- The events of a parse: tokens are read, items are parsed, and none is passed over. -/
inductive Event.IsOfParse : Event → Prop where
  | read (token : Token) : IsOfParse (.read token)
  | ofItems {event : Event} (sort : event.IsOfItems) : IsOfParse event
  | parsed (file : String) (itemCount : Nat) : IsOfParse (.parsed file itemCount 0)

namespace Event.IsOfParse

theorem not_skipped {token : Token} {file : String} : ¬ IsOfParse (.skipped token file) := by
  intro sort
  cases sort with
  | ofItems sort =>
      cases sort with
      | ofRules sort => cases sort

theorem skippedCount_eq_zero {file : String} {itemCount skippedCount : Nat}
    (sort : IsOfParse (.parsed file itemCount skippedCount)) : skippedCount = 0 := by
  cases sort with
  | parsed => rfl
  | ofItems sort =>
      cases sort with
      | ofRules sort => cases sort

end Event.IsOfParse

namespace Parser

variable {first : Token} {rest : List Token}

/-- A program ends at the first end of the input, or the token that it stops at is to blame. -/
inductive ProgramEnds (settings : Settings) (first : Token) (rest : List Token) : Prop where
  | done {read : List Token} {nodes : List Node} {stop : Cursor}
      (ran : program.run settings ⟨first, first :: rest, 0, []⟩ = (.ok nodes, stop))
      (reaches : (Cursor.start first rest).Reaches read stop)
      (ended : stop.current.kind = .endOfInput)
      (events : ∀ event ∈ stop.trace, event.IsOfParse)
  | failed {read : List Token} {fault : Fault} {stop : Cursor}
      (ran : program.run settings ⟨first, first :: rest, 0, []⟩ = (.error fault, stop))
      (reaches : (Cursor.start first rest).Reaches read stop)
      (blames : fault.Blames stop.current)
      (events : ∀ event ∈ stop.trace, event.IsOfParse)

/-- While items are gathered, tokens are read and items are parsed. -/
theorem isOfParse_of_run_items (settings : Settings) (first : Token) (rest : List Token) :
    ∀ event ∈ ((recurse itemsStep ⟨[], 0⟩).run settings (.start first rest)).2.trace,
      event.IsOfParse := by
  obtain ⟨events, trace, sorts⟩ :=
    ((inLockstep_items ⟨[], 0⟩).moves settings (.start first rest)).exists_trace
  rw [trace]
  intro event member
  rcases List.mem_append.mp member with added | given
  · rcases sorts event added with ⟨token, rfl⟩ | sort
    · exact .read token
    · exact .ofItems sort
  · rw [List.mem_singleton.mp given]
    exact .read first

theorem programEnds (settings : Settings) (ends : (rest.getLastD first).kind = .endOfInput) :
    ProgramEnds settings first rest := by
  have events := isOfParse_of_run_items settings first rest
  have whole := run_program settings first rest
  cases ends_items (Cursor.isClosed_start ends) (Nat.sub_zero settings.maxDepth) ⟨[], 0⟩ with
  | failed ran reaches blames _ =>
      rw [ran] at whole events
      exact .failed whole reaches blames events
  | done ran reaches holds =>
      obtain ⟨ended, nodes, _, rfl⟩ := holds
      rw [ran] at whole events
      refine .done whole ⟨reaches.remaining, reaches.depth, reaches.unfinished⟩ ended ?_
      intro event member
      rcases List.mem_cons.mp member with rfl | earlier
      · exact .parsed _ _
      · exact events event earlier

/-- A program that fails stops at the token that is to blame. -/
theorem exists_reaches_of_run_program {settings : Settings} {fault : Fault} {stop : Cursor}
    (ends : (rest.getLastD first).kind = .endOfInput)
    (failed : program.run settings ⟨first, first :: rest, 0, []⟩ = (.error fault, stop)) :
    ∃ read, (Cursor.start first rest).Reaches read stop ∧ fault.Blames stop.current := by
  cases programEnds settings ends with
  | done ran _ _ _ =>
      rw [failed] at ran
      cases ran
  | failed ran reaches blames _ =>
      rw [failed] at ran
      cases ran
      exact ⟨_, reaches, blames⟩

/-! ## Missing expressions -/

/-- A run of the parser gives no result only at the end of the input. -/
def MissesOnlyAtEnd {α : Type} (parser : Parser (Option α)) : Prop :=
  ∀ (settings : Settings) (cursor stop : Cursor),
    parser.run settings cursor = (.ok none, stop) → stop.current.kind = .endOfInput

theorem InLockstep.missesOnlyAtEnd {α : Type} {noted : Event → Prop} {parser : Parser (Option α)}
    (lockstep : InLockstep noted SameUnlessEnded parser) : parser.MissesOnlyAtEnd := by
  intro settings cursor stop ran
  cases lockstep settings settings cursor cursor rfl (.refl cursor) with
  | failed ran' _ _ _ _ =>
      rw [ran] at ran'
      cases ran'
  | done ran' _ _ _ holds =>
      rw [ran] at ran'
      cases ran'
      exact holds.2 rfl

end Parser

/-! ## Whole parses -/

/-- Either the tokens close with the end of the input, or parsing them fails at once. -/
theorem isStream_or_missingEnd (settings : Settings) (tokens : List Token) :
    IsStream tokens ∨ (tokens = [] ∨ ∃ last ∈ tokens.getLast?, last.kind ≠ .endOfInput) ∧
      ∃ position, parse settings tokens = ⟨.error ⟨.missingEnd, position⟩, []⟩ := by
  cases tokens with
  | nil => exact .inr ⟨.inl rfl, _, rfl⟩
  | cons first rest =>
      have final : rest.getLastD first ∈ (first :: rest).getLast? := by
        rw [List.getLast?_cons, List.getLastD_eq_getLast?]
        rfl
      by_cases ends : (rest.getLastD first).kind = .endOfInput
      · exact .inl ⟨_, final, ends⟩
      · refine .inr ⟨.inr ⟨_, final, ends⟩, (rest.getLastD first).span.stop, ?_⟩
        rw [parse, Cursor.ofTokens, if_neg ends]

theorem blames_of_outcome_parse {settings : Settings} {tokens : List Token} {fault : Fault}
    (stream : IsStream tokens) (failed : (parse settings tokens).outcome = .error fault) :
    ∃ token, fault.Blames token := by
  obtain ⟨first, rest, rfl, ends, made⟩ := stream.exists_first settings.file
  obtain ⟨stop, ran⟩ := exists_run_program made failed
  obtain ⟨_, _, blames⟩ := Parser.exists_reaches_of_run_program ends ran
  exact ⟨stop.current, blames⟩

theorem isOfParse_of_mem_events {settings : Settings} {tokens : List Token} {event : Event}
    (member : event ∈ (parse settings tokens).events) : event.IsOfParse := by
  rcases isStream_or_missingEnd settings tokens with stream | ⟨_, _, same⟩
  · obtain ⟨first, rest, rfl, ends, made⟩ := stream.exists_first settings.file
    have trace : event ∈ (Parser.program.run settings ⟨first, first :: rest, 0, []⟩).2.trace := by
      rw [parse, made] at member
      exact List.mem_reverse.mp member
    cases Parser.programEnds settings ends with
    | done ran _ _ events =>
        rw [ran] at trace
        exact events event trace
    | failed ran _ _ events =>
        rw [ran] at trace
        exact events event trace
  · rw [same] at member
    cases member

/-- The end of the input is missing exactly if the tokens do not close with it. -/
theorem exists_missingEnd_iff (settings : Settings) (tokens : List Token) :
    (∃ position, (parse settings tokens).outcome = .error ⟨.missingEnd, position⟩) ↔
      tokens = [] ∨ ∃ last ∈ tokens.getLast?, last.kind ≠ .endOfInput := by
  rcases isStream_or_missingEnd settings tokens with stream | ⟨unclosed, position, same⟩
  · constructor
    · rintro ⟨position, failed⟩
      obtain ⟨_, blames⟩ := blames_of_outcome_parse stream failed
      exact absurd rfl blames.cause_ne_missingEnd
    · obtain ⟨closing, final, ends⟩ := stream
      rintro (rfl | ⟨last, final', unfinished⟩)
      · cases final
      · rw [Option.mem_unique final' final] at unfinished
        exact absurd ends unfinished
  · exact ⟨fun _ => unclosed, fun _ => ⟨position, by rw [same]⟩⟩

theorem outcome_parse_ne_unexpectedEnd (settings : Settings) (tokens : List Token)
    (position : Position) :
    (parse settings tokens).outcome ≠ .error ⟨.unexpectedEnd, position⟩ := by
  intro failed
  rcases isStream_or_missingEnd settings tokens with stream | ⟨_, _, same⟩
  · obtain ⟨_, blames⟩ := blames_of_outcome_parse stream failed
    exact blames.cause_ne_unexpectedEnd rfl
  · rw [same] at failed
    cases failed

/-- A program that is parsed ends at the first end of the input. -/
theorem Parser.exists_standsAt_of_run_program {settings : Settings} {tokens : List Token}
    {start stop : Cursor} {nodes : List Node}
    (made : Cursor.ofTokens settings.file tokens = .ok start)
    (ran : program.run settings start = (.ok nodes, stop)) :
    ∃ index, stop.StandsAt tokens index ∧ stop.current.kind = .endOfInput ∧
      UnfinishedBetween 0 index tokens := by
  obtain ⟨first, rest, rfl, rfl, ends⟩ := Cursor.exists_of_ofTokens made
  cases programEnds settings ends with
  | failed ran' _ _ _ =>
      rw [ran] at ran'
      cases ran'
  | @done read nodes' stop' ran' reaches ended _ =>
      rw [ran] at ran'
      cases ran'
      obtain ⟨there, unfinished⟩ := Cursor.StandsAt.reaches
        (show (Cursor.start first rest).StandsAt (first :: rest) 0 from rfl) reaches
      exact ⟨_, there, ended, unfinished⟩

namespace Parser

/--
For any tokens, the missing end of the input is the fault exactly if they do not
close with it, and running past the end never is. Expressions are missing only at
the end of the input, no token is passed over or counted as such, and a parse
that succeeds stops at the first end of the input.
-/
theorem parse_keeps_within_input (settings : Settings) (tokens : List Token) :
    ((∃ position, (parse settings tokens).outcome = .error ⟨.missingEnd, position⟩) ↔
      tokens = [] ∨ ∃ last ∈ tokens.getLast?, last.kind ≠ .endOfInput) ∧
    (∀ position, (parse settings tokens).outcome ≠ .error ⟨.unexpectedEnd, position⟩) ∧
    expression.MissesOnlyAtEnd ∧ (∀ least lhs, (climb least lhs).MissesOnlyAtEnd) ∧
    primary.MissesOnlyAtEnd ∧ parenthesised.MissesOnlyAtEnd ∧
    topLevelExpression.MissesOnlyAtEnd ∧
    (∀ token file, .skipped token file ∉ (parse settings tokens).events) ∧
    (∀ file itemCount skippedCount,
      .parsed file itemCount skippedCount ∈ (parse settings tokens).events → skippedCount = 0) ∧
    ∀ start stop nodes, Cursor.ofTokens settings.file tokens = .ok start →
      program.run settings start = (.ok nodes, stop) →
      ∃ index, stop.StandsAt tokens index ∧ stop.current.kind = .endOfInput ∧
        UnfinishedBetween 0 index tokens := by
  refine ⟨exists_missingEnd_iff settings tokens, outcome_parse_ne_unexpectedEnd settings tokens,
    inLockstep_expression.missesOnlyAtEnd, fun least lhs => ?_, inLockstep_primary.missesOnlyAtEnd,
    (Rule.inLockstep_parenthesised inLockstep_expression).missesOnlyAtEnd,
    inLockstep_topLevelExpression.missesOnlyAtEnd, fun token file member => ?_,
    fun file itemCount skippedCount member => ?_, fun start stop nodes made ran => ?_⟩
  · exact (inLockstep_climb least lhs).missesOnlyAtEnd
  · exact (isOfParse_of_mem_events member).not_skipped
  · exact (isOfParse_of_mem_events member).skippedCount_eq_zero
  · exact exists_standsAt_of_run_program made ran

end Parser

/-- A stream with a second end of the input is parsed up to the first one. -/
theorem run_program_returned_parenthesis :
    ∃ index stop,
      (Parser.program.run ⟨"", 3⟩ ⟨.sample .returnWord, [.sample .returnWord, .sample .leftParen,
        .sample .endOfInput, .sample .comma, .sample .endOfInput], 0, []⟩) =
          (.ok [.entryPoint .bareReturn], stop) ∧
      stop.StandsAt [.sample .returnWord, .sample .leftParen, .sample .endOfInput, .sample .comma,
        .sample .endOfInput] index ∧ stop.current.kind = .endOfInput := by
  obtain ⟨index, there, ended, _⟩ := (Parser.parse_keeps_within_input ⟨"", 3⟩ [.sample .returnWord,
    .sample .leftParen, .sample .endOfInput, .sample .comma, .sample .endOfInput]).2.2.2.2.2.2.2.2.2
    _ _ [.entryPoint .bareReturn] rfl rfl
  exact ⟨index, _, rfl, there, ended⟩

end ExprLang
