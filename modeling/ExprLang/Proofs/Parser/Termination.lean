import ExprLang.Proofs.Grammar.EndOfInput
import ExprLang.Proofs.Parser.Operations
import ExprLang.Proofs.Parser.Reentry

/-!
# Termination

Every rule ends from every cursor, whatever the limit of nesting is, because it
consumes tokens: each round of a loop that neither returns nor fails reads at least
one, and the climbing of operators reads two before it goes on or goes deeper. So no
recursion ever uses up its rounds, and a run reads at most the tokens to come.
-/

namespace ExprLang.Parser

variable {α β γ : Type}

/-! ## Rounds that suffice -/

/--
The recursion comes to its end by itself: from each cursor, as many rounds as there
are tokens to come and one more do the same, whatever parser is run after them.
-/
def Terminates (step : (α → Parser β) → α → Parser β) : Prop :=
  ∀ (bottom : α → Parser β) (rounds : Nat) (argument : α) (settings : Settings) (cursor : Cursor),
    cursor.unread.length < rounds →
    (unrollTo bottom step rounds argument).run settings cursor =
      (recurse step argument).run settings cursor

theorem Terminates.of_guarded {step : (α → Parser β) → α → Parser β}
    (guarded : ∀ ahead bound, Guarded ahead bound step step) : Terminates step := by
  intro bottom rounds argument settings cursor enough
  change _ = (unroll step (cursor.unread.length + 1) argument).run settings cursor
  rw [unroll_eq_unrollTo]
  have mirrored := guarded (cursor.unread.length + 1) rounds
  exact (mirrored.mirrored_unrollTo (Nat.le_refl _) (Nat.le_refl _) argument settings cursor
    (Nat.lt_succ_self _)).run_eq enough

/-! ## Tokens that are consumed -/

/-- Every run of the parser consumes some of the tokens to come. -/
def OnlyConsumes (parser : Parser α) : Prop :=
  ∀ (settings : Settings) (cursor : Cursor),
    ∃ tokens, cursor.Consumes tokens (parser.run settings cursor).2

theorem InLockstep.onlyConsumes {noted : Event → Prop} {related : Token → α → α → Prop}
    {parser : Parser α} (lockstep : InLockstep noted related parser)
    (silent : ∀ event, noted event → event.token? = none) : OnlyConsumes parser :=
  fun settings cursor => (lockstep.moves settings cursor).exists_consumes silent

namespace OnlyConsumes

theorem advance : OnlyConsumes Parser.advance := by
  intro settings cursor
  cases unread : cursor.unread with
  | nil =>
      rw [run_advance_of_nil unread]
      exact ⟨[], .refl cursor⟩
  | cons token rest =>
      rw [run_advance_of_cons unread]
      exact ⟨[token], .step cursor unread⟩

theorem note {event : Event} (silent : event.token? = none) : OnlyConsumes (Parser.note event) :=
  fun _ cursor => ⟨[], .note cursor silent⟩

theorem pure (value : α) : OnlyConsumes (Pure.pure value) :=
  fun _ cursor => ⟨[], .refl cursor⟩

theorem bind {first : Parser α} {next : α → Parser β} (consumes : OnlyConsumes first)
    (rest : ∀ value, OnlyConsumes (next value)) : OnlyConsumes (first >>= next) := by
  intro settings cursor
  obtain ⟨tokens, before⟩ := consumes settings cursor
  cases ran : first.run settings cursor with
  | mk result middle =>
      rw [ran] at before
      cases result with
      | error fault =>
          rw [run_bind_of_error ran]
          exact ⟨tokens, before⟩
      | ok value =>
          obtain ⟨more, after⟩ := rest value settings middle
          rw [run_bind_of_ok ran]
          exact ⟨tokens ++ more, before.trans after⟩

theorem current {next : Token → Parser α} (rest : ∀ token, OnlyConsumes (next token)) :
    OnlyConsumes (Parser.current >>= next) :=
  fun settings cursor => rest cursor.current settings cursor

theorem settings {next : Settings → Parser α} (rest : ∀ given, OnlyConsumes (next given)) :
    OnlyConsumes (Parser.settings >>= next) :=
  fun given cursor => rest given given cursor

theorem skipComma : OnlyConsumes Parser.skipComma := by
  refine .current fun token => ?_
  split
  · exact advance.bind fun _ => .pure ()
  · exact .pure ()

end OnlyConsumes

theorem onlyConsumes_items (progress : Progress) : OnlyConsumes (recurse itemsStep progress) :=
  (inLockstep_items progress).onlyConsumes fun _ => Event.IsOfItems.token?_eq_none

theorem onlyConsumes_program : OnlyConsumes program :=
  OnlyConsumes.advance.bind fun _ => (onlyConsumes_items ⟨[], 0⟩).bind fun _ =>
    .settings fun _ => (OnlyConsumes.note rfl).bind fun _ => .pure _

theorem IsRule.onlyConsumes {parser : Parser α} (rule : parser.IsRule) : OnlyConsumes parser := by
  have silent : ∀ event : Event, event.IsOfRules → event.token? = none :=
    fun _ => Event.IsOfRules.token?_eq_none
  have nested := inLockstep_expression
  cases rule with
  | expression => exact nested.onlyConsumes silent
  | climb least lhs => exact (inLockstep_climb least lhs).onlyConsumes silent
  | primary => exact inLockstep_primary.onlyConsumes silent
  | number => exact Rule.inLockstep_number.onlyConsumes silent
  | identifier => exact (Rule.inLockstep_identifier nested).onlyConsumes silent
  | parenthesised => exact (Rule.inLockstep_parenthesised nested).onlyConsumes silent
  | returned => exact (Rule.inLockstep_returned nested).onlyConsumes silent
  | conditional => exact fun _ cursor => ⟨[], .refl cursor⟩
  | definition => exact (Rule.inLockstep_definition nested).onlyConsumes silent
  | parameter => exact Rule.inLockstep_parameter.onlyConsumes silent
  | returnType => exact Rule.inLockstep_returnType.onlyConsumes silent
  | topLevelExpression => exact inLockstep_topLevelExpression.onlyConsumes silent
  | program => exact onlyConsumes_program

/-! ## Rounds of a loop -/

/--
A round from a cursor, which is given the parser for the next rounds, ends without
running it, whether it returns or fails. Or it reads at least so many tokens, and
what is left for the next rounds to do after that is one of the continuations.
-/
inductive Round (continues : ((α → Parser β) → Parser β) → Prop) (least : Nat)
    (body : (α → Parser β) → Parser β) (settings : Settings) (cursor : Cursor) : Prop where
  | ends {result : Except Fault β} {stop : Cursor}
      (ran : ∀ again, (body again).run settings cursor = (result, stop))
  | goesOn {tokens : List Token} {later : Cursor} {next : (α → Parser β) → Parser β}
      (consumes : cursor.Consumes tokens later) (progress : least ≤ tokens.length)
      (continued : continues next)
      (ran : ∀ again, (body again).run settings cursor = (next again).run settings later)

namespace Round

variable {continues : ((α → Parser β) → Parser β) → Prop} {least : Nat} {settings : Settings}
  {cursor : Cursor}

theorem pure (value : β) : Round continues least (fun _ => Pure.pure value) settings cursor :=
  .ends fun _ => run_pure value settings cursor

theorem next {next : (α → Parser β) → Parser β} (continued : continues next) :
    Round continues 0 next settings cursor :=
  .goesOn (.refl cursor) (Nat.zero_le _) continued fun _ => rfl

theorem mono {few many : Nat} {body : (α → Parser β) → Parser β}
    (round : Round continues many body settings cursor) (fewer : few ≤ many) :
    Round continues few body settings cursor := by
  cases round with
  | ends ran => exact .ends ran
  | goesOn consumes progress continued ran =>
      exact .goesOn consumes (Nat.le_trans fewer progress) continued ran

theorem current {next : (α → Parser β) → Token → Parser β}
    (rest : Round continues least (fun again => next again cursor.current) settings cursor) :
    Round continues least (fun again => Parser.current >>= next again) settings cursor := by
  cases rest with
  | ends ran => exact .ends ran
  | goesOn consumes progress continued ran => exact .goesOn consumes progress continued ran

theorem hasTokens {next : (α → Parser β) → Bool → Parser β}
    (rest : Round continues least (fun again => next again cursor.hasTokens) settings cursor) :
    Round continues least (fun again => Parser.hasTokens >>= next again) settings cursor := by
  cases rest with
  | ends ran => exact .ends ran
  | goesOn consumes progress continued ran => exact .goesOn consumes progress continued ran

/-- A given result goes on only if it is no fault. -/
theorem ofExcept {result : Except Fault γ} {next : (α → Parser β) → γ → Parser β}
    (rest : ∀ value, Round continues least (fun again => next again value) settings cursor) :
    Round continues least (fun again => Parser.ofExcept result >>= next again) settings cursor := by
  cases result with
  | error fault => exact .ends fun again => run_bind_of_error (run_ofExcept _ settings cursor)
  | ok value =>
      cases rest value with
      | ends ran => exact .ends ran
      | goesOn consumes progress continued ran => exact .goesOn consumes progress continued ran

/-- What the first part of a round reads need not be read in the rest of it. -/
theorem bind {first : Parser γ} {next : (α → Parser β) → γ → Parser β}
    (only : OnlyConsumes first)
    (rest : ∀ value middle tokens, first.run settings cursor = (.ok value, middle) →
      cursor.Consumes tokens middle →
      Round continues (least - tokens.length) (fun again => next again value) settings middle) :
    Round continues least (fun again => first >>= next again) settings cursor := by
  obtain ⟨tokens, before⟩ := only settings cursor
  cases start : first.run settings cursor with
  | mk result middle =>
      rw [start] at before
      cases result with
      | error fault => exact .ends fun again => run_bind_of_error start
      | ok value =>
          cases rest value middle tokens start before with
          | ends ran => exact .ends fun again => (run_bind_of_ok start).trans (ran again)
          | @goesOn more _ _ after progress continued ran =>
              refine .goesOn (before.trans after) ?_ continued
                fun again => (run_bind_of_ok start).trans (ran again)
              rw [List.length_append]
              omega

theorem bind_of_reads {first : Parser γ} {next : (α → Parser β) → γ → Parser β}
    (only : OnlyConsumes first) (reads : ReadsOn first)
    (rest : ∀ value middle,
      Round continues least (fun again => next again value) settings middle) :
    Round continues (least + 1) (fun again => first >>= next again) settings cursor := by
  refine .bind only fun value middle tokens ran consumes => (rest value middle).mono ?_
  have read := consumes.length_pos (reads settings cursor value middle ran)
  omega

theorem note {event : Event} {next : (α → Parser β) → Unit → Parser β}
    (silent : event.token? = none)
    (rest : ∀ middle, Round continues least (fun again => next again ()) settings middle) :
    Round continues least (fun again => Parser.note event >>= next again) settings cursor :=
  .bind (.note silent) fun _ middle _ _ _ => (rest middle).mono (Nat.sub_le _ _)

end Round

/-! ## Loops -/

/-- Only the next round is left to do. -/
inductive CallsAgain : ((α → Parser β) → Parser β) → Prop where
  | again (argument : α) : CallsAgain fun again => again argument

/-- Every round of the loop that neither returns nor fails reads at least one token. -/
def IsLoop (step : (α → Parser β) → α → Parser β) : Prop :=
  ∀ (argument : α) (settings : Settings) (cursor : Cursor),
    Round CallsAgain 1 (fun again => step again argument) settings cursor

theorem isLoop_parametersStep : IsLoop Rule.parametersStep := by
  refine fun done settings cursor => .current ?_
  by_cases closed : cursor.current.kind = .rightParen
  · simp only [if_pos closed]
    exact .pure _
  · simp only [if_neg closed]
    exact .bind_of_reads IsRule.parameter.onlyConsumes Rule.readsOn_parameter
      fun _ _ => .next (.again _)

theorem readsOn_argument : ReadsOn (Rule.argument expression) := by
  refine readsOn_expectOr.bind fun _ _ => (mirrored_expectOr (by decide)).bind fun _ =>
    mirrored_expression.bind fun node? => ?_
  cases node? with
  | none => exact mirrored_unexpected _
  | some node => exact .pure _

theorem isLoop_argumentsStep : IsLoop (Rule.argumentsStep expression) := by
  have argument : OnlyConsumes (Rule.argument expression) :=
    (Rule.inLockstep_argument inLockstep_expression).onlyConsumes
      fun _ => Event.IsOfRules.token?_eq_none
  refine fun done settings cursor => .current ?_
  by_cases closed : cursor.current.kind = .rightParen
  · simp only [if_pos closed]
    exact .pure _
  · simp only [if_neg closed]
    refine .bind .skipComma fun _ middle tokens _ _ => Round.mono ?_ (Nat.sub_le _ _)
    exact .bind_of_reads argument readsOn_argument fun _ _ => .next (.again _)

theorem isLoop_itemsStep : IsLoop itemsStep := by
  intro progress settings cursor
  apply Round.current
  cases cursor.current.kind with
  | endOfInput => exact .pure _
  | funcWord =>
      exact .bind_of_reads IsRule.definition.onlyConsumes readsOn_definition
        fun item _ => .note rfl fun _ => .next (CallsAgain.again _)
  | _ =>
      refine .bind IsRule.topLevelExpression.onlyConsumes fun item? middle tokens ran consumes => ?_
      cases item? with
      | some item =>
          have read := consumes.length_pos (unread_lt_of_topLevelExpression ran)
          rw [Nat.sub_eq_zero_of_le read]
          exact .note rfl fun _ => .next (CallsAgain.again _)
      | none =>
          -- nothing is missing but at the end of the input, so no token is passed over
          have missing := inLockstep_topLevelExpression.missesOnlyAtEnd _ _ _ ran
          have atEnd : middle.hasTokens = false := by simp [Cursor.hasTokens, missing]
          apply Round.hasTokens
          simp only [atEnd]
          exact .pure _

/-! ## Climbing -/

/--
A round of climbing leaves it to the next one to go on with a larger operand on the
left, or first to climb within the right operand from a strictly larger precedence.
-/
inductive ClimbsOn (least : Int) (lhs : Node) :
    ((Int × Node → Parser (Option Node)) → Parser (Option Node)) → Prop where
  | further (operator : Operator) (rhs : Node) :
      ClimbsOn least lhs fun again => again (least, .binary operator lhs rhs)
  | within (operator : Operator) (rhs : Node) {tighter : Int} (larger : least < tighter) :
      ClimbsOn least lhs fun again => do
        match ← again (tighter, rhs) with
        | none => return none
        | some rhs => again (least, .binary operator lhs rhs)

/-- Every round of climbing that neither returns nor fails reads at least two tokens. -/
theorem round_climbStep (least : Int) (lhs : Node) (settings : Settings) (cursor : Cursor) :
    Round (ClimbsOn least lhs) 2 (fun again => Rule.climbStep primary again (least, lhs))
      settings cursor := by
  refine .current (.ofExcept fun precedence => ?_)
  by_cases looser : precedence < least
  · simp only [if_pos looser]
    exact .pure _
  simp only [if_neg looser]
  cases cursor.current.operator? with
  | none => exact .pure _
  | some operator =>
      refine .bind_of_reads .advance readsOn_advance fun _ later => ?_
      refine .bind IsRule.primary.onlyConsumes fun rhs? middle tokens ran consumes => ?_
      cases rhs? with
      | none => exact .pure _
      | some rhs =>
          have read := consumes.length_pos (unread_lt_of_primary ran)
          rw [Nat.sub_eq_zero_of_le read]
          refine .current (.ofExcept fun tighter => ?_)
          by_cases yields : precedence < tighter
          · simp only [if_pos yields]
            refine .note rfl fun _ => .next (.within operator rhs ?_)
            omega
          · simp only [if_neg yields]
            exact .next (.further operator rhs)

/-! ## All rules -/

/--
Whatever the tokens, the place, the nesting and its limit are, all recursions come to
their ends, and a rule reads at most the tokens to come. A round of gathering items,
arguments or parameters that goes on has read a token. A round of climbing that goes
on has read two, also before it climbs within the right operand, from a strictly
larger precedence. And the parser for nested expressions is run only at cursors with
fewer tokens to come than where the expression around them starts, since nothing
depends on what it would do at others.
-/
theorem rules_terminate :
    (Terminates Rule.expressionStep ∧ Terminates (Rule.climbStep primary) ∧
      Terminates (Rule.argumentsStep expression) ∧ Terminates Rule.parametersStep ∧
      Terminates itemsStep) ∧
    (∀ {α : Type} (parser : Parser α), parser.IsRule → ∀ (settings : Settings) (cursor : Cursor),
      ∃ tokens, cursor.Consumes tokens (parser.run settings cursor).2 ∧
        tokens.length ≤ cursor.unread.length) ∧
    IsLoop itemsStep ∧ IsLoop (Rule.argumentsStep expression) ∧ IsLoop Rule.parametersStep ∧
    (∀ least lhs settings cursor, Round (ClimbsOn least lhs) 2
      (fun again => Rule.climbStep primary again (least, lhs)) settings cursor) ∧
    ∀ (other : Parser (Option Node)) (settings : Settings) (cursor : Cursor),
      (∀ given later, later.unread.length < cursor.unread.length →
        other.run given later = expression.run given later) →
      (Rule.expressionStep (fun _ => other) ()).run settings cursor =
        expression.run settings cursor := by
  refine ⟨⟨?_, ?_, ?_, ?_, ?_⟩, ?_, isLoop_itemsStep, isLoop_argumentsStep, isLoop_parametersStep,
    round_climbStep, fun other settings cursor => run_expressionStep_of_agree⟩
  · exact .of_guarded fun _ _ => Rule.guarded_expressionStep
  · exact .of_guarded fun _ _ => Rule.guarded_climbStep mirrored_primary
  · exact .of_guarded fun _ _ => Rule.guarded_argumentsStep mirrored_expression
  · exact .of_guarded fun _ _ => Rule.guarded_parametersStep
  · exact .of_guarded fun _ _ => guarded_itemsStep
  · intro α parser rule settings cursor
    obtain ⟨tokens, consumes⟩ := rule.onlyConsumes settings cursor
    refine ⟨tokens, consumes, ?_⟩
    rw [consumes.length_eq]
    exact Nat.le_add_right _ _

/-- A name in parentheses is found by a parser that reads nothing with three tokens to come. -/
theorem run_expressionStep_parenthesised :
    let near : Parser (Option Node) := ⟨fun settings cursor =>
      if cursor.unread.length < 3 then expression.run settings cursor else (.ok none, cursor)⟩
    ((Rule.expressionStep (fun _ => near) ()).run ⟨"", 2⟩ ⟨.sample .leftParen,
      [.sample .identifier, .sample .rightParen, .sample .endOfInput], 0, []⟩).1 =
        .ok (some (.variable (Token.sample .identifier).value)) := by
  intro near
  have same := rules_terminate.2.2.2.2.2.2 near ⟨"", 2⟩ ⟨.sample .leftParen,
    [.sample .identifier, .sample .rightParen, .sample .endOfInput], 0, []⟩
    fun given later fewer => if_pos fewer
  rw [same]
  rfl

end ExprLang.Parser
