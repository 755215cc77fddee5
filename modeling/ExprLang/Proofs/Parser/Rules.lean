import ExprLang.Parser.Program
import ExprLang.Proofs.Parser.Mirror

/-!
# Mirrored rules

Every rule of the language mirrors itself, and a rule that takes the parser for
nested expressions as an argument is mirrored when this parser is. Since each
rule reads a token before it comes to a nested expression, all recursions are
guarded and hence fixed points of their steps.
-/

namespace ExprLang

theorem Token.kind_ne_endOfInput_of_operator? {token : Token} {operator : Operator}
    (denoted : token.operator? = some operator) : token.kind ≠ .endOfInput := by
  unfold Token.operator? at denoted
  split at denoted
  · next kind =>
      rw [kind]
      decide
  · cases denoted

namespace Parser

variable {α β : Type} {ahead bound : Nat}

/-! ## Parsers that read on -/

theorem ReadsOn.bind {first : Parser α} {next : α → Parser β} (reads : ReadsOn first)
    (rest : ∀ value ahead, Mirrored ahead 0 (next value) (next value)) :
    ReadsOn (first >>= next) := by
  intro settings cursor value stop ran
  cases start : first.run settings cursor with
  | mk result middle =>
      cases result with
      | error fault =>
          rw [run_bind_of_error start] at ran
          cases ran
      | ok given =>
          rw [run_bind_of_ok start] at ran
          have shorter := (rest given _ settings middle (Nat.lt_succ_self _)).unread_length_le
          rw [ran] at shorter
          exact Nat.lt_of_le_of_lt shorter (reads settings cursor given middle start)

theorem ReadsOn.current {next : Token → Parser α} (rest : ∀ token, ReadsOn (next token)) :
    ReadsOn (Parser.current >>= next) :=
  fun settings cursor => rest cursor.current settings cursor

theorem readsOn_fail (fault : Fault) : ReadsOn (fail fault : Parser α) := by
  intro settings cursor value stop ran
  cases ran

theorem readsOn_expectOr {kind : TokenKind} {blame : Token → Fault} :
    ReadsOn (expectOr kind blame) := by
  refine .current fun token => ?_
  split
  · exact readsOn_advance.bind fun _ _ => .pure _
  · exact readsOn_fail _

theorem mirrored_expectOr_bind {kind : TokenKind} {blame : Token → Fault}
    {next next' : Token → Parser α} (word : kind ≠ .endOfInput)
    (rest : ∀ token, Mirrored ahead bound (next token) (next' token)) :
    Mirrored (ahead + 1) (bound + 1) (expectOr kind blame >>= next)
      (expectOr kind blame >>= next') :=
  (mirrored_expectOr word).bind_of_reads readsOn_expectOr rest

theorem Mirrored.map {first second : Parser α} (mirrored : Mirrored ahead bound first second)
    (change : α → β) :
    Mirrored ahead bound (do return change (← first)) (do return change (← second)) :=
  mirrored.bind fun _ => .pure _

namespace Rule

/-! ## Rules without nested expressions -/

theorem mirrored_returnType : Mirrored ahead bound returnType returnType := by
  refine (mirrored_expectOr (by decide)).bind fun token => ?_
  dsimp only
  split
  · exact (Mirrored.note _).bind fun _ => .pure _
  · exact .pure _

theorem mirrored_parameter : Mirrored ahead bound parameter parameter :=
  (mirrored_expectOr (by decide)).bind fun _ =>
    (mirrored_expectOr (by decide)).bind fun _ =>
      (mirrored_expectOr (by decide)).bind fun _ =>
        mirrored_skipComma.bind fun _ => .pure _

theorem readsOn_parameter : ReadsOn parameter :=
  readsOn_expectOr.bind fun _ _ =>
    (mirrored_expectOr (by decide)).bind fun _ =>
      (mirrored_expectOr (by decide)).bind fun _ =>
        mirrored_skipComma.bind fun _ => .pure _

theorem guarded_parametersStep : Guarded ahead bound parametersStep parametersStep := by
  intro near few again again' _ _ mirrored done
  refine .current fun token => ?_
  split
  · exact .pure _
  · exact mirrored_parameter.bind_of_reads readsOn_parameter fun _ => mirrored _

theorem mirrored_parameters : Mirrored ahead bound parameters parameters :=
  guarded_parametersStep.mirrored_recurse []

theorem isNumber_iff (token : Token) :
    token.isNumber = true ↔ token.kind = .integerLiteral ∨ token.kind = .floatingLiteral := by
  simp [Token.isNumber]

theorem mirrored_number : Mirrored ahead bound number number := by
  intro settings cursor _
  refine .current ?_
  split
  · next isNumber =>
      split
      · exact .of_still rfl fun _ _ _ _ => rfl
      · have unfinished : cursor.current.kind ≠ .endOfInput := by
          rcases (isNumber_iff _).mp isNumber with kind | kind <;> rw [kind] <;> decide
        exact (MirroredAt.advance unfinished).bind fun _ _ _ => .of_still rfl fun _ _ _ _ => rfl
  · exact mirrored_unexpected _ settings cursor (Nat.lt_succ_self _)

theorem mirrored_conditional : Mirrored ahead bound conditional conditional :=
  .current fun _ => .fail _

/-! ## Rules with nested expressions -/

section Nested

variable {expression expression' : Parser (Option Node)}

theorem mirrored_body (mirrored : Mirrored ahead bound expression expression') :
    Mirrored ahead bound (body expression) (body expression') := by
  refine (mirrored_expectOr (by decide)).bind fun _ => mirrored.bind fun node? => ?_
  cases node? with
  | none => exact mirrored_unexpected _
  | some node => exact (mirrored_expectOr (by decide)).bind fun _ => .pure _

theorem mirrored_definition (mirrored : Mirrored ahead bound expression expression') :
    Mirrored (ahead + 1) (bound + 1) (definition expression) (definition expression') :=
  mirrored_expectOr_bind (by decide) fun _ =>
    (mirrored_expectOr (by decide)).bind fun _ =>
      (mirrored_expectOr (by decide)).bind fun _ =>
        mirrored_parameters.bind fun _ =>
          (mirrored_expectOr (by decide)).bind fun _ =>
            (mirrored_expectOr (by decide)).bind fun _ =>
              mirrored_returnType.bind fun _ =>
                (mirrored_body mirrored).bind fun _ =>
                  (Mirrored.note _).bind fun _ => .pure _

theorem mirrored_argument_bind {next next' : String × Node → Parser α}
    (mirrored : Mirrored ahead bound expression expression')
    (rest : ∀ argument, Mirrored ahead bound (next argument) (next' argument)) :
    Mirrored (ahead + 1) (bound + 1) (argument expression >>= next)
      (argument expression' >>= next') := by
  rw [argument, argument, bind_assoc, bind_assoc]
  refine mirrored_expectOr_bind (by decide) fun _ => ?_
  refine .bind ?_ rest
  refine (mirrored_expectOr (by decide)).bind fun _ => mirrored.bind fun node? => ?_
  cases node? with
  | none => exact mirrored_unexpected _
  | some node => exact .pure _

theorem guarded_argumentsStep (mirrored : Mirrored ahead bound expression expression') :
    Guarded ahead bound (argumentsStep expression) (argumentsStep expression') := by
  intro near few again again' nearer fewer call done
  refine .current fun token => ?_
  split
  · exact .pure _
  · exact mirrored_skipComma.bind fun _ =>
      mirrored_argument_bind (mirrored.weaken (Nat.le_of_lt nearer) fewer) fun _ => call _

theorem mirrored_arguments (mirrored : Mirrored ahead bound expression expression') :
    Mirrored ahead bound (arguments expression) (arguments expression') :=
  (guarded_argumentsStep mirrored).mirrored_recurse []

/-- Looking one token ahead of a name is the same as looking at the token after it. -/
theorem identifier_eq (expression : Parser (Option Node)) :
    identifier expression = (do
      let token ← current
      if token.kind = .identifier then
        let name ← expect .identifier
        let next ← current
        if next.kind = .leftParen then
          let _ ← expect .leftParen
          let arguments ← arguments expression
          let _ ← expect .rightParen
          return .call name.value arguments
        else return .variable name.value
      else unexpected "expected an identifier") := by
  refine ext fun settings cursor => ?_
  rw [identifier, run_bind, run_bind, run_current]
  dsimp only
  split
  · next named =>
      cases unread : cursor.unread with
      | nil =>
          have peeked : (peek 0).run settings cursor = (.error cursor.pastEnd, cursor) := by
            rw [run_peek, Cursor.peek, unread]
            rfl
          have expected : (expect .identifier).run settings cursor =
              (.error cursor.pastEnd, cursor) := by
            rw [expect, expectOr, run_bind_of_ok (run_current settings cursor), if_pos named,
              run_bind_of_error (run_advance_of_nil unread)]
          rw [run_bind_of_error peeked, run_bind_of_error expected]
      | cons token rest =>
          have peeked : (peek 0).run settings cursor = (.ok token, cursor) := by
            rw [run_peek, Cursor.peek, unread]
            rfl
          have expected : (expect .identifier).run settings cursor =
              (.ok cursor.current, cursor.step token rest) := by
            rw [expect, expectOr, run_bind_of_ok (run_current settings cursor), if_pos named,
              run_bind_of_ok (run_advance_of_cons unread)]
            rfl
          rw [run_bind_of_ok peeked, run_bind_of_ok expected, run_bind_of_ok expected]
          rfl
  · rfl

theorem mirrored_identifier (mirrored : Mirrored ahead bound expression expression') :
    Mirrored (ahead + 1) (bound + 1) (identifier expression) (identifier expression') := by
  rw [identifier_eq, identifier_eq]
  refine .current fun token => ?_
  split
  · refine mirrored_expectOr_bind (by decide) fun name => .current fun next => ?_
    split
    · exact (mirrored_expectOr (by decide)).bind fun _ =>
        (mirrored_arguments mirrored).bind fun _ =>
          (mirrored_expectOr (by decide)).bind fun _ => .pure _
    · exact .pure _
  · exact mirrored_unexpected _

theorem mirrored_parenthesised (mirrored : Mirrored ahead bound expression expression') :
    Mirrored (ahead + 1) (bound + 1) (parenthesised expression) (parenthesised expression') := by
  refine mirrored_expectOr_bind (by decide) fun _ => mirrored.bind fun node? => ?_
  cases node? with
  | none => exact .pure _
  | some node => exact (mirrored_expectOr (by decide)).bind fun _ => .pure _

theorem mirrored_returned (mirrored : Mirrored ahead bound expression expression') :
    Mirrored (ahead + 1) (bound + 1) (returned expression) (returned expression') := by
  refine mirrored_expectOr_bind (by decide) fun _ => .current fun token => ?_
  split
  · refine mirrored.bind fun node? => ?_
    cases node? with
    | none => exact .pure _
    | some node => exact .pure _
  · exact .pure _

theorem mirrored_primary (mirrored : Mirrored ahead bound expression expression') :
    Mirrored (ahead + 1) (bound + 1) (primary expression) (primary expression') := by
  refine .current fun token => ?_
  split
  · exact (mirrored_identifier mirrored).map some
  · exact mirrored_number.map some
  · exact mirrored_number.map some
  · exact mirrored_parenthesised mirrored
  · exact (mirrored_definition mirrored).map some
  · exact (mirrored_returned mirrored).map some
  · exact mirrored_conditional.map some
  · exact .pure _
  · exact .fail _

theorem guarded_climbStep {operand operand' : Parser (Option Node)}
    (mirrored : Mirrored ahead bound operand operand') :
    Guarded ahead bound (climbStep operand) (climbStep operand') := by
  rintro near few again again' nearer fewer call ⟨least, lhs⟩ settings cursor short
  refine .current (.ofExcept fun precedence _ => ?_)
  split
  · exact .of_still rfl fun _ _ _ _ => rfl
  · split
    · exact .of_still rfl fun _ _ _ _ => rfl
    · next operator denoted =>
        refine .advance_bind (Token.kind_ne_endOfInput_of_operator? denoted) short fun _ => ?_
        refine (mirrored.weaken (Nat.le_of_lt nearer) fewer).bind fun node? => ?_
        cases node? with
        | none => exact .pure _
        | some rhs =>
            refine .current fun follower => (Mirrored.ofExcept _).bind fun tighter => ?_
            split
            · refine (Mirrored.note _).bind fun _ => (call _).bind fun node? => ?_
              cases node? with
              | none => exact .pure _
              | some rhs => exact call _
            · exact call _

theorem mirrored_climb {operand operand' : Parser (Option Node)}
    (mirrored : Mirrored ahead bound operand operand') (least : Int) (lhs : Node) :
    Mirrored ahead bound (climb operand least lhs) (climb operand' least lhs) :=
  (guarded_climbStep mirrored).mirrored_recurse (least, lhs)

end Nested

theorem guarded_expressionStep : Guarded ahead bound expressionStep expressionStep := by
  intro near few again again' _ _ call _
  refine .nested ((mirrored_primary (call ())).bind fun node? => ?_)
  cases node? with
  | none => exact .pure _
  | some lhs => exact mirrored_climb (mirrored_primary (call ())) 0 lhs

end Rule

/-! ## Closed rules -/

theorem mirrored_expression : Mirrored ahead bound expression expression :=
  Rule.guarded_expressionStep.mirrored_recurse ()

theorem mirrored_definition : Mirrored ahead bound definition definition :=
  (Rule.mirrored_definition mirrored_expression).weaken (Nat.le_succ _) (Nat.le_succ _)

theorem mirrored_primary : Mirrored ahead bound primary primary :=
  (Rule.mirrored_primary mirrored_expression).weaken (Nat.le_succ _) (Nat.le_succ _)

theorem expression_eq :
    expression = nested (do
      match ← primary with
      | none => return none
      | some lhs => climb 0 lhs) :=
  recurse_eq (fun _ _ => Rule.guarded_expressionStep) ()

theorem climb_eq (least : Int) (lhs : Node) :
    climb least lhs = Rule.climbStep primary (fun argument => climb argument.1 argument.2)
      (least, lhs) :=
  recurse_eq (fun _ _ => Rule.guarded_climbStep mirrored_primary) (least, lhs)

theorem parameters_eq (done : List Parameter) :
    recurse Rule.parametersStep done = Rule.parametersStep (recurse Rule.parametersStep) done :=
  recurse_eq (fun _ _ => Rule.guarded_parametersStep) done

theorem arguments_eq (done : List (String × Node)) :
    recurse (Rule.argumentsStep expression) done =
      Rule.argumentsStep expression (recurse (Rule.argumentsStep expression)) done :=
  recurse_eq (fun _ _ => Rule.guarded_argumentsStep mirrored_expression) done

/-! ## Items -/

theorem readsOn_definition : ReadsOn definition :=
  readsOn_expectOr.bind fun _ _ =>
    (mirrored_expectOr (by decide)).bind fun _ =>
      (mirrored_expectOr (by decide)).bind fun _ =>
        Rule.mirrored_parameters.bind fun _ =>
          (mirrored_expectOr (by decide)).bind fun _ =>
            (mirrored_expectOr (by decide)).bind fun _ =>
              Rule.mirrored_returnType.bind fun _ =>
                (Rule.mirrored_body mirrored_expression).bind fun _ =>
                  (Mirrored.note _).bind fun _ => .pure _

theorem readsOn_identifier : ReadsOn identifier := by
  rw [identifier, Rule.identifier_eq]
  refine .current fun token => ?_
  split
  · refine readsOn_expectOr.bind fun name _ => .current fun next => ?_
    split
    · exact (mirrored_expectOr (by decide)).bind fun _ =>
        (Rule.mirrored_arguments mirrored_expression).bind fun _ =>
          (mirrored_expectOr (by decide)).bind fun _ => .pure _
    · exact .pure _
  · exact .current fun _ => readsOn_fail _

theorem readsOn_number : ReadsOn number := by
  refine .current fun token => ?_
  split
  · split
    · exact readsOn_fail _
    · exact readsOn_advance.bind fun _ _ => .pure _
  · exact .current fun _ => readsOn_fail _

theorem readsOn_parenthesised : ReadsOn parenthesised := by
  refine readsOn_expectOr.bind fun _ _ => mirrored_expression.bind fun node? => ?_
  cases node? with
  | none => exact .pure _
  | some node => exact (mirrored_expectOr (by decide)).bind fun _ => .pure _

theorem readsOn_returned : ReadsOn returned := by
  refine readsOn_expectOr.bind fun _ _ => .current fun token => ?_
  split
  · refine mirrored_expression.bind fun node? => ?_
    cases node? with
    | none => exact .pure _
    | some node => exact .pure _
  · exact .pure _

/-- An operand has at least one token. -/
theorem unread_lt_of_primary {settings : Settings} {cursor stop : Cursor} {node : Node}
    (ran : primary.run settings cursor = (.ok (some node), stop)) :
    stop.unread.length < cursor.unread.length := by
  rw [primary, Rule.primary, run_bind_of_ok (run_current settings cursor)] at ran
  split at ran
  · exact (readsOn_identifier.bind fun _ _ => .pure _) _ _ _ _ ran
  · exact (readsOn_number.bind fun _ _ => .pure _) _ _ _ _ ran
  · exact (readsOn_number.bind fun _ _ => .pure _) _ _ _ _ ran
  · exact readsOn_parenthesised _ _ _ _ ran
  · exact (readsOn_definition.bind fun _ _ => .pure _) _ _ _ _ ran
  · exact (readsOn_returned.bind fun _ _ => .pure _) _ _ _ _ ran
  · cases ran
  · cases ran
  · cases ran

theorem unread_lt_of_expression {settings : Settings} {cursor stop : Cursor} {node : Node}
    (ran : expression.run settings cursor = (.ok (some node), stop)) :
    stop.unread.length < cursor.unread.length := by
  rw [expression_eq, run_nested] at ran
  split at ran
  · cases ran
  · simp only [Prod.mk.injEq] at ran
    obtain ⟨result, rfl⟩ := ran
    cases first : primary.run settings { cursor with depth := cursor.depth + 1 } with
    | mk outcome middle =>
        cases outcome with
        | error fault =>
            rw [run_bind_of_error first] at result
            cases result
        | ok node? =>
            rw [run_bind_of_ok first] at result ⊢
            cases node? with
            | none => cases result
            | some lhs =>
                have operand := unread_lt_of_primary first
                have chain : Mirrored (middle.unread.length + 1) 0 (climb 0 lhs) (climb 0 lhs) :=
                  Rule.mirrored_climb mirrored_primary 0 lhs
                exact Nat.lt_of_le_of_lt
                  (chain settings middle (Nat.lt_succ_self _)).unread_length_le operand

theorem mirrored_topLevelExpression :
    Mirrored ahead bound topLevelExpression topLevelExpression := by
  refine mirrored_expression.bind fun node? => ?_
  cases node? with
  | none => exact .pure _
  | some body => exact .pure _

theorem unread_lt_of_topLevelExpression {settings : Settings} {cursor stop : Cursor} {node : Node}
    (ran : topLevelExpression.run settings cursor = (.ok (some node), stop)) :
    stop.unread.length < cursor.unread.length := by
  rw [topLevelExpression] at ran
  cases inner : expression.run settings cursor with
  | mk outcome middle =>
      cases outcome with
      | error fault =>
          rw [run_bind_of_error inner] at ran
          cases ran
      | ok node? =>
          rw [run_bind_of_ok inner] at ran
          cases node? with
          | none => cases ran
          | some body =>
              cases ran
              exact unread_lt_of_expression inner

theorem guarded_itemsStep : Guarded ahead bound itemsStep itemsStep := by
  intro near few again again' _ _ call progress settings cursor short
  refine .current ?_
  split
  · exact .of_still rfl fun _ _ _ _ => rfl
  · exact mirrored_definition.bind_of_reads readsOn_definition
      (fun item => (Mirrored.note _).bind fun _ => call _) settings cursor short
  · next unfinished _ =>
      refine (mirrored_topLevelExpression settings cursor short).bind fun node? middle ran => ?_
      cases node? with
      | some item =>
          have shorter := unread_lt_of_topLevelExpression ran
          exact (((Mirrored.note _).bind fun _ => call _) settings middle (by omega)).weaken
            (by omega)
      | none =>
          have shorter := (mirrored_topLevelExpression.weaken (Nat.le_refl _) (Nat.zero_le bound)
            settings cursor short).unread_length_le
          rw [ran] at shorter
          refine MirroredAt.weaken (.hasTokens ?_) (Nat.sub_le _ _)
          split
          · next more =>
              have unfinished : middle.current.kind ≠ .endOfInput := by
                simpa [Cursor.hasTokens] using more
              refine .settings (fun other file => by rw [file]) (.current ?_)
              refine (Mirrored.note _ settings middle (Nat.lt_succ_self _)).bind
                fun _ noted done => ?_
              cases done
              refine MirroredAt.weaken ?_ (Nat.sub_le _ _)
              exact .advance_bind unfinished (Nat.lt_of_le_of_lt shorter short) fun _ => call _
          · exact .of_still rfl fun _ _ _ _ => rfl

theorem items_eq (progress : Progress) :
    recurse itemsStep progress = itemsStep (recurse itemsStep) progress :=
  recurse_eq (fun _ _ => guarded_itemsStep) progress

section Items

variable {settings : Settings} {cursor middle : Cursor} {progress : Progress}

theorem run_items_of_endOfInput (ended : cursor.current.kind = .endOfInput) :
    (recurse itemsStep progress).run settings cursor = (.ok progress, cursor) := by
  rw [items_eq, itemsStep, run_bind_of_ok (run_current settings cursor)]
  simp only [ended]
  rfl

theorem run_items_of_definition {item : Node} (defines : cursor.current.kind = .funcWord)
    (ran : definition.run settings cursor = (.ok item, middle)) :
    (recurse itemsStep progress).run settings cursor =
      (recurse itemsStep (progress.add item)).run settings (middle.note (.parsedItem item)) := by
  rw [items_eq, itemsStep, run_bind_of_ok (run_current settings cursor)]
  simp only [defines]
  rw [run_bind_of_ok ran, run_bind_of_ok (run_note _ settings middle)]

theorem run_topLevelExpression_of_ok {body? : Option Node}
    (ran : expression.run settings cursor = (.ok body?, middle)) :
    topLevelExpression.run settings cursor = (.ok (body?.map .entryPoint), middle) := by
  rw [topLevelExpression, run_bind_of_ok ran]
  cases body? <;> rfl

/-- Other items than definitions are expressions, and at most the last one is missing. -/
theorem run_items_of_expression {body : Node} (unfinished : cursor.current.kind ≠ .endOfInput)
    (plain : cursor.current.kind ≠ .funcWord)
    (ran : expression.run settings cursor = (.ok (some body), middle)) :
    (recurse itemsStep progress).run settings cursor =
      (recurse itemsStep (progress.add (.entryPoint body))).run settings
        (middle.note (.parsedItem (.entryPoint body))) := by
  have item : topLevelExpression.run settings cursor = (.ok (some (.entryPoint body)), middle) :=
    run_topLevelExpression_of_ok ran
  rw [items_eq, itemsStep, run_bind_of_ok (run_current settings cursor)]
  split
  · contradiction
  · contradiction
  · rw [run_bind_of_ok item, run_bind_of_ok (run_note _ settings middle)]

/-- An expression that the end of the input cuts off is no item, and the items end there. -/
theorem run_items_of_missing (unfinished : cursor.current.kind ≠ .endOfInput)
    (plain : cursor.current.kind ≠ .funcWord)
    (ran : expression.run settings cursor = (.ok none, middle))
    (ended : middle.current.kind = .endOfInput) :
    (recurse itemsStep progress).run settings cursor = (.ok progress, middle) := by
  have item : topLevelExpression.run settings cursor = (.ok none, middle) :=
    run_topLevelExpression_of_ok ran
  have atEnd : middle.hasTokens = false := by simp [Cursor.hasTokens, ended]
  rw [items_eq, itemsStep, run_bind_of_ok (run_current settings cursor)]
  split
  · contradiction
  · contradiction
  · rw [run_bind_of_ok item]
    dsimp only
    rw [run_bind_of_ok (run_hasTokens settings middle), atEnd]
    rfl

theorem run_items_of_definition_error {fault : Fault} (defines : cursor.current.kind = .funcWord)
    (ran : definition.run settings cursor = (.error fault, middle)) :
    (recurse itemsStep progress).run settings cursor = (.error fault, middle) := by
  rw [items_eq, itemsStep, run_bind_of_ok (run_current settings cursor)]
  simp only [defines]
  rw [run_bind_of_error ran]

theorem run_items_of_expression_error {fault : Fault}
    (unfinished : cursor.current.kind ≠ .endOfInput) (plain : cursor.current.kind ≠ .funcWord)
    (ran : expression.run settings cursor = (.error fault, middle)) :
    (recurse itemsStep progress).run settings cursor = (.error fault, middle) := by
  have item : topLevelExpression.run settings cursor = (.error fault, middle) := by
    rw [topLevelExpression, run_bind_of_error ran]
  rw [items_eq, itemsStep, run_bind_of_ok (run_current settings cursor)]
  split
  · contradiction
  · contradiction
  · rw [run_bind_of_error item]

end Items

end Parser

/-! ## Whole streams -/

namespace Cursor

/-- The cursor after the first token of a stream is read. -/
def start (first : Token) (rest : List Token) : Cursor :=
  ⟨first, rest, 0, [.read first]⟩

theorem ofTokens_append_singleton {tokens : List Token} {closing : Token} (file : String)
    (ends : closing.kind = .endOfInput) :
    ∃ first rest, tokens ++ [closing] = first :: rest ∧
      ofTokens file (tokens ++ [closing]) = .ok ⟨first, first :: rest, 0, []⟩ := by
  cases tokens with
  | nil => exact ⟨closing, [], rfl, if_pos ends⟩
  | cons first rest =>
      have last : (rest ++ [closing]).getLastD first = closing := by
        simp [List.getLastD_eq_getLast?]
      exact ⟨first, rest ++ [closing], rfl, if_pos (by rw [← ends]; exact congrArg _ last)⟩

/-- A cursor is made only for a stream that closes with the end of the input. -/
theorem exists_of_ofTokens {file : String} {tokens : List Token} {cursor : Cursor}
    (made : ofTokens file tokens = .ok cursor) :
    ∃ first rest, tokens = first :: rest ∧ cursor = ⟨first, first :: rest, 0, []⟩ ∧
      (rest.getLastD first).kind = .endOfInput := by
  cases tokens with
  | nil => cases made
  | cons first rest =>
      unfold ofTokens at made
      dsimp only at made
      split at made
      · next ends =>
          cases made
          exact ⟨first, rest, rfl, rfl, ends⟩
      · cases made

end Cursor

/-- What becomes of the items read so far when the parser is done with them. -/
theorem Parser.run_program (settings : Settings) (first : Token) (rest : List Token) :
    program.run settings ⟨first, first :: rest, 0, []⟩ =
      match (recurse itemsStep ⟨[], 0⟩).run settings (.start first rest) with
      | (.ok progress, stop) =>
          (.ok progress.items.reverse,
            stop.note (.parsed settings.file progress.items.length progress.skipped))
      | (.error fault, stop) => (.error fault, stop) := by
  have read : advance.run settings ⟨first, first :: rest, 0, []⟩ =
      (.ok first, .start first rest) := rfl
  rw [program, run_bind_of_ok read, run_bind]
  cases (recurse itemsStep ⟨[], 0⟩).run settings (.start first rest) with
  | mk result stop => cases result <;> rfl

/-- A program fails where its items do, and otherwise ends after them with a summary. -/
theorem Parser.run_program_cases {settings : Settings} {first : Token} {rest : List Token}
    {result : Except Fault (List Node)} {stop : Cursor}
    (ran : program.run settings ⟨first, first :: rest, 0, []⟩ = (result, stop)) :
    (∃ fault, result = .error fault ∧
      (recurse itemsStep ⟨[], 0⟩).run settings (.start first rest) = (.error fault, stop)) ∨
    ∃ progress last, result = .ok progress.items.reverse ∧
      stop = last.note (.parsed settings.file progress.items.length progress.skipped) ∧
      (recurse itemsStep ⟨[], 0⟩).run settings (.start first rest) = (.ok progress, last) := by
  rw [run_program] at ran
  cases items : (recurse itemsStep ⟨[], 0⟩).run settings (.start first rest) with
  | mk outcome last =>
      rw [items] at ran
      cases outcome with
      | error fault =>
          cases ran
          exact .inl ⟨fault, rfl, rfl⟩
      | ok progress =>
          cases ran
          exact .inr ⟨progress, last, rfl, rfl, rfl⟩

/-- The outcome of parsing a stream is that of its items. -/
theorem outcome_parse {settings : Settings} {tokens rest : List Token} {first : Token}
    (made : Cursor.ofTokens settings.file tokens = .ok ⟨first, first :: rest, 0, []⟩) :
    (parse settings tokens).outcome =
      ((Parser.recurse Parser.itemsStep ⟨[], 0⟩).run settings (.start first rest)).1.map
        fun progress => progress.items.reverse := by
  rw [parse, made]
  change (Parser.program.run settings ⟨first, first :: rest, 0, []⟩).1 = _
  rw [Parser.run_program]
  cases (Parser.recurse Parser.itemsStep ⟨[], 0⟩).run settings (.start first rest) with
  | mk result stop => cases result <;> rfl

end ExprLang
