import ExprLang.Proofs.Parser.Rules

/-!
# Nested expressions

A rule that reads nested expressions has read a token before it comes to the first
of them. So one level of expressions, started at some cursor, runs the parser for
the nested ones only at cursors with fewer tokens to come, and nothing depends on
what that parser would do elsewhere.
-/

namespace ExprLang.Parser

variable {α β : Type} {bound few : Nat}

/-! ## Agreement -/

/-- The parsers run alike where fewer tokens than the bound are to come, and do not go back. -/
def AgreeBelow (bound : Nat) (first second : Parser α) : Prop :=
  ∀ settings cursor, cursor.unread.length < bound →
    second.run settings cursor = first.run settings cursor ∧
      (first.run settings cursor).2.unread.length ≤ cursor.unread.length

namespace AgreeBelow

theorem weaken {first second : Parser α} (agree : AgreeBelow bound first second)
    (fewer : few ≤ bound) : AgreeBelow few first second :=
  fun settings cursor near => agree settings cursor (Nat.lt_of_lt_of_le near fewer)

/-- A parser that mirrors itself does not go back. -/
theorem refl {parser : Parser α} (mirrored : ∀ ahead, Mirrored ahead 0 parser parser) :
    AgreeBelow bound parser parser :=
  fun settings cursor _ =>
    ⟨rfl, (mirrored _ settings cursor (Nat.lt_succ_self _)).unread_length_le⟩

theorem pure (value : α) : AgreeBelow bound (Pure.pure value) (Pure.pure value) :=
  .refl fun _ => .pure value

theorem fail (fault : Fault) :
    AgreeBelow bound (Parser.fail fault : Parser α) (Parser.fail fault) :=
  .refl fun _ => .fail fault

theorem unexpected (message : String) :
    AgreeBelow bound (Parser.unexpected message : Parser α) (Parser.unexpected message) :=
  .refl fun _ => mirrored_unexpected message

theorem current {next next' : Token → Parser α}
    (rest : ∀ token, AgreeBelow bound (next token) (next' token)) :
    AgreeBelow bound (Parser.current >>= next) (Parser.current >>= next') :=
  fun settings cursor => rest cursor.current settings cursor

/-- What the first part of a sequence reads is not to come any more in the second one. -/
theorem sequence {first second : Parser α} {next next' : α → Parser β} (read : Nat)
    (agree : AgreeBelow bound first second)
    (reads : ∀ settings cursor value middle, cursor.unread.length < bound →
      first.run settings cursor = (.ok value, middle) →
      middle.unread.length + read ≤ cursor.unread.length)
    (rest : ∀ value, AgreeBelow few (next value) (next' value)) (enough : bound ≤ few + read) :
    AgreeBelow bound (first >>= next) (second >>= next') := by
  intro settings cursor near
  obtain ⟨same, onward⟩ := agree settings cursor near
  cases ran : first.run settings cursor with
  | mk result middle =>
      rw [ran] at same onward
      cases result with
      | error fault =>
          rw [run_bind_of_error same, run_bind_of_error ran]
          exact ⟨rfl, onward⟩
      | ok value =>
          have shorter := reads settings cursor value middle near ran
          obtain ⟨same', onward'⟩ := rest value settings middle (by omega)
          rw [run_bind_of_ok same, run_bind_of_ok ran]
          exact ⟨same', Nat.le_trans onward' onward⟩

theorem bind {first second : Parser α} {next next' : α → Parser β}
    (agree : AgreeBelow bound first second)
    (rest : ∀ value, AgreeBelow bound (next value) (next' value)) :
    AgreeBelow bound (first >>= next) (second >>= next') := by
  refine agree.sequence 0 (fun settings cursor value middle near ran => ?_) rest (Nat.le_refl _)
  have onward := (agree settings cursor near).2
  rw [ran] at onward
  exact onward

/-- After a part that reads a token, the rest has to agree below a lower bound only. -/
theorem bind_of_reads {first second : Parser α} {next next' : α → Parser β}
    (agree : AgreeBelow (bound + 1) first second) (reads : ReadsOn first)
    (rest : ∀ value, AgreeBelow bound (next value) (next' value)) :
    AgreeBelow (bound + 1) (first >>= next) (second >>= next') :=
  agree.sequence 1 (fun settings cursor value middle _ => reads settings cursor value middle) rest
    (Nat.le_refl _)

theorem advance : AgreeBelow bound Parser.advance Parser.advance := by
  refine fun settings cursor _ => ⟨rfl, ?_⟩
  cases unread : cursor.unread with
  | nil => simp only [run_advance_of_nil unread, unread, Nat.le_refl]
  | cons token rest =>
      rw [run_advance_of_cons unread]
      exact Nat.le_succ _

theorem expectOr {kind : TokenKind} {blame : Token → Fault} {next next' : Token → Parser α}
    (word : kind ≠ .endOfInput) (rest : ∀ token, AgreeBelow bound (next token) (next' token)) :
    AgreeBelow (bound + 1) (Parser.expectOr kind blame >>= next)
      (Parser.expectOr kind blame >>= next') :=
  bind_of_reads (.refl fun _ => mirrored_expectOr word) readsOn_expectOr rest

theorem map {first second : Parser α} (agree : AgreeBelow bound first second) (change : α → β) :
    AgreeBelow bound (do return change (← first)) (do return change (← second)) :=
  agree.bind fun _ => .pure _

theorem nested {first second : Parser α} (agree : AgreeBelow bound first second) :
    AgreeBelow bound (Parser.nested first) (Parser.nested second) := by
  intro settings cursor near
  obtain ⟨same, onward⟩ := agree settings { cursor with depth := cursor.depth + 1 } near
  rw [run_nested, run_nested]
  split
  · exact ⟨rfl, Nat.le_refl _⟩
  · dsimp only
    rw [same]
    exact ⟨rfl, onward⟩

/-- Recursions agree if their steps do so whenever the parsers for the recursive calls do. -/
theorem recurse {step step' : (α → Parser β) → α → Parser β}
    (kept : ∀ again again', (∀ argument, AgreeBelow bound (again argument) (again' argument)) →
      ∀ argument, AgreeBelow bound (step again argument) (step' again' argument)) (argument : α) :
    AgreeBelow bound (Parser.recurse step argument) (Parser.recurse step' argument) := by
  have rounds : ∀ count argument,
      AgreeBelow bound (unroll step count argument) (unroll step' count argument) := by
    intro count
    induction count with
    | zero => exact fun _ _ _ _ => ⟨rfl, Nat.le_refl _⟩
    | succ count ih =>
        intro argument
        rw [unroll_succ, unroll_succ]
        exact kept _ _ ih argument
  exact fun settings cursor => rounds (cursor.unread.length + 1) argument settings cursor

end AgreeBelow

/-! ## Rules with nested expressions -/

namespace Rule

section Nested

variable {expression expression' : Parser (Option Node)}
  (inner : AgreeBelow bound expression expression')

include inner

theorem agreeBelow_body : AgreeBelow (bound + 1) (body expression) (body expression') := by
  refine .expectOr (by decide) fun _ => inner.bind fun value? => ?_
  cases value? with
  | none => exact .unexpected _
  | some value => exact .refl fun _ => (mirrored_expectOr (by decide)).bind fun _ => .pure _

theorem agreeBelow_definition :
    AgreeBelow (bound + 1) (definition expression) (definition expression') := by
  have word : ∀ {kind : TokenKind} {blame : Token → Fault}, kind ≠ .endOfInput →
      AgreeBelow bound (expectOr kind blame) (expectOr kind blame) :=
    fun other => .refl fun _ => mirrored_expectOr other
  refine .expectOr (by decide) fun _ => (word (by decide)).bind fun _ =>
    (word (by decide)).bind fun _ => AgreeBelow.bind (.refl fun _ => mirrored_parameters) fun _ =>
      (word (by decide)).bind fun _ => (word (by decide)).bind fun _ =>
        AgreeBelow.bind (.refl fun _ => mirrored_returnType) fun _ => ?_
  refine ((agreeBelow_body inner).weaken (Nat.le_succ _)).bind fun _ => ?_
  exact .refl fun _ => (Mirrored.note _).bind fun _ => .pure _

theorem agreeBelow_argument :
    AgreeBelow (bound + 1) (argument expression) (argument expression') := by
  refine .expectOr (by decide) fun _ =>
    AgreeBelow.bind (.refl fun _ => mirrored_expectOr (by decide)) fun _ =>
      inner.bind fun value? => ?_
  cases value? with
  | none => exact .unexpected _
  | some value => exact .pure _

theorem agreeBelow_arguments :
    AgreeBelow bound (arguments expression) (arguments expression') := by
  refine .recurse (fun again again' call done => .current fun token => ?_) []
  split
  · exact .pure _
  · exact AgreeBelow.bind (.refl fun _ => mirrored_skipComma) fun _ =>
      ((agreeBelow_argument inner).weaken (Nat.le_succ _)).bind fun _ => call _

theorem agreeBelow_identifier :
    AgreeBelow (bound + 1) (identifier expression) (identifier expression') := by
  rw [identifier_eq, identifier_eq]
  refine .current fun token => ?_
  split
  · refine .expectOr (by decide) fun name => .current fun next => ?_
    split
    · exact AgreeBelow.bind (.refl fun _ => mirrored_expectOr (by decide)) fun _ =>
        (agreeBelow_arguments inner).bind fun _ =>
          .refl fun _ => (mirrored_expectOr (by decide)).bind fun _ => .pure _
    · exact .pure _
  · exact .unexpected _

theorem agreeBelow_parenthesised :
    AgreeBelow (bound + 1) (parenthesised expression) (parenthesised expression') := by
  refine .expectOr (by decide) fun _ => inner.bind fun value? => ?_
  cases value? with
  | none => exact .pure _
  | some value => exact .refl fun _ => (mirrored_expectOr (by decide)).bind fun _ => .pure _

theorem agreeBelow_returned :
    AgreeBelow (bound + 1) (returned expression) (returned expression') := by
  refine .expectOr (by decide) fun _ => .current fun token => ?_
  split
  · refine inner.bind fun value? => ?_
    cases value? with
    | none => exact .pure _
    | some value => exact .pure _
  · exact .pure _

theorem agreeBelow_primary :
    AgreeBelow (bound + 1) (primary expression) (primary expression') := by
  have plain : ∀ {rule : Parser Node}, (∀ ahead, Mirrored ahead 0 rule rule) →
      AgreeBelow (bound + 1) (do return some (← rule)) (do return some (← rule)) :=
    fun mirrored => .refl fun _ => (mirrored _).map some
  refine .current fun token => ?_
  split
  · exact (agreeBelow_identifier inner).map some
  · exact plain fun _ => mirrored_number
  · exact plain fun _ => mirrored_number
  · exact agreeBelow_parenthesised inner
  · exact (agreeBelow_definition inner).map some
  · exact (agreeBelow_returned inner).map some
  · exact plain fun _ => mirrored_conditional
  · exact .pure _
  · exact .fail _

end Nested

theorem agreeBelow_climb {operand operand' : Parser (Option Node)}
    (inner : AgreeBelow bound operand operand') (least : Int) (lhs : Node) :
    AgreeBelow bound (climb operand least lhs) (climb operand' least lhs) := by
  have precedence : ∀ token : Token, AgreeBelow bound (ofExcept token.precedence)
      (ofExcept token.precedence) := fun token => .refl fun _ => .ofExcept _
  refine .recurse ?_ (least, lhs)
  rintro again again' call ⟨least, lhs⟩
  refine .current fun token => (precedence token).bind fun rank => ?_
  split
  · exact .pure _
  · split
    · exact .pure _
    · refine AgreeBelow.advance.bind fun _ => inner.bind fun rhs? => ?_
      cases rhs? with
      | none => exact .pure _
      | some rhs =>
          refine .current fun follower => (precedence follower).bind fun tighter => ?_
          split
          · refine AgreeBelow.bind (.refl fun _ => .note _) fun _ => (call _).bind fun rhs? => ?_
            cases rhs? with
            | none => exact .pure _
            | some rhs => exact call _
          · exact call _

theorem agreeBelow_expressionStep {expression expression' : Parser (Option Node)}
    (inner : AgreeBelow bound expression expression') :
    AgreeBelow (bound + 1) (expressionStep (fun _ => expression) ())
      (expressionStep (fun _ => expression') ()) := by
  have operand := agreeBelow_primary inner
  refine .nested (operand.bind fun lhs? => ?_)
  cases lhs? with
  | none => exact .pure _
  | some lhs => exact agreeBelow_climb operand 0 lhs

end Rule

/--
A level of expressions is read in the same way with any other parser for the nested
expressions, as long as it reads alike at the cursors with fewer tokens to come.
-/
theorem run_expressionStep_of_agree {other : Parser (Option Node)} {settings : Settings}
    {cursor : Cursor}
    (agree : ∀ given later, later.unread.length < cursor.unread.length →
      other.run given later = expression.run given later) :
    (Rule.expressionStep (fun _ => other) ()).run settings cursor =
      expression.run settings cursor := by
  have onward : AgreeBelow cursor.unread.length expression expression :=
    .refl fun _ => mirrored_expression
  have inner : AgreeBelow cursor.unread.length expression other :=
    fun given later near => ⟨agree given later near, (onward given later near).2⟩
  have fixed : expression = Rule.expressionStep (fun _ => expression) () :=
    recurse_eq (fun _ _ => Rule.guarded_expressionStep) ()
  have level := Rule.agreeBelow_expressionStep inner settings cursor (Nat.lt_succ_self _)
  rw [level.1, ← fixed]

end ExprLang.Parser
