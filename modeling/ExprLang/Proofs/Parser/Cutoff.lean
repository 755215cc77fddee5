import ExprLang.Proofs.Parser.Rules

/-!
# Runs that are cut off

Below two limits of nesting, the runs of a rule from one cursor are the same, or
the lower limit cuts the first run off. No rule goes on after it is cut off, so
the fault of the limit is the one that the whole run ends with, and the second
run comes at least as far. A rule reads a token on its way to each expression
that is nested in it, so a run that is cut off has read no fewer tokens than
there were levels left.
-/

namespace ExprLang

namespace Parser

variable {α β : Type}

/--
How the runs of a parser end below two limits of nesting: both in one way, or the
first one at its limit. A run that is cut off has read at least one token for each
level that was left, and as many more as the slack, and the second run has read no
fewer.
-/
inductive EndBelow (slack : Nat) (parser : Parser α) (settings settings' : Settings)
    (cursor : Cursor) : Prop where
  | same {result : Except Fault α} {stop : Cursor}
      (ran : parser.run settings cursor = (result, stop))
      (ran' : parser.run settings' cursor = (result, stop))
      (shallow : ∀ fault, result = .error fault → ¬ fault.IsTooDeep)
      (depth : stop.depth = cursor.depth)
      (onward : stop.unread.length ≤ cursor.unread.length)
  | cut {fault : Fault} {result' : Except Fault α} {stop stop' : Cursor}
      (ran : parser.run settings cursor = (.error fault, stop))
      (limit : fault = ⟨.nestedTooDeeply settings.maxDepth, stop.current.span.start⟩)
      (ran' : parser.run settings' cursor = (result', stop'))
      (onward : stop.unread.length ≤ cursor.unread.length)
      (further : stop'.unread.length ≤ stop.unread.length)
      (deep : settings.maxDepth + slack + stop.unread.length ≤
        cursor.depth + cursor.unread.length)

/-- How the runs end is the same for a parser with the same two runs. -/
theorem EndBelow.of_runs {slack : Nat} {parser parser' : Parser α} {settings settings' : Settings}
    {cursor : Cursor} (ends : EndBelow slack parser settings settings' cursor)
    (first : parser'.run settings cursor = parser.run settings cursor)
    (second : parser'.run settings' cursor = parser.run settings' cursor) :
    EndBelow slack parser' settings settings' cursor := by
  cases ends with
  | same ran ran' shallow depth onward =>
      exact .same (first.trans ran) (second.trans ran') shallow depth onward
  | cut ran limit ran' onward further deep =>
      exact .cut (first.trans ran) limit (second.trans ran') onward further deep

/-- The limit of nesting does nothing to the runs of the parser but to cut them off. -/
def OnlyCutOff (slack : Nat) (parser : Parser α) : Prop :=
  ∀ (settings settings' : Settings) (cursor : Cursor), settings'.file = settings.file →
    settings.maxDepth ≤ settings'.maxDepth → EndBelow slack parser settings settings' cursor

namespace OnlyCutOff

variable {slack few : Nat}

theorem unread_length_le {parser : Parser α} (only : OnlyCutOff slack parser)
    (settings : Settings) (cursor : Cursor) :
    (parser.run settings cursor).2.unread.length ≤ cursor.unread.length := by
  cases only settings settings cursor rfl (Nat.le_refl _) with
  | same ran _ _ _ onward =>
      rw [ran]
      exact onward
  | cut ran _ _ onward _ _ =>
      rw [ran]
      exact onward

theorem weaken {parser : Parser α} (only : OnlyCutOff slack parser) (less : few ≤ slack) :
    OnlyCutOff few parser := by
  intro settings settings' cursor file lower
  cases only settings settings' cursor file lower with
  | same ran ran' shallow depth onward => exact .same ran ran' shallow depth onward
  | cut ran limit ran' onward further deep =>
      exact .cut ran limit ran' onward further (by omega)

/-! ## Sequences -/

/-- What the first part of a sequence reads adds to the slack of the second one. -/
theorem sequence {first : Parser α} {next : α → Parser β} (read : Nat)
    (only : OnlyCutOff slack first)
    (reads : ∀ settings cursor value middle, first.run settings cursor = (.ok value, middle) →
      middle.unread.length + read ≤ cursor.unread.length)
    (rest : ∀ value, OnlyCutOff few (next value)) (enough : slack ≤ few + read) :
    OnlyCutOff slack (first >>= next) := by
  intro settings settings' cursor file lower
  cases only settings settings' cursor file lower with
  | @cut _ result' stop stop' ran limit ran' onward further deep =>
      cases result' with
      | error fault =>
          exact .cut (run_bind_of_error ran) limit (run_bind_of_error ran') onward further deep
      | ok value =>
          -- the second run goes on, which only takes it further
          have later := (rest value).unread_length_le settings' stop'
          exact .cut (run_bind_of_error ran) limit (run_bind_of_ok ran') onward
            (Nat.le_trans later further) deep
  | @same result middle ran ran' shallow depth onward =>
      cases result with
      | error fault =>
          refine .same (run_bind_of_error ran) (run_bind_of_error ran') ?_ depth onward
          intro other same
          cases same
          exact shallow fault rfl
      | ok value =>
          have fewer := reads settings cursor value middle ran
          cases rest value settings settings' middle file lower with
          | same ran₁ ran₁' shallow₁ depth₁ onward₁ =>
              exact .same ((run_bind_of_ok ran).trans ran₁) ((run_bind_of_ok ran').trans ran₁')
                shallow₁ (depth₁.trans depth) (Nat.le_trans onward₁ onward)
          | cut ran₁ limit ran₁' onward₁ further₁ deep₁ =>
              exact .cut ((run_bind_of_ok ran).trans ran₁) limit
                ((run_bind_of_ok ran').trans ran₁') (Nat.le_trans onward₁ onward) further₁
                (by omega)

theorem bind {first : Parser α} {next : α → Parser β} (only : OnlyCutOff slack first)
    (rest : ∀ value, OnlyCutOff slack (next value)) : OnlyCutOff slack (first >>= next) := by
  refine sequence 0 only (fun settings cursor value middle ran => ?_) rest (Nat.le_refl _)
  have onward := only.unread_length_le settings cursor
  rw [ran] at onward
  exact onward

/-- After a part that reads a token, the rest may have one less of slack. -/
theorem bind_of_reads {first : Parser α} {next : α → Parser β}
    (only : OnlyCutOff (slack + 1) first) (reads : ReadsOn first)
    (rest : ∀ value, OnlyCutOff slack (next value)) : OnlyCutOff (slack + 1) (first >>= next) :=
  sequence 1 only reads rest (Nat.le_refl _)

/-! ## Steps -/

/-- A parser that stays where it is and does not look at the settings. -/
theorem of_still {parser : Parser α} {result : Cursor → Except Fault α}
    (ran : ∀ settings cursor, parser.run settings cursor = (result cursor, cursor))
    (shallow : ∀ cursor fault, result cursor = .error fault → ¬ fault.IsTooDeep) :
    OnlyCutOff slack parser :=
  fun settings settings' cursor _ _ =>
    .same (ran settings cursor) (ran settings' cursor) (shallow cursor) rfl (Nat.le_refl _)

/-- A parser that only looks at the cursor. -/
theorem of_look {parser : Parser α} {value : Cursor → α}
    (ran : ∀ settings cursor, parser.run settings cursor = (.ok (value cursor), cursor)) :
    OnlyCutOff slack parser :=
  .of_still ran fun _ _ failed => by cases failed

theorem pure (value : α) : OnlyCutOff slack (Pure.pure value) :=
  .of_look fun _ _ => rfl

theorem ofExcept {result : Except Fault α}
    (shallow : ∀ fault, result = .error fault → ¬ fault.IsTooDeep) :
    OnlyCutOff slack (Parser.ofExcept result) :=
  .of_still (fun _ _ => rfl) fun _ => shallow

theorem fail {fault : Fault} (shallow : ¬ fault.IsTooDeep) :
    OnlyCutOff slack (Parser.fail fault : Parser α) :=
  ofExcept fun _ same => (Except.error.inj same) ▸ shallow

theorem current {next : Token → Parser α} (rest : ∀ token, OnlyCutOff slack (next token)) :
    OnlyCutOff slack (Parser.current >>= next) :=
  bind (.of_look fun _ _ => rfl) rest

theorem hasTokens {next : Bool → Parser α} (rest : ∀ more, OnlyCutOff slack (next more)) :
    OnlyCutOff slack (Parser.hasTokens >>= next) :=
  bind (.of_look fun _ _ => rfl) rest

theorem note {event : Event} {next : Unit → Parser α} (rest : OnlyCutOff slack (next ())) :
    OnlyCutOff slack (Parser.note event >>= next) :=
  bind (fun _ _ _ _ _ => .same rfl rfl nofun rfl (Nat.le_refl _)) fun _ => rest

/-- What follows may depend on the name of the file, but not on the limit. -/
theorem settings {next : Settings → Parser α}
    (byFile : ∀ given given', given'.file = given.file → next given' = next given)
    (rest : ∀ given, OnlyCutOff slack (next given)) :
    OnlyCutOff slack (Parser.settings >>= next) := by
  intro settings settings' cursor file lower
  refine (rest settings settings settings' cursor file lower).of_runs rfl ?_
  rw [← byFile settings settings' file]
  rfl

theorem advance : OnlyCutOff slack Parser.advance := by
  intro settings settings' cursor _ _
  cases unread : cursor.unread with
  | nil =>
      refine .same (run_advance_of_nil unread) (run_advance_of_nil unread) ?_ rfl (Nat.le_refl _)
      rintro fault ⟨⟩ ⟨_, ⟨⟩⟩
  | cons token rest =>
      refine .same (run_advance_of_cons unread) (run_advance_of_cons unread) nofun rfl ?_
      rw [unread]
      exact Nat.le_succ _

theorem expectOr {kind : TokenKind} {blame : Token → Fault}
    (shallow : ∀ token, ¬ (blame token).IsTooDeep) : OnlyCutOff slack (expectOr kind blame) := by
  refine .current fun token => ?_
  split
  · exact advance.bind fun _ => .pure _
  · exact .fail (shallow token)

theorem expect {kind : TokenKind} : OnlyCutOff slack (expect kind) :=
  .expectOr fun _ => by rintro ⟨_, ⟨⟩⟩

theorem expectWith {kind : TokenKind} {message : String} :
    OnlyCutOff slack (Parser.expectOr kind (Token.unexpectedWith message)) :=
  .expectOr fun _ => by rintro ⟨_, ⟨⟩⟩

theorem skipComma : OnlyCutOff slack skipComma := by
  refine .current fun token => ?_
  split
  · exact advance.bind fun _ => .pure _
  · exact .pure _

theorem unexpected {message : String} : OnlyCutOff slack (unexpected message : Parser α) :=
  .current fun _ => .fail (by rintro ⟨_, ⟨⟩⟩)

theorem map {parser : Parser α} (only : OnlyCutOff slack parser) (change : α → β) :
    OnlyCutOff slack (do return change (← parser)) :=
  only.bind fun _ => .pure _

/-! ## Nesting and recursion -/

/-- The level that is entered takes the token that was read before the nested expression. -/
theorem nested {parser : Parser α} (only : OnlyCutOff 1 parser) :
    OnlyCutOff 0 (Parser.nested parser) := by
  intro settings settings' cursor file lower
  by_cases full : settings.maxDepth ≤ cursor.depth
  · have onward : ((Parser.nested parser).run settings' cursor).2.unread.length ≤
        cursor.unread.length := by
      rw [run_nested]
      split
      · exact Nat.le_refl _
      · exact only.unread_length_le settings' { cursor with depth := cursor.depth + 1 }
    have ran : (Parser.nested parser).run settings cursor =
        (.error ⟨.nestedTooDeeply settings.maxDepth, cursor.current.span.start⟩, cursor) := by
      rw [run_nested, if_pos full]
    exact .cut ran rfl rfl (Nat.le_refl _) onward (by omega)
  · have entered : ∀ given, settings.maxDepth ≤ given.maxDepth →
        (Parser.nested parser).run given cursor =
          let inner := parser.run given { cursor with depth := cursor.depth + 1 }
          (inner.1, { inner.2 with depth := inner.2.depth - 1 }) := by
      intro given room
      rw [run_nested, if_neg (by omega)]
    have first := entered settings (Nat.le_refl _)
    have second := entered settings' lower
    cases only settings settings' { cursor with depth := cursor.depth + 1 } file lower with
    | same ran ran' shallow depth onward =>
        rw [ran] at first
        rw [ran'] at second
        exact .same first second shallow (by rw [depth]; rfl) onward
    | @cut _ _ stop _ ran limit ran' onward further deep =>
        rw [ran] at first
        rw [ran'] at second
        have left : settings.maxDepth + stop.unread.length ≤
            cursor.depth + cursor.unread.length := by
          dsimp only at deep
          omega
        exact .cut first limit second onward further left

theorem recurse {step : (α → Parser β) → α → Parser β}
    (kept : ∀ again, (∀ argument, OnlyCutOff slack (again argument)) →
      ∀ argument, OnlyCutOff slack (step again argument)) (argument : α) :
    OnlyCutOff slack (Parser.recurse step argument) := by
  have rounds : ∀ count argument, OnlyCutOff slack (unroll step count argument) := by
    intro count
    induction count with
    | zero =>
        refine fun _ => .of_still (fun _ _ => rfl) fun cursor fault same => ?_
        cases same
        rintro ⟨_, ⟨⟩⟩
    | succ count ih =>
        intro argument
        rw [unroll_succ]
        exact kept _ ih argument
  exact fun settings settings' cursor file lower =>
    (rounds (cursor.unread.length + 1) argument settings settings' cursor file lower).of_runs
      rfl rfl

end OnlyCutOff

/-! ## Rules without nested expressions -/

variable {slack : Nat}

namespace Rule

theorem onlyCutOff_returnType : OnlyCutOff slack returnType := by
  refine OnlyCutOff.expectWith.bind fun token => ?_
  dsimp only
  split
  · exact .note (.pure _)
  · exact .pure _

theorem onlyCutOff_parameter : OnlyCutOff slack parameter :=
  OnlyCutOff.expectWith.bind fun _ =>
    OnlyCutOff.expectWith.bind fun _ =>
      OnlyCutOff.expectWith.bind fun _ =>
        OnlyCutOff.skipComma.bind fun _ => .pure _

theorem onlyCutOff_parameters : OnlyCutOff slack parameters := by
  refine .recurse (fun again call done => .current fun token => ?_) []
  split
  · exact .pure _
  · exact onlyCutOff_parameter.bind fun _ => call _

theorem onlyCutOff_number : OnlyCutOff slack number := by
  refine .current fun token => ?_
  split
  · split
    · exact .fail (by rintro ⟨_, ⟨⟩⟩)
    · exact OnlyCutOff.advance.bind fun _ => .pure _
  · exact .unexpected

theorem onlyCutOff_conditional : OnlyCutOff slack conditional :=
  .current fun _ => .fail (by rintro ⟨_, ⟨⟩⟩)

theorem onlyCutOff_precedence {token : Token} :
    OnlyCutOff slack (ofExcept token.precedence) := by
  refine .ofExcept fun fault missing => ?_
  unfold Token.precedence at missing
  split at missing
  · next operator _ =>
      cases operator <;> cases missing
      rintro ⟨_, ⟨⟩⟩
  · cases missing

/-! ## Rules with nested expressions -/

section Nested

variable {expression : Parser (Option Node)} (inner : OnlyCutOff 0 expression)

include inner

theorem onlyCutOff_body : OnlyCutOff 0 (body expression) := by
  refine OnlyCutOff.expect.bind fun _ => inner.bind fun value? => ?_
  cases value? with
  | none => exact .unexpected
  | some value => exact OnlyCutOff.expectWith.bind fun _ => .pure _

theorem onlyCutOff_definition : OnlyCutOff 1 (definition expression) :=
  OnlyCutOff.expect.bind_of_reads readsOn_expectOr fun _ =>
    OnlyCutOff.expectWith.bind fun _ =>
      OnlyCutOff.expect.bind fun _ =>
        onlyCutOff_parameters.bind fun _ =>
          OnlyCutOff.expect.bind fun _ =>
            OnlyCutOff.expectWith.bind fun _ =>
              onlyCutOff_returnType.bind fun _ =>
                (onlyCutOff_body inner).bind fun _ => .note (.pure _)

theorem onlyCutOff_argument : OnlyCutOff 0 (argument expression) := by
  refine OnlyCutOff.expectWith.bind fun _ =>
    OnlyCutOff.expect.bind fun _ => inner.bind fun value? => ?_
  cases value? with
  | none => exact .unexpected
  | some value => exact .pure _

theorem onlyCutOff_arguments : OnlyCutOff 0 (arguments expression) := by
  refine .recurse (fun again call done => .current fun token => ?_) []
  split
  · exact .pure _
  · exact OnlyCutOff.skipComma.bind fun _ => (onlyCutOff_argument inner).bind fun _ => call _

theorem onlyCutOff_identifier : OnlyCutOff 1 (identifier expression) := by
  rw [identifier_eq]
  refine .current fun token => ?_
  split
  · refine OnlyCutOff.expect.bind_of_reads readsOn_expectOr fun name => .current fun next => ?_
    split
    · exact OnlyCutOff.expect.bind fun _ =>
        (onlyCutOff_arguments inner).bind fun _ => OnlyCutOff.expect.bind fun _ => .pure _
    · exact .pure _
  · exact .unexpected

theorem onlyCutOff_parenthesised : OnlyCutOff 1 (parenthesised expression) := by
  refine OnlyCutOff.expect.bind_of_reads readsOn_expectOr fun _ => inner.bind fun value? => ?_
  cases value? with
  | none => exact .pure _
  | some value => exact OnlyCutOff.expectWith.bind fun _ => .pure _

theorem onlyCutOff_returned : OnlyCutOff 1 (returned expression) := by
  refine OnlyCutOff.expect.bind_of_reads readsOn_expectOr fun _ => .current fun token => ?_
  split
  · refine inner.bind fun value? => ?_
    cases value? with
    | none => exact .pure _
    | some value => exact .pure _
  · exact .pure _

theorem onlyCutOff_primary : OnlyCutOff 1 (primary expression) := by
  refine .current fun token => ?_
  split
  · exact (onlyCutOff_identifier inner).map some
  · exact onlyCutOff_number.map some
  · exact onlyCutOff_number.map some
  · exact onlyCutOff_parenthesised inner
  · exact (onlyCutOff_definition inner).map some
  · exact (onlyCutOff_returned inner).map some
  · exact onlyCutOff_conditional.map some
  · exact .pure _
  · exact .fail (by rintro ⟨_, ⟨⟩⟩)

end Nested

theorem onlyCutOff_climb {operand : Parser (Option Node)} (inner : OnlyCutOff slack operand)
    (least : Int) (lhs : Node) : OnlyCutOff slack (climb operand least lhs) := by
  refine .recurse ?_ (least, lhs)
  rintro again call ⟨least, lhs⟩
  refine .current fun token => onlyCutOff_precedence.bind fun precedence => ?_
  split
  · exact .pure _
  · split
    · exact .pure _
    · refine OnlyCutOff.advance.bind fun _ => inner.bind fun rhs? => ?_
      cases rhs? with
      | none => exact .pure _
      | some rhs =>
          refine .current fun follower => onlyCutOff_precedence.bind fun tighter => ?_
          split
          · refine .note ((call _).bind fun rhs? => ?_)
            cases rhs? with
            | none => exact .pure _
            | some rhs => exact call _
          · exact call _

end Rule

/-! ## Closed rules -/

theorem onlyCutOff_expression : OnlyCutOff 0 expression := by
  refine .recurse (fun again call _ => ?_) ()
  have operand := Rule.onlyCutOff_primary (call ())
  refine .nested (operand.bind fun lhs? => ?_)
  cases lhs? with
  | none => exact .pure _
  | some lhs => exact Rule.onlyCutOff_climb operand 0 lhs

theorem onlyCutOff_topLevelExpression : OnlyCutOff 0 topLevelExpression := by
  refine onlyCutOff_expression.bind fun body? => ?_
  cases body? with
  | none => exact .pure _
  | some body => exact .pure _

theorem onlyCutOff_items (progress : Progress) : OnlyCutOff 0 (Parser.recurse itemsStep progress) := by
  refine .recurse (fun again call progress => .current fun token => ?_) progress
  split
  · exact .pure _
  · have definition := (Rule.onlyCutOff_definition onlyCutOff_expression).weaken (Nat.zero_le 1)
    exact definition.bind fun _ => .note (call _)
  · refine onlyCutOff_topLevelExpression.bind fun item? => ?_
    cases item? with
    | some item => exact .note (call _)
    | none =>
        refine .hasTokens fun more => ?_
        split
        · refine .settings (fun given given' file => by rw [file]) fun given => ?_
          exact .current fun token => .note (OnlyCutOff.advance.bind fun _ => call _)
        · exact .pure _

end Parser

end ExprLang
