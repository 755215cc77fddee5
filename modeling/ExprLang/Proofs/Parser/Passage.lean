import ExprLang.Parser.Program

/-!
# Nesting is given back

A run of a rule is made of steps that move the cursor at most once, and it passes
through the cursors after these steps. A step goes deeper only below the limit, so no
cursor on the way of a run is deeper than the limit, unless the run began there. The
nesting is entered and left in one place only, around a whole expression, and it is
left however the expression ends. So a run of any rule ends as deep as it began.
-/

namespace ExprLang

namespace Parser

variable {α β : Type}

/--
The parsers that move the cursor at most once. A look at the cursor does not tell how
deep it is: a level that was entered and left unseen could not pass for a look.
-/
inductive IsStep : {α : Type} → Parser α → Prop where
  | look {α : Type} (seen : Settings → Token → List Token → Except Fault α) :
      IsStep ⟨fun settings cursor => (seen settings cursor.current cursor.unread, cursor)⟩
  | note (event : Event) : IsStep (note event)
  | advance : IsStep advance
  | enter : IsStep enter
  | leave : IsStep leave

/-- The cursors that a run of a parser from a cursor passes through, in their order. -/
inductive Passes (settings : Settings) :
    {α : Type} → Parser α → Cursor → List Cursor → Prop where
  | step {α : Type} {parser : Parser α} (single : parser.IsStep) (cursor : Cursor) :
      Passes settings parser cursor [(parser.run settings cursor).2]
  | bind_ok {α β : Type} {first : Parser α} {next : α → Parser β} {cursor middle : Cursor}
      {value : α} {path rest : List Cursor}
      (ran : first.run settings cursor = (.ok value, middle))
      (before : Passes settings first cursor path)
      (after : Passes settings (next value) middle rest) :
      Passes settings (first >>= next) cursor (path ++ rest)
  | bind_error {α β : Type} {first : Parser α} {next : α → Parser β} {cursor middle : Cursor}
      {fault : Fault} {path : List Cursor}
      (ran : first.run settings cursor = (.error fault, middle))
      (before : Passes settings first cursor path) :
      Passes settings (first >>= next) cursor path
  | andAlways {α : Type} {parser : Parser α} {closing : Parser Unit} {cursor middle : Cursor}
      {result : Except Fault α} {path rest : List Cursor}
      (ran : parser.run settings cursor = (result, middle))
      (before : Passes settings parser cursor path)
      (after : Passes settings closing middle rest) :
      Passes settings (andAlways parser closing) cursor (path ++ rest)
  | recurse {α β : Type} {step : (α → Parser β) → α → Parser β} {argument : α}
      {cursor : Cursor} {path : List Cursor}
      (rounds : Passes settings (unroll step (cursor.unread.length + 1) argument) cursor path) :
      Passes settings (recurse step argument) cursor path

/-- The last cursor that a run passes through is the one that it ends with. -/
theorem Passes.getLast?_eq {settings : Settings} {parser : Parser α} {cursor : Cursor}
    {path : List Cursor} (passes : parser.Passes settings cursor path) :
    path.getLast? = some (parser.run settings cursor).2 := by
  induction passes with
  | step single cursor => rfl
  | bind_ok ran _ _ _ ih =>
      rw [run_bind_of_ok ran, List.getLast?_append, ih]
      rfl
  | bind_error ran _ ih => rw [run_bind_of_error ran, ih, ran]
  | andAlways ran _ _ _ ih =>
      simp only [Parser.andAlways, ran]
      rw [List.getLast?_append, ih]
      rfl
  | recurse _ ih => exact ih

theorem Passes.run_mem {settings : Settings} {parser : Parser α} {cursor : Cursor}
    {path : List Cursor} (passes : parser.Passes settings cursor path) :
    (parser.run settings cursor).2 ∈ path :=
  List.mem_of_getLast? passes.getLast?_eq

theorem depth_run_advance (settings : Settings) (cursor : Cursor) :
    (advance.run settings cursor).2.depth = cursor.depth := by
  cases unread : cursor.unread with
  | nil => rw [run_advance_of_nil unread]
  | cons token rest =>
      rw [run_advance_of_cons unread]
      rfl

/-- What holds at the beginning and is kept by each step holds at every cursor of a run. -/
theorem Passes.forall_mem {settings : Settings} (holds : Cursor → Prop)
    (step : ∀ {β : Type} {single : Parser β}, single.IsStep →
      ∀ cursor, holds cursor → holds (single.run settings cursor).2)
    {parser : Parser α} {cursor : Cursor} {path : List Cursor}
    (passes : parser.Passes settings cursor path) (given : holds cursor) :
    ∀ point ∈ path, holds point := by
  induction passes with
  | step single cursor => exact List.forall_mem_singleton.mpr (step single cursor given)
  | bind_ok ran before _ first rest =>
      have middle := first given _ before.run_mem
      rw [ran] at middle
      exact List.forall_mem_append.mpr ⟨first given, rest middle⟩
  | bind_error _ _ first => exact first given
  | andAlways ran before _ first rest =>
      have middle := first given _ before.run_mem
      rw [ran] at middle
      exact List.forall_mem_append.mpr ⟨first given, rest middle⟩
  | recurse _ ih => exact ih given

/-- A step goes deeper only below the limit. -/
theorem IsStep.depth_le {parser : Parser α} (single : parser.IsStep) (settings : Settings)
    (cursor : Cursor) :
    (parser.run settings cursor).2.depth ≤ max settings.maxDepth cursor.depth := by
  cases single with
  | look seen => exact Nat.le_max_right _ _
  | note event => exact Nat.le_max_right _ _
  | advance =>
      rw [depth_run_advance]
      exact Nat.le_max_right _ _
  | enter =>
      unfold Parser.enter
      dsimp only
      split
      · exact Nat.le_max_right _ _
      · next room => exact Nat.le_trans (Nat.lt_of_not_le room) (Nat.le_max_left _ _)
  | leave => exact Nat.le_trans (Nat.sub_le _ _) (Nat.le_max_right _ _)

/-- On no path is a cursor deeper than the limit and than the beginning of the run. -/
theorem Passes.depth_le {settings : Settings} {parser : Parser α} {cursor : Cursor}
    {path : List Cursor} (passes : parser.Passes settings cursor path) :
    ∀ point ∈ path, point.depth ≤ max settings.maxDepth cursor.depth := by
  refine passes.forall_mem (fun point => point.depth ≤ max settings.maxDepth cursor.depth) ?_
    (Nat.le_max_right _ _)
  intro β other single point within
  exact Nat.le_trans (single.depth_le settings point) (Nat.max_le.mpr ⟨Nat.le_max_left _ _, within⟩)

/--
Each run of the parser ends as deep as it began, whatever its result is. The run passes
through some path of cursors, and on every path that it may pass through no cursor is
deeper than the limit and than its beginning.
-/
structure KeepsDepth (parser : Parser α) : Prop where
  depth_eq : ∀ settings cursor, (parser.run settings cursor).2.depth = cursor.depth
  exists_passes : ∀ settings cursor, ∃ path, parser.Passes settings cursor path
  depth_le : ∀ settings cursor path, parser.Passes settings cursor path →
    ∀ point ∈ path, point.depth ≤ max settings.maxDepth cursor.depth

namespace KeepsDepth

/-! ## Steps and sequences -/

theorem of_passes {parser : Parser α}
    (same : ∀ settings cursor, (parser.run settings cursor).2.depth = cursor.depth)
    (passes : ∀ settings cursor, ∃ path, parser.Passes settings cursor path) :
    KeepsDepth parser :=
  ⟨same, passes, fun _ _ _ along => along.depth_le⟩

/-- A step other than the two that change the level. -/
theorem of_step {parser : Parser α} (single : parser.IsStep)
    (same : ∀ settings cursor, (parser.run settings cursor).2.depth = cursor.depth) :
    KeepsDepth parser :=
  .of_passes same fun _ cursor => ⟨_, .step single cursor⟩

theorem look (seen : Settings → Token → List Token → Except Fault α) :
    KeepsDepth ⟨fun settings cursor => (seen settings cursor.current cursor.unread, cursor)⟩ :=
  .of_step (.look seen) fun _ _ => rfl

theorem bind {first : Parser α} {next : α → Parser β} (keeps : KeepsDepth first)
    (rest : ∀ value, KeepsDepth (next value)) : KeepsDepth (first >>= next) := by
  refine .of_passes (fun settings cursor => ?_) fun settings cursor => ?_
  · have same := keeps.depth_eq settings cursor
    cases ran : first.run settings cursor with
    | mk result middle =>
        rw [ran] at same
        cases result with
        | error fault => rwa [run_bind_of_error ran]
        | ok value =>
            rw [run_bind_of_ok ran, (rest value).depth_eq]
            exact same
  · obtain ⟨path, before⟩ := keeps.exists_passes settings cursor
    cases ran : first.run settings cursor with
    | mk result middle =>
        cases result with
        | error fault => exact ⟨path, .bind_error ran before⟩
        | ok value =>
            obtain ⟨onward, after⟩ := (rest value).exists_passes settings middle
            exact ⟨path ++ onward, .bind_ok ran before after⟩

theorem pure (value : α) : KeepsDepth (Pure.pure value) :=
  look fun _ _ _ => .ok value

theorem ofExcept {result : Except Fault α} : KeepsDepth (Parser.ofExcept result) :=
  look fun _ _ _ => result

theorem fail {fault : Fault} : KeepsDepth (Parser.fail fault : Parser α) :=
  ofExcept

theorem settings {next : Settings → Parser α} (rest : ∀ given, KeepsDepth (next given)) :
    KeepsDepth (Parser.settings >>= next) :=
  bind (look fun given _ _ => .ok given) rest

theorem current {next : Token → Parser α} (rest : ∀ token, KeepsDepth (next token)) :
    KeepsDepth (Parser.current >>= next) :=
  bind (look fun _ token _ => .ok token) rest

theorem hasTokens {next : Bool → Parser α} (rest : ∀ more, KeepsDepth (next more)) :
    KeepsDepth (Parser.hasTokens >>= next) :=
  bind (look fun _ token unread => .ok (Cursor.hasTokens ⟨token, unread, 0, []⟩)) rest

theorem peek {offset : Nat} : KeepsDepth (Parser.peek offset) :=
  look fun _ token unread => Cursor.peek ⟨token, unread, 0, []⟩ offset

theorem note {event : Event} {next : Unit → Parser α} (rest : KeepsDepth (next ())) :
    KeepsDepth (Parser.note event >>= next) :=
  bind (.of_step (.note event) fun _ _ => rfl) fun _ => rest

theorem advance : KeepsDepth Parser.advance :=
  .of_step .advance depth_run_advance

theorem expectOr {kind : TokenKind} {blame : Token → Fault} :
    KeepsDepth (Parser.expectOr kind blame) := by
  refine .current fun token => ?_
  split
  · exact advance.bind fun _ => .pure _
  · exact .fail

theorem expect {kind : TokenKind} : KeepsDepth (expect kind) :=
  expectOr

theorem skipComma : KeepsDepth skipComma := by
  refine .current fun token => ?_
  split
  · exact advance.bind fun _ => .pure _
  · exact .pure _

theorem unexpected {message : String} : KeepsDepth (unexpected message : Parser α) :=
  .current fun _ => .fail

theorem map {parser : Parser α} (keeps : KeepsDepth parser) (change : α → β) :
    KeepsDepth (do return change (← parser)) :=
  keeps.bind fun _ => .pure _

/-! ## Nesting and recursion -/

/-- The level is left after a fault as well, and only if it was entered. -/
theorem nested {parser : Parser α} (keeps : KeepsDepth parser) :
    KeepsDepth (Parser.nested parser) := by
  refine .of_passes (fun settings cursor => ?_) fun settings cursor => ?_
  · rw [run_nested]
    split
    · rfl
    · dsimp only
      rw [keeps.depth_eq]
      rfl
  · by_cases full : settings.maxDepth ≤ cursor.depth
    · have ran : enter.run settings cursor =
          (.error ⟨.nestedTooDeeply settings.maxDepth, cursor.current.span.start⟩, cursor) :=
        if_pos full
      exact ⟨_, .bind_error ran (.step .enter cursor)⟩
    · have ran : enter.run settings cursor = (.ok (), { cursor with depth := cursor.depth + 1 }) :=
        if_neg full
      obtain ⟨path, inside⟩ :=
        keeps.exists_passes settings { cursor with depth := cursor.depth + 1 }
      exact ⟨_, .bind_ok ran (.step .enter cursor) (.andAlways rfl inside (.step .leave _))⟩

theorem recurse {step : (α → Parser β) → α → Parser β}
    (kept : ∀ again, (∀ argument, KeepsDepth (again argument)) →
      ∀ argument, KeepsDepth (step again argument)) (argument : α) :
    KeepsDepth (Parser.recurse step argument) := by
  have rounds : ∀ count argument, KeepsDepth (unroll step count argument) := by
    intro count
    induction count with
    | zero =>
        exact fun _ => look fun _ token unread => .error (Cursor.pastEnd ⟨token, unread, 0, []⟩)
    | succ count ih =>
        intro argument
        rw [unroll_succ]
        exact kept _ ih argument
  refine .of_passes (fun settings cursor => ?_) fun settings cursor => ?_
  · exact (rounds (cursor.unread.length + 1) argument).depth_eq settings cursor
  · obtain ⟨path, along⟩ :=
      (rounds (cursor.unread.length + 1) argument).exists_passes settings cursor
    exact ⟨path, .recurse along⟩

end KeepsDepth

/-! ## Rules without nested expressions -/

namespace Rule

theorem keepsDepth_returnType : KeepsDepth returnType := by
  refine KeepsDepth.expectOr.bind fun token => ?_
  dsimp only
  split
  · exact .note (.pure _)
  · exact .pure _

theorem keepsDepth_parameter : KeepsDepth parameter :=
  KeepsDepth.expectOr.bind fun _ =>
    KeepsDepth.expectOr.bind fun _ =>
      KeepsDepth.expectOr.bind fun _ =>
        KeepsDepth.skipComma.bind fun _ => .pure _

theorem keepsDepth_parameters : KeepsDepth parameters := by
  refine .recurse (fun again call done => .current fun token => ?_) []
  split
  · exact .pure _
  · exact keepsDepth_parameter.bind fun _ => call _

theorem keepsDepth_number : KeepsDepth number := by
  refine .current fun token => ?_
  split
  · split
    · exact .fail
    · exact KeepsDepth.advance.bind fun _ => .pure _
  · exact .unexpected

theorem keepsDepth_conditional : KeepsDepth conditional :=
  .current fun _ => .fail

/-! ## Rules with nested expressions -/

section Nested

variable {expression : Parser (Option Node)} (inner : KeepsDepth expression)

include inner

theorem keepsDepth_body : KeepsDepth (body expression) := by
  refine KeepsDepth.expect.bind fun _ => inner.bind fun value? => ?_
  cases value? with
  | none => exact .unexpected
  | some value => exact KeepsDepth.expectOr.bind fun _ => .pure _

theorem keepsDepth_definition : KeepsDepth (definition expression) :=
  KeepsDepth.expect.bind fun _ =>
    KeepsDepth.expectOr.bind fun _ =>
      KeepsDepth.expect.bind fun _ =>
        keepsDepth_parameters.bind fun _ =>
          KeepsDepth.expect.bind fun _ =>
            KeepsDepth.expectOr.bind fun _ =>
              keepsDepth_returnType.bind fun _ =>
                (keepsDepth_body inner).bind fun _ =>
                  .note (.pure _)

theorem keepsDepth_argument : KeepsDepth (argument expression) := by
  refine KeepsDepth.expectOr.bind fun _ =>
    KeepsDepth.expect.bind fun _ => inner.bind fun value? => ?_
  cases value? with
  | none => exact .unexpected
  | some value => exact .pure _

theorem keepsDepth_arguments : KeepsDepth (arguments expression) := by
  refine .recurse (fun again call done => .current fun token => ?_) []
  split
  · exact .pure _
  · exact KeepsDepth.skipComma.bind fun _ => (keepsDepth_argument inner).bind fun _ => call _

theorem keepsDepth_identifier : KeepsDepth (identifier expression) := by
  refine .current fun token => ?_
  split
  · refine KeepsDepth.peek.bind fun next => KeepsDepth.expect.bind fun name => ?_
    split
    · exact KeepsDepth.expect.bind fun _ =>
        (keepsDepth_arguments inner).bind fun _ => KeepsDepth.expect.bind fun _ => .pure _
    · exact .pure _
  · exact .unexpected

theorem keepsDepth_parenthesised : KeepsDepth (parenthesised expression) := by
  refine KeepsDepth.expect.bind fun _ => inner.bind fun value? => ?_
  cases value? with
  | none => exact .pure _
  | some value => exact KeepsDepth.expectOr.bind fun _ => .pure _

theorem keepsDepth_returned : KeepsDepth (returned expression) := by
  refine KeepsDepth.expect.bind fun _ => .current fun token => ?_
  split
  · refine inner.bind fun value? => ?_
    cases value? with
    | none => exact .pure _
    | some value => exact .pure _
  · exact .pure _

theorem keepsDepth_primary : KeepsDepth (primary expression) := by
  refine .current fun token => ?_
  split
  · exact (keepsDepth_identifier inner).map some
  · exact keepsDepth_number.map some
  · exact keepsDepth_number.map some
  · exact keepsDepth_parenthesised inner
  · exact (keepsDepth_definition inner).map some
  · exact (keepsDepth_returned inner).map some
  · exact keepsDepth_conditional.map some
  · exact .pure _
  · exact .fail

end Nested

theorem keepsDepth_climb {operand : Parser (Option Node)} (inner : KeepsDepth operand)
    (least : Int) (lhs : Node) : KeepsDepth (climb operand least lhs) := by
  refine .recurse ?_ (least, lhs)
  rintro again call ⟨least, lhs⟩
  refine .current fun token => KeepsDepth.ofExcept.bind fun precedence => ?_
  split
  · exact .pure _
  · split
    · exact .pure _
    · refine KeepsDepth.advance.bind fun _ => inner.bind fun rhs? => ?_
      cases rhs? with
      | none => exact .pure _
      | some rhs =>
          refine .current fun follower =>
            KeepsDepth.ofExcept.bind fun tighter => ?_
          split
          · refine .note ((call _).bind fun rhs? => ?_)
            cases rhs? with
            | none => exact .pure _
            | some rhs => exact call _
          · exact call _

end Rule

/-! ## Closed rules -/

theorem keepsDepth_expression : KeepsDepth expression := by
  refine .recurse (fun again call _ => ?_) ()
  have operand := Rule.keepsDepth_primary (call ())
  refine .nested (operand.bind fun lhs? => ?_)
  cases lhs? with
  | none => exact .pure _
  | some lhs => exact Rule.keepsDepth_climb operand 0 lhs

theorem keepsDepth_topLevelExpression : KeepsDepth topLevelExpression := by
  refine keepsDepth_expression.bind fun body? => ?_
  cases body? with
  | none => exact .pure _
  | some body => exact .pure _

theorem keepsDepth_items (progress : Progress) :
    KeepsDepth (Parser.recurse itemsStep progress) := by
  refine .recurse (fun again call progress => .current fun token => ?_) progress
  split
  · exact .pure _
  · exact (Rule.keepsDepth_definition keepsDepth_expression).bind fun _ =>
      .note (call _)
  · refine keepsDepth_topLevelExpression.bind fun item? => ?_
    cases item? with
    | some item => exact .note (call _)
    | none =>
        refine .hasTokens fun more => ?_
        split
        · exact .settings fun _ =>
            .current fun _ =>
              .note (KeepsDepth.advance.bind fun _ => call _)
        · exact .pure _

theorem keepsDepth_program : KeepsDepth program :=
  KeepsDepth.advance.bind fun _ =>
    (keepsDepth_items _).bind fun _ =>
      .settings fun _ => .note (.pure _)

end Parser

end ExprLang
