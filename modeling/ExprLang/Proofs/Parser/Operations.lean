import ExprLang.Proofs.Parser.Passage
import ExprLang.Proofs.Parser.Rules

/-!
# Operations on cursors

A cursor may be moved by single steps and by whole rules, in any order and also after
faults. Whatever is done with a cursor over a list of tokens, it stays over them: it
stands on the token before the unread ones, or on the first token if none has been
read, and it never goes back. A step that fails leaves everything as it was.
-/

namespace ExprLang

/-! ## Operations -/

namespace Parser

variable {α : Type}

/-- The rules of the language and the parser for whole programs. -/
inductive IsRule : {α : Type} → Parser α → Prop where
  | expression : IsRule expression
  | climb (least : Int) (lhs : Node) : IsRule (climb least lhs)
  | primary : IsRule primary
  | number : IsRule number
  | identifier : IsRule identifier
  | parenthesised : IsRule parenthesised
  | returned : IsRule returned
  | conditional : IsRule conditional
  | definition : IsRule definition
  | parameter : IsRule parameter
  | returnType : IsRule returnType
  | topLevelExpression : IsRule topLevelExpression
  | program : IsRule program

/--
The single operations that the rules are made of. A kind of token is expected with
any blame for other kinds, the one without a message included.
-/
inductive IsSingle : {α : Type} → Parser α → Prop where
  | advance : IsSingle advance
  | peek (offset : Nat) : IsSingle (peek offset)
  | expectOr (kind : TokenKind) (blame : Token → Fault) : IsSingle (expectOr kind blame)
  | enter : IsSingle enter
  | leave : IsSingle leave

/-- All that may be done with a cursor. -/
inductive IsOperation : {α : Type} → Parser α → Prop where
  | single {α : Type} {parser : Parser α} (single : parser.IsSingle) : IsOperation parser
  | rule {α : Type} {parser : Parser α} (rule : parser.IsRule) : IsOperation parser

theorem IsRule.keepsDepth {parser : Parser α} (rule : parser.IsRule) : KeepsDepth parser := by
  have nested := keepsDepth_expression
  have operand := Rule.keepsDepth_primary nested
  cases rule with
  | expression => exact nested
  | climb least lhs => exact Rule.keepsDepth_climb operand least lhs
  | primary => exact operand
  | number => exact Rule.keepsDepth_number
  | identifier => exact Rule.keepsDepth_identifier nested
  | parenthesised => exact Rule.keepsDepth_parenthesised nested
  | returned => exact Rule.keepsDepth_returned nested
  | conditional => exact Rule.keepsDepth_conditional
  | definition => exact Rule.keepsDepth_definition nested
  | parameter => exact Rule.keepsDepth_parameter
  | returnType => exact Rule.keepsDepth_returnType
  | topLevelExpression => exact keepsDepth_topLevelExpression
  | program => exact keepsDepth_program

/-- Every operation is made of steps. -/
theorem IsOperation.exists_passes {parser : Parser α} (operation : parser.IsOperation)
    (settings : Settings) (cursor : Cursor) : ∃ path, parser.Passes settings cursor path := by
  cases operation with
  | rule rule => exact rule.keepsDepth.exists_passes settings cursor
  | single single =>
      cases single with
      | advance => exact ⟨_, .step .advance cursor⟩
      | peek offset => exact KeepsDepth.peek.exists_passes settings cursor
      | expectOr kind blame => exact KeepsDepth.expectOr.exists_passes settings cursor
      | enter => exact ⟨_, .step .enter cursor⟩
      | leave => exact ⟨_, .step .leave cursor⟩

theorem run_expectOr_of_nil {kind : TokenKind} {blame : Token → Fault} {settings : Settings}
    {cursor : Cursor} (same : cursor.current.kind = kind) (ended : cursor.unread = []) :
    (expectOr kind blame).run settings cursor = (.error cursor.pastEnd, cursor) := by
  rw [expectOr, run_bind_of_ok (run_current settings cursor), if_pos same,
    run_bind_of_error (run_advance_of_nil ended)]

theorem run_expectOr_of_cons {kind : TokenKind} {blame : Token → Fault} {settings : Settings}
    {cursor : Cursor} {token : Token} {rest : List Token} (same : cursor.current.kind = kind)
    (more : cursor.unread = token :: rest) :
    (expectOr kind blame).run settings cursor = (.ok cursor.current, cursor.step token rest) := by
  rw [expectOr, run_bind_of_ok (run_current settings cursor), if_pos same,
    run_bind_of_ok (run_advance_of_cons more)]
  rfl

theorem run_expectOr_of_ne {kind : TokenKind} {blame : Token → Fault} {settings : Settings}
    {cursor : Cursor} (other : cursor.current.kind ≠ kind) :
    (expectOr kind blame).run settings cursor = (.error (blame cursor.current), cursor) := by
  rw [expectOr, run_bind_of_ok (run_current settings cursor), if_neg other]
  rfl

/-- A single operation that fails changes nothing. -/
theorem IsSingle.run_of_error {parser : Parser α} (single : parser.IsSingle) {settings : Settings}
    {cursor : Cursor} {fault : Fault} (failed : (parser.run settings cursor).1 = .error fault) :
    (parser.run settings cursor).2 = cursor := by
  cases single with
  | advance =>
      cases unread : cursor.unread with
      | nil => rw [run_advance_of_nil unread]
      | cons token rest =>
          rw [run_advance_of_cons unread] at failed
          cases failed
  | peek offset => rfl
  | expectOr kind blame =>
      by_cases same : cursor.current.kind = kind
      · cases unread : cursor.unread with
        | nil => rw [run_expectOr_of_nil same unread]
        | cons token rest =>
            rw [run_expectOr_of_cons same unread] at failed
            cases failed
      · rw [run_expectOr_of_ne same]
  | enter =>
      unfold Parser.enter at failed ⊢
      by_cases full : settings.maxDepth ≤ cursor.depth
      · dsimp only
        rw [if_pos full]
      · dsimp only at failed
        rw [if_neg full] at failed
        cases failed
  | leave => cases failed

/-- No operation goes deeper than the limit. -/
theorem IsOperation.depth_le {parser : Parser α} (operation : parser.IsOperation)
    {settings : Settings} {cursor : Cursor} (within : cursor.depth ≤ settings.maxDepth) :
    (parser.run settings cursor).2.depth ≤ settings.maxDepth := by
  obtain ⟨path, passes⟩ := operation.exists_passes settings cursor
  have bound := passes.depth_le _ passes.run_mem
  rwa [Nat.max_eq_left within] at bound

end Parser

/-! ## Places -/

namespace Cursor

/--
The cursor is over the tokens: so many of them have been read, and it stands on the
last of these, or on the first token of all if none has been read.
-/
structure IsOver (cursor : Cursor) (tokens : List Token) (pos index : Nat) : Prop where
  unread : cursor.unread = tokens.drop pos
  current : tokens[index]? = some cursor.current
  place : (pos = 0 ∧ index = 0) ∨ (1 ≤ pos ∧ pos ≤ tokens.length ∧ index = pos - 1)

/-- The cursors that come of one cursor by operations, whatever the results of these are. -/
inductive Yields (settings : Settings) (start : Cursor) : Cursor → Prop where
  | refl : Yields settings start start
  | operation {α : Type} {parser : Parser α} {cursor : Cursor}
      (earlier : Yields settings start cursor) (operation : parser.IsOperation) :
      Yields settings start (parser.run settings cursor).2

/-- The cursor after so many attempts to read on. -/
def advanced (settings : Settings) : Nat → Cursor → Cursor
  | 0, cursor => cursor
  | count + 1, cursor => advanced settings count (Parser.advance.run settings cursor).2

variable {settings : Settings} {tokens : List Token} {start cursor next : Cursor}
  {pos pos' index index' : Nat}

namespace IsOver

theorem pos_eq (stands : cursor.IsOver tokens pos index) :
    pos = tokens.length - cursor.unread.length := by
  rw [stands.unread, List.length_drop]
  have within : pos ≤ tokens.length := by
    rcases stands.place with ⟨rfl, _⟩ | ⟨_, within, _⟩
    · exact Nat.zero_le _
    · exact within
  omega

theorem of_ofTokens {file : String} (made : ofTokens file tokens = .ok start) :
    start.IsOver tokens 0 0 := by
  obtain ⟨first, rest, rfl, rfl, _⟩ := exists_of_ofTokens made
  exact ⟨rfl, rfl, .inl ⟨rfl, rfl⟩⟩

/-- A step leaves the cursor where it is or takes it to the next token. -/
theorem step {α : Type} {parser : Parser α} (single : parser.IsStep)
    (stands : cursor.IsOver tokens pos index) :
    ∃ pos' index', pos ≤ pos' ∧ (parser.run settings cursor).2.IsOver tokens pos' index' := by
  have still : ∀ stop : Cursor, stop.current = cursor.current → stop.unread = cursor.unread →
      ∃ pos' index', pos ≤ pos' ∧ stop.IsOver tokens pos' index' := by
    intro stop current unread
    exact ⟨pos, index, Nat.le_refl pos, unread.trans stands.unread, current ▸ stands.current,
      stands.place⟩
  cases single with
  | look seen => exact still cursor rfl rfl
  | note event => exact still _ rfl rfl
  | leave => exact still _ rfl rfl
  | enter =>
      unfold Parser.enter
      dsimp only
      split
      · exact still cursor rfl rfl
      · exact still _ rfl rfl
  | advance =>
      cases unread : cursor.unread with
      | nil =>
          rw [Parser.run_advance_of_nil unread]
          exact still cursor rfl rfl
      | cons token rest =>
          have ahead : tokens.drop pos = token :: rest := stands.unread.symm.trans unread
          have found : tokens[pos]? = some token := by
            rw [← List.head?_drop, ahead]
            rfl
          have inside : pos < tokens.length := (List.getElem?_eq_some_iff.mp found).1
          rw [Parser.run_advance_of_cons unread]
          refine ⟨pos + 1, pos, Nat.le_succ pos, ?_, found, .inr ⟨Nat.succ_pos pos, inside, rfl⟩⟩
          rw [← List.drop_drop, ahead]
          rfl

end IsOver

namespace Yields

/-- Whatever is done with a cursor, it stays over the tokens and never goes back. -/
theorem exists_isOver (yields : start.Yields settings cursor)
    (stands : start.IsOver tokens pos index) :
    ∃ pos' index', pos ≤ pos' ∧ cursor.IsOver tokens pos' index' := by
  induction yields with
  | refl => exact ⟨pos, index, Nat.le_refl pos, stands⟩
  | operation _ operation ih =>
      obtain ⟨path, passes⟩ := operation.exists_passes settings _
      refine passes.forall_mem (fun later => ∃ pos' index', pos ≤ pos' ∧
        later.IsOver tokens pos' index') ?_ ih _ passes.run_mem
      rintro β parser single later ⟨middle, index', before, stands'⟩
      obtain ⟨pos', index', further, stands''⟩ := stands'.step single
      exact ⟨pos', index', Nat.le_trans before further, stands''⟩

theorem depth_le (yields : start.Yields settings cursor)
    (within : start.depth ≤ settings.maxDepth) : cursor.depth ≤ settings.maxDepth := by
  induction yields with
  | refl => exact within
  | operation _ operation ih => exact operation.depth_le ih

end Yields

theorem unread_advanced (settings : Settings) (count : Nat) (cursor : Cursor) :
    (cursor.advanced settings count).unread = cursor.unread.drop count := by
  induction count generalizing cursor with
  | zero => rfl
  | succ count ih =>
      refine (ih _).trans ?_
      cases unread : cursor.unread with
      | nil => rw [Parser.run_advance_of_nil unread, unread, List.drop_nil, List.drop_nil]
      | cons token rest =>
          rw [Parser.run_advance_of_cons unread]
          rfl

/-- Reading on after some attempts gives the token with their number among the unread ones. -/
theorem run_advance_advanced (settings : Settings) (count : Nat) (cursor : Cursor) :
    (Parser.advance.run settings (cursor.advanced settings count)).1 =
      match cursor.unread[count]? with
      | some token => .ok token
      | none => .error (cursor.advanced settings count).pastEnd := by
  rw [← List.head?_drop, ← unread_advanced settings count cursor]
  cases unread : (cursor.advanced settings count).unread with
  | nil =>
      rw [Parser.run_advance_of_nil unread]
      rfl
  | cons token rest =>
      rw [Parser.run_advance_of_cons unread]
      rfl

/-- Looking ahead gives the token that reading on as often would give. -/
theorem run_peek_eq_ok_iff (settings : Settings) (cursor : Cursor) (offset : Nat) (token : Token) :
    ((Parser.peek offset).run settings cursor).1 = .ok token ↔
      (Parser.advance.run settings (cursor.advanced settings offset)).1 = .ok token := by
  rw [run_advance_advanced, Parser.run_peek, peek]
  cases cursor.unread[offset]? <;> simp

/-- Looking ahead fails exactly where reading on as often would run past the end. -/
theorem run_peek_eq_error_iff (settings : Settings) (cursor : Cursor) (offset : Nat) :
    (∃ position, ((Parser.peek offset).run settings cursor).1 =
        .error ⟨.unexpectedEnd, position⟩) ↔
      ∃ position, (Parser.advance.run settings (cursor.advanced settings offset)).1 =
        .error ⟨.unexpectedEnd, position⟩ := by
  rw [run_advance_advanced, Parser.run_peek, peek]
  cases cursor.unread[offset]? <;> simp [pastEnd]

end Cursor

/--
Whatever operations are done with a new cursor, below one limit and over one list of
tokens: it stays over these tokens and within the limit, it never goes back, looking
ahead agrees with reading on, and a single operation that fails changes nothing, such
as expecting the current token after the last one has been read. The place that is
looked at is `pos + offset`, and it must be one that a machine word can count.
-/
theorem operations_stay_over_tokens {settings : Settings} {tokens : List Token}
    {start cursor : Cursor} (made : Cursor.ofTokens settings.file tokens = .ok start)
    (yields : start.Yields settings cursor) :
    (∃ pos index, cursor.IsOver tokens pos index) ∧ cursor.depth ≤ settings.maxDepth ∧
    (∀ next pos index pos' index', cursor.Yields settings next →
      cursor.IsOver tokens pos index → next.IsOver tokens pos' index' → pos ≤ pos') ∧
    (∀ pos index offset, cursor.IsOver tokens pos index → pos + offset < UInt64.size →
      (∀ token, ((Parser.peek offset).run settings cursor).1 = .ok token ↔
        (Parser.advance.run settings (cursor.advanced settings offset)).1 = .ok token) ∧
      ((∃ position, ((Parser.peek offset).run settings cursor).1 =
          .error ⟨.unexpectedEnd, position⟩) ↔
        ∃ position, (Parser.advance.run settings (cursor.advanced settings offset)).1 =
          .error ⟨.unexpectedEnd, position⟩)) ∧
    (∀ {α : Type} (parser : Parser α) (fault : Fault), parser.IsSingle →
      (parser.run settings cursor).1 = .error fault → (parser.run settings cursor).2 = cursor) ∧
    ∀ kind blame, cursor.current.kind = kind → cursor.unread = [] →
      (Parser.expectOr kind blame).run settings cursor = (.error cursor.pastEnd, cursor) := by
  refine ⟨?_, ?_, ?_, fun _ _ offset _ _ => ⟨cursor.run_peek_eq_ok_iff settings offset,
    cursor.run_peek_eq_error_iff settings offset⟩,
    fun parser fault single failed => single.run_of_error failed,
    fun kind blame => Parser.run_expectOr_of_nil⟩
  · obtain ⟨pos, index, _, stands⟩ := yields.exists_isOver (.of_ofTokens made)
    exact ⟨pos, index, stands⟩
  · obtain ⟨_, _, _, rfl, _⟩ := Cursor.exists_of_ofTokens made
    exact yields.depth_le (Nat.zero_le _)
  · intro next pos index pos' index' later stands stands'
    obtain ⟨_, _, further, stands''⟩ := later.exists_isOver stands
    rwa [stands'.pos_eq, ← stands''.pos_eq]

/-- After an expression that was nested too deeply, the cursor is read on to the last token. -/
theorem operations_stay_over_name :
    ∃ pos index, pos = 2 ∧ Cursor.IsOver
      (Parser.advance.run ⟨"", 0⟩ (Parser.advance.run ⟨"", 0⟩ (Parser.expression.run ⟨"", 0⟩
        ⟨⟨.identifier, "x", .nowhere⟩, [⟨.identifier, "x", .nowhere⟩, .endOfInput .nowhere],
          0, []⟩).2).2).2
      [⟨.identifier, "x", .nowhere⟩, .endOfInput .nowhere] pos index := by
  have made : Cursor.ofTokens (Settings.mk "" 0).file
      [⟨.identifier, "x", .nowhere⟩, .endOfInput .nowhere] = .ok _ := rfl
  obtain ⟨⟨pos, index, stands⟩, _⟩ := operations_stay_over_tokens made
    (((Cursor.Yields.refl.operation (.rule .expression)).operation (.single .advance)).operation
      (.single .advance))
  exact ⟨pos, index, stands.pos_eq, stands⟩

end ExprLang
