import ExprLang.Proofs.Parser.Movement
import ExprLang.Proofs.Parser.Rules
import Mathlib.Data.List.Forall2

/-!
# Runs in lockstep

Two tokens are alike if the rules cannot tell them apart: they have one kind,
and one text if the kind is that of words, numbers or operators. From cursors
with like tokens ahead, the runs of a rule go in lockstep. They move alike, and
they give the same result or blame like tokens in the same way, whatever the
spans of the tokens, the traces of the cursors and the names of the files are.
-/

namespace ExprLang

/-! ## Like tokens -/

/-- Whether tokens of the kind are told apart by their texts. -/
def TokenKind.isTextual : TokenKind → Bool
  | .identifier => true
  | .integerLiteral => true
  | .floatingLiteral => true
  | .binaryOperator => true
  | _ => false

namespace Token

/-- Two tokens that the rules cannot tell apart. -/
structure IsLike (first second : Token) : Prop where
  kind : second.kind = first.kind
  value : first.kind.isTextual = true → second.value = first.value

/-- The pairs of faults that two tokens are to blame for in the same way. -/
inductive BlamedAlike (limit : Nat) (first second : Token) : Fault → Fault → Prop where
  | unexpected : BlamedAlike limit first second first.unexpected second.unexpected
  | unexpectedWith (message : String) : BlamedAlike limit first second
      (first.unexpectedWith message) (second.unexpectedWith message)
  | unreadable (number : first.isNumber = true) (unread : Binary64.read? first.value = none) :
      BlamedAlike limit first second ⟨.unreadableNumber first.value, first.span.start⟩
        ⟨.unreadableNumber second.value, second.span.start⟩
  | conditional (word : first.kind = .ifWord) :
      BlamedAlike limit first second ⟨.notImplemented "if/else", first.span.start⟩
        ⟨.notImplemented "if/else", second.span.start⟩
  | comparison (denoted : first.operator? = some .lessThan) :
      BlamedAlike limit first second ⟨.notImplemented "binary operator `<`", first.span.start⟩
        ⟨.notImplemented "binary operator `<`", second.span.start⟩
  | tooDeep : BlamedAlike limit first second ⟨.nestedTooDeeply limit, first.span.start⟩
      ⟨.nestedTooDeeply limit, second.span.start⟩
  | pastEnd : BlamedAlike limit first second ⟨.unexpectedEnd, first.span.stop⟩
      ⟨.unexpectedEnd, second.span.stop⟩

theorem BlamedAlike.eq {limit : Nat} {token : Token} {fault fault' : Fault}
    (blamed : BlamedAlike limit token token fault fault') : fault' = fault := by
  cases blamed <;> rfl

namespace IsLike

variable {first second : Token}

theorem refl (token : Token) : token.IsLike token :=
  ⟨rfl, fun _ => rfl⟩

theorem value_of_kind {kind : TokenKind} (like : first.IsLike second) (same : first.kind = kind)
    (textual : kind.isTextual = true) : second.value = first.value :=
  like.value (same ▸ textual)

theorem isNumber (like : first.IsLike second) : second.isNumber = first.isNumber := by
  rw [Token.isNumber, Token.isNumber, like.kind]

theorem operator? (like : first.IsLike second) : second.operator? = first.operator? := by
  rw [Token.operator?, Token.operator?, like.kind]
  split
  · next kind => rw [like.value_of_kind kind rfl]
  · rfl

end IsLike

end Token

/-! ## Like cursors -/

namespace Cursor

/-- Two cursors with like tokens ahead, which stand on one level of nesting. -/
structure IsLike (first second : Cursor) : Prop where
  current : first.current.IsLike second.current
  unread : List.Forall₂ Token.IsLike first.unread second.unread
  depth : second.depth = first.depth

namespace IsLike

theorem of_eq {first second : Cursor} (current : second.current = first.current)
    (unread : second.unread = first.unread) (depth : second.depth = first.depth) :
    first.IsLike second := by
  refine ⟨?_, ?_, depth⟩
  · rw [current]
    exact .refl _
  · rw [unread]
    exact List.forall₂_same.mpr fun token _ => .refl token

theorem refl (cursor : Cursor) : cursor.IsLike cursor :=
  .of_eq rfl rfl rfl

/-- Like cursors that the same tokens are left of have the same ones ahead. -/
theorem remaining_eq {first second : Cursor} {read read' : List Token}
    (like : first.IsLike second) (whole : read ++ first.remaining = read' ++ second.remaining) :
    second.remaining = first.remaining := by
  have lengths : first.remaining.length = second.remaining.length :=
    congrArg Nat.succ like.unread.length_eq
  exact (List.append_inj_right' whole lengths).symm

end IsLike

end Cursor

/-! ## Lockstep -/

namespace Parser

variable {α β : Type} {noted : Event → Prop}

/-- The runs of two parsers end at like cursors, with related results or by blaming alike. -/
inductive EndAlike (noted : Event → Prop) (related : Token → α → α → Prop) (first second : Parser α)
    (settings settings' : Settings) (cursor cursor' : Cursor) : Prop where
  | done {value value' : α} {stop stop' : Cursor}
      (ran : first.run settings cursor = (.ok value, stop))
      (ran' : second.run settings' cursor' = (.ok value', stop'))
      (moves : cursor.Moves noted settings.maxDepth stop) (like : stop.IsLike stop')
      (holds : related stop.current value value')
  | failed {fault fault' : Fault} {stop stop' : Cursor}
      (ran : first.run settings cursor = (.error fault, stop))
      (ran' : second.run settings' cursor' = (.error fault', stop'))
      (moves : cursor.Moves noted settings.maxDepth stop) (like : stop.IsLike stop')
      (blamed : stop.current.BlamedAlike settings.maxDepth stop'.current fault fault')

/-- From like cursors and below one limit of nesting, the runs of the parser end alike. -/
def InLockstep (noted : Event → Prop) (related : Token → α → α → Prop) (parser : Parser α) : Prop :=
  ∀ (settings settings' : Settings) (cursor cursor' : Cursor),
    settings'.maxDepth = settings.maxDepth → cursor.IsLike cursor' →
      EndAlike noted related parser parser settings settings' cursor cursor'

/-- The results of both runs are the same. -/
def Same (_ : Token) (value value' : α) : Prop :=
  value = value'

/-- The results of both runs are the same, and they are missing only at the end of the input. -/
def SameUnlessEnded (stop : Token) (value? value?' : Option α) : Prop :=
  value? = value?' ∧ (value? = none → stop.kind = .endOfInput)

namespace EndAlike

variable {related : Token → α → α → Prop} {settings settings' : Settings} {cursor cursor' : Cursor}

theorem imp {noted' : Event → Prop} {related' : Token → α → α → Prop} {first second : Parser α}
    (alike : EndAlike noted' related' first second settings settings' cursor cursor')
    (wider : ∀ event, noted' event → noted event)
    (holds : ∀ stop value value', related' stop value value' → related stop value value') :
    EndAlike noted related first second settings settings' cursor cursor' := by
  cases alike with
  | done ran ran' moves like given =>
      exact .done ran ran' (moves.mono wider) like (holds _ _ _ given)
  | failed ran ran' moves like blamed => exact .failed ran ran' (moves.mono wider) like blamed

theorem pure {value value' : α} (like : cursor.IsLike cursor')
    (holds : related cursor.current value value') :
    EndAlike noted related (Pure.pure value) (Pure.pure value') settings settings'
      cursor cursor' :=
  .done rfl rfl (.refl cursor) like holds

theorem fail {fault fault' : Fault} (like : cursor.IsLike cursor')
    (blamed : cursor.current.BlamedAlike settings.maxDepth cursor'.current fault fault') :
    EndAlike noted related (Parser.fail fault) (Parser.fail fault') settings settings'
      cursor cursor' :=
  .failed rfl rfl (.refl cursor) like blamed

theorem unexpected {message : String} (like : cursor.IsLike cursor') :
    EndAlike noted related (Parser.unexpected message) (Parser.unexpected message)
      settings settings' cursor cursor' :=
  .failed rfl rfl (.refl cursor) like (.unexpectedWith message)

theorem bind {first second : Parser β} {next next' : β → Parser α}
    {related' : Token → β → β → Prop}
    (alike : EndAlike noted related' first second settings settings' cursor cursor')
    (later : ∀ middle middle' value value', middle.IsLike middle' →
      related' middle.current value value' →
      EndAlike noted related (next value) (next' value') settings settings' middle middle') :
    EndAlike noted related (first >>= next) (second >>= next') settings settings'
      cursor cursor' := by
  cases alike with
  | failed ran ran' moves like blamed =>
      exact .failed (run_bind_of_error ran) (run_bind_of_error ran') moves like blamed
  | done ran ran' moves like holds =>
      cases later _ _ _ _ like holds with
      | failed ran₁ ran₁' moves' like' blamed =>
          exact .failed ((run_bind_of_ok ran).trans ran₁) ((run_bind_of_ok ran').trans ran₁')
            (moves.trans moves') like' blamed
      | done ran₁ ran₁' moves' like' holds' =>
          exact .done ((run_bind_of_ok ran).trans ran₁) ((run_bind_of_ok ran').trans ran₁')
            (moves.trans moves') like' holds'

/-- A result that is found is not missing. -/
theorem map_some {parser : Parser α}
    (alike : EndAlike noted Same parser parser settings settings' cursor cursor') :
    EndAlike noted SameUnlessEnded (do return some (← parser)) (do return some (← parser))
      settings settings' cursor cursor' := by
  refine alike.bind ?_
  rintro middle middle' value _ like rfl
  exact .pure like ⟨rfl, nofun⟩

theorem current {next next' : Token → Parser α}
    (later : EndAlike noted related (next cursor.current) (next' cursor'.current)
      settings settings' cursor cursor') :
    EndAlike noted related (Parser.current >>= next) (Parser.current >>= next')
      settings settings' cursor cursor' := by
  cases later with
  | done ran ran' moves like holds => exact .done ran ran' moves like holds
  | failed ran ran' moves like blamed => exact .failed ran ran' moves like blamed

theorem hasTokens {next next' : Bool → Parser α}
    (later : EndAlike noted related (next cursor.hasTokens) (next' cursor'.hasTokens)
      settings settings' cursor cursor') :
    EndAlike noted related (Parser.hasTokens >>= next) (Parser.hasTokens >>= next')
      settings settings' cursor cursor' := by
  cases later with
  | done ran ran' moves like holds => exact .done ran ran' moves like holds
  | failed ran ran' moves like blamed => exact .failed ran ran' moves like blamed

/-- A choice that both runs make in the same way. -/
theorem ite {choice choice' : Prop} [Decidable choice] [Decidable choice']
    {first first' second second' : Parser α} (same : choice' ↔ choice)
    (chosen : choice → EndAlike noted related first first' settings settings' cursor cursor')
    (other : ¬ choice → EndAlike noted related second second' settings settings' cursor cursor') :
    EndAlike noted related (if choice then first else second)
      (if choice' then first' else second') settings settings' cursor cursor' := by
  by_cases given : choice
  · rw [if_pos given, if_pos (same.mpr given)]
    exact chosen given
  · rw [if_neg given, if_neg (mt same.mp given)]
    exact other given

theorem note {event event' : Event} {next next' : Unit → Parser α} (like : cursor.IsLike cursor')
    (sort : noted event)
    (later : ∀ middle middle', middle.IsLike middle' → middle.current = cursor.current →
      EndAlike noted related (next ()) (next' ()) settings settings' middle middle') :
    EndAlike noted related (Parser.note event >>= next) (Parser.note event' >>= next')
      settings settings' cursor cursor' := by
  have noted : cursor.Moves noted settings.maxDepth (cursor.note event) := .note cursor sort
  have middle : (cursor.note event).IsLike (cursor'.note event') :=
    ⟨like.current, like.unread, like.depth⟩
  cases later _ _ middle rfl with
  | done ran ran' moves like' holds => exact .done ran ran' (noted.trans moves) like' holds
  | failed ran ran' moves like' blamed => exact .failed ran ran' (noted.trans moves) like' blamed

/-- The precedence of like tokens is the same, or both of them denote the comparison. -/
theorem precedence {next next' : Int → Parser α} (like : cursor.IsLike cursor')
    (later : ∀ precedence,
      EndAlike noted related (next precedence) (next' precedence) settings settings'
        cursor cursor') :
    EndAlike noted related (ofExcept cursor.current.precedence >>= next)
      (ofExcept cursor'.current.precedence >>= next') settings settings' cursor cursor' := by
  rw [Token.precedence, Token.precedence, like.current.operator?]
  cases denoted : cursor.current.operator? with
  | none => exact later (-1)
  | some operator =>
      cases operator with
      | addition => exact later 20
      | subtraction => exact later 20
      | multiplication => exact later 40
      | division => exact later 40
      | lessThan => exact .failed rfl rfl (.refl cursor) like (.comparison denoted)

theorem advance {next next' : Token → Parser α} (like : cursor.IsLike cursor')
    (unfinished : cursor.current.kind ≠ .endOfInput)
    (later : ∀ middle middle', middle.IsLike middle' →
      EndAlike noted related (next middle.current) (next' middle'.current) settings settings'
        middle middle') :
    EndAlike noted related (Parser.advance >>= next) (Parser.advance >>= next')
      settings settings' cursor cursor' := by
  have ahead := like.unread
  cases unread : cursor.unread with
  | nil =>
      rw [unread] at ahead
      have unread' := List.forall₂_nil_left_iff.mp ahead
      exact .failed (run_bind_of_error (run_advance_of_nil unread))
        (run_bind_of_error (run_advance_of_nil unread')) (.refl cursor) like .pastEnd
  | cons token rest =>
      rw [unread] at ahead
      obtain ⟨token', rest', same, others, unread'⟩ := List.forall₂_cons_left_iff.mp ahead
      have read : cursor.Moves noted settings.maxDepth (cursor.step token rest) :=
        .read unfinished unread
      have middle : (cursor.step token rest).IsLike (cursor'.step token' rest') :=
        ⟨same, others, like.depth⟩
      have ran : (Parser.advance >>= next).run settings cursor =
          (next token).run settings (cursor.step token rest) :=
        run_bind_of_ok (run_advance_of_cons unread)
      have ran' : (Parser.advance >>= next').run settings' cursor' =
          (next' token').run settings' (cursor'.step token' rest') :=
        run_bind_of_ok (run_advance_of_cons unread')
      cases later _ _ middle with
      | done ran₁ ran₁' moves like' holds =>
          exact .done (ran.trans ran₁) (ran'.trans ran₁') (read.trans moves) like' holds
      | failed ran₁ ran₁' moves like' blamed =>
          exact .failed (ran.trans ran₁) (ran'.trans ran₁') (read.trans moves) like' blamed

theorem expectOr {kind : TokenKind} {blame : Token → Fault} {next next' : Token → Parser α}
    (like : cursor.IsLike cursor') (word : kind ≠ .endOfInput)
    (blamed : cursor.current.BlamedAlike settings.maxDepth cursor'.current
      (blame cursor.current) (blame cursor'.current))
    (later : ∀ middle middle', cursor.current.kind = kind → middle.IsLike middle' →
      EndAlike noted related (next cursor.current) (next' cursor'.current) settings settings'
        middle middle') :
    EndAlike noted related (Parser.expectOr kind blame >>= next)
      (Parser.expectOr kind blame >>= next') settings settings' cursor cursor' := by
  have choice : cursor'.current.kind = kind ↔ cursor.current.kind = kind := by
    rw [like.current.kind]
  rw [Parser.expectOr, bind_assoc, bind_assoc]
  apply EndAlike.current
  by_cases same : cursor.current.kind = kind
  · rw [if_pos same, if_pos (choice.mpr same), bind_assoc, bind_assoc]
    exact .advance like (same ▸ word) fun middle middle' => later middle middle' same
  · rw [if_neg same, if_neg (mt choice.mp same)]
    exact .failed rfl rfl (.refl cursor) like blamed

theorem expect {kind : TokenKind} {next next' : Token → Parser α} (like : cursor.IsLike cursor')
    (word : kind ≠ .endOfInput)
    (later : ∀ middle middle', cursor.current.kind = kind → middle.IsLike middle' →
      EndAlike noted related (next cursor.current) (next' cursor'.current) settings settings'
        middle middle') :
    EndAlike noted related (Parser.expect kind >>= next) (Parser.expect kind >>= next')
      settings settings' cursor cursor' :=
  .expectOr like word .unexpected later

theorem skipComma {next next' : Unit → Parser α} (like : cursor.IsLike cursor')
    (later : ∀ middle middle', middle.IsLike middle' →
      EndAlike noted related (next ()) (next' ()) settings settings' middle middle') :
    EndAlike noted related (Parser.skipComma >>= next) (Parser.skipComma >>= next')
      settings settings' cursor cursor' := by
  have choice : cursor'.current.kind = .comma ↔ cursor.current.kind = .comma := by
    rw [like.current.kind]
  rw [Parser.skipComma, bind_assoc, bind_assoc]
  apply EndAlike.current
  by_cases comma : cursor.current.kind = .comma
  · rw [if_pos comma, if_pos (choice.mpr comma), bind_assoc, bind_assoc]
    exact .advance like (by rw [comma]; decide) fun middle middle' => later middle middle'
  · rw [if_neg comma, if_neg (mt choice.mp comma)]
    exact later cursor cursor' like

/-- Both runs find the limit of nesting reached, or neither of them does. -/
theorem nested {parser : Parser α} (like : cursor.IsLike cursor')
    (limit : settings'.maxDepth = settings.maxDepth)
    (inner : EndAlike noted related parser parser settings settings'
      { cursor with depth := cursor.depth + 1 } { cursor' with depth := cursor'.depth + 1 }) :
    EndAlike noted related (Parser.nested parser) (Parser.nested parser) settings settings'
      cursor cursor' := by
  by_cases full : settings.maxDepth ≤ cursor.depth
  · have full' : settings'.maxDepth ≤ cursor'.depth := by rwa [limit, like.depth]
    refine .failed (by rw [run_nested, if_pos full]) (by rw [run_nested, if_pos full'])
      (.refl cursor) like ?_
    rw [limit]
    exact .tooDeep
  · have room' : ¬ settings'.maxDepth ≤ cursor'.depth := by rwa [limit, like.depth]
    have room : cursor.depth < settings.maxDepth := Nat.lt_of_not_le full
    cases inner with
    | @done value value' stop stop' ran ran' moves like' holds =>
        have left : (Parser.nested parser).run settings cursor =
            (.ok value, { stop with depth := stop.depth - 1 }) := by
          rw [run_nested, if_neg full, ran]
        have left' : (Parser.nested parser).run settings' cursor' =
            (.ok value', { stop' with depth := stop'.depth - 1 }) := by
          rw [run_nested, if_neg room', ran']
        exact .done left left' (.nested room moves)
          ⟨like'.current, like'.unread, congrArg Nat.pred like'.depth⟩ holds
    | @failed fault fault' stop stop' ran ran' moves like' blamed =>
        have left : (Parser.nested parser).run settings cursor =
            (.error fault, { stop with depth := stop.depth - 1 }) := by
          rw [run_nested, if_neg full, ran]
        have left' : (Parser.nested parser).run settings' cursor' =
            (.error fault', { stop' with depth := stop'.depth - 1 }) := by
          rw [run_nested, if_neg room', ran']
        exact .failed left left' (.nested room moves)
          ⟨like'.current, like'.unread, congrArg Nat.pred like'.depth⟩ blamed

end EndAlike

namespace InLockstep

variable {related : Token → α → α → Prop}

theorem imp {noted' : Event → Prop} {related' : Token → α → α → Prop} {parser : Parser α}
    (lockstep : InLockstep noted' related' parser) (wider : ∀ event, noted' event → noted event)
    (holds : ∀ stop value value', related' stop value value' → related stop value value') :
    InLockstep noted related parser :=
  fun settings settings' cursor cursor' limit like =>
    (lockstep settings settings' cursor cursor' limit like).imp wider holds

/-- Every run of a parser that goes in lockstep is a movement. -/
theorem moves {parser : Parser α} (lockstep : InLockstep noted related parser)
    (settings : Settings) (cursor : Cursor) :
    cursor.Moves noted settings.maxDepth (parser.run settings cursor).2 := by
  cases lockstep settings settings cursor cursor rfl (.refl cursor) with
  | done ran _ moves _ _ => rwa [ran]
  | failed ran _ moves _ _ => rwa [ran]

/-- A run depends neither on the trace of the cursor nor on the name of the file. -/
theorem run_of_remaining {parser : Parser α} (lockstep : InLockstep noted related parser)
    (same : ∀ stop value value', related stop value value' → value = value')
    {settings settings' : Settings} {cursor cursor' stop : Cursor} {result : Except Fault α}
    (ran : parser.run settings cursor = (result, stop))
    (limit : settings'.maxDepth = settings.maxDepth) (ahead : cursor'.remaining = cursor.remaining)
    (depth : cursor'.depth = cursor.depth) :
    ∃ stop', parser.run settings' cursor' = (result, stop') ∧
      stop'.remaining = stop.remaining := by
  have like : cursor.IsLike cursor' := .of_eq (List.cons.inj ahead).1 (List.cons.inj ahead).2 depth
  obtain ⟨read, reaches⟩ := (lockstep.moves settings cursor).reaches
  obtain ⟨read', reaches'⟩ := (lockstep.moves settings' cursor').reaches
  have whole := reaches.remaining.symm.trans (ahead.symm.trans reaches'.remaining)
  rw [ran] at whole
  cases lockstep settings settings' cursor cursor' limit like with
  | done ran₁ ran' _ similar holds =>
      rw [ran] at ran₁
      cases ran₁
      rw [ran'] at whole
      rw [same _ _ _ holds]
      exact ⟨_, ran', similar.remaining_eq whole⟩
  | @failed _ fault' _ _ ran₁ ran' _ similar blamed =>
      rw [ran] at ran₁
      cases ran₁
      rw [ran'] at whole
      have there := similar.remaining_eq whole
      rw [(List.cons.inj there).1] at blamed
      rw [← blamed.eq]
      exact ⟨_, ran', there⟩

/-- A recursion goes in lockstep if its step does so with any parser for the recursive calls. -/
theorem recurse {related : Token → β → β → Prop} {step : (α → Parser β) → α → Parser β}
    (kept : ∀ again, (∀ argument, InLockstep noted related (again argument)) →
      ∀ argument, InLockstep noted related (step again argument)) (argument : α) :
    InLockstep noted related (Parser.recurse step argument) := by
  have rounds : ∀ count argument, InLockstep noted related (unroll step count argument) := by
    intro count
    induction count with
    | zero =>
        intro argument settings settings' cursor cursor' _ like
        exact .failed rfl rfl (.refl cursor) like .pastEnd
    | succ count ih =>
        intro argument
        rw [unroll_succ]
        exact kept _ ih argument
  intro settings settings' cursor cursor' limit like
  have same : cursor'.unread.length = cursor.unread.length := like.unread.length_eq.symm
  cases rounds (cursor.unread.length + 1) argument settings settings' cursor cursor' limit like with
  | done ran ran' moves like' holds =>
      rw [← same] at ran'
      exact .done ran ran' moves like' holds
  | failed ran ran' moves like' blamed =>
      rw [← same] at ran'
      exact .failed ran ran' moves like' blamed

end InLockstep

end Parser

end ExprLang
