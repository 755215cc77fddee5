import ExprLang.Proofs.Grammar.Phrase
import ExprLang.Proofs.Parser.Mirror

/-!
# How runs end

From a cursor with the end of the input ahead, a run reads some tokens that come
before it. Then the run gives a result, or the token that it stops at is to
blame for a fault. What is known of the tokens in either case is kept along all
constructions of parsers.
-/

namespace ExprLang

/-! ## Closed streams -/

namespace Cursor

/-- The tokens ahead of the cursor close with the end of the input. -/
def IsClosed (cursor : Cursor) : Prop :=
  ∃ tokens closing, cursor.remaining = tokens ++ [closing] ∧ closing.kind = .endOfInput

/-- The second cursor comes after tokens that the first one has ahead, and before the input ends. -/
structure Reaches (start : Cursor) (read : List Token) (stop : Cursor) : Prop where
  remaining : start.remaining = read ++ stop.remaining
  depth : stop.depth = start.depth
  unfinished : ∀ token ∈ read, token.kind ≠ .endOfInput

namespace IsClosed

theorem unread_ne_nil {cursor : Cursor} (closed : cursor.IsClosed)
    (unfinished : cursor.current.kind ≠ .endOfInput) :
    ∃ token rest, cursor.unread = token :: rest := by
  obtain ⟨tokens, closing, shape, ends⟩ := closed
  cases unread : cursor.unread with
  | nil =>
      rw [remaining, unread] at shape
      cases tokens with
      | nil =>
          cases shape
          exact absurd ends unfinished
      | cons first rest => simp at shape
  | cons token rest => exact ⟨token, rest, rfl⟩

end IsClosed

namespace Reaches

variable {start middle stop : Cursor} {read more : List Token}

theorem refl (cursor : Cursor) : cursor.Reaches [] cursor :=
  ⟨rfl, rfl, nofun⟩

theorem trans (toMiddle : start.Reaches read middle) (toStop : middle.Reaches more stop) :
    start.Reaches (read ++ more) stop where
  remaining := by rw [toMiddle.remaining, toStop.remaining, List.append_assoc]
  depth := toStop.depth.trans toMiddle.depth
  unfinished := by
    intro token member
    rcases List.mem_append.mp member with member | member
    · exact toMiddle.unfinished token member
    · exact toStop.unfinished token member

theorem step (cursor : Cursor) {token : Token} {rest : List Token}
    (more : cursor.unread = token :: rest) (unfinished : cursor.current.kind ≠ .endOfInput) :
    cursor.Reaches [cursor.current] (cursor.step token rest) :=
  ⟨cursor.remaining_step more, rfl, by simpa using unfinished⟩

theorem note (cursor : Cursor) (event : Event) : cursor.Reaches [] (cursor.note event) :=
  ⟨rfl, rfl, nofun⟩

theorem isClosed (reaches : start.Reaches read stop) (closed : start.IsClosed) :
    stop.IsClosed := by
  obtain ⟨tokens, closing, shape, ends⟩ := closed
  have whole := reaches.remaining.symm.trans shape
  rcases List.append_eq_append_iff.mp whole with ⟨rest, _, tail⟩ | ⟨rest, front, tail⟩
  · exact ⟨rest, closing, tail, ends⟩
  · -- the end of the input is the last token, and no token that is read
    cases rest with
    | nil => exact ⟨[], closing, tail.symm, ends⟩
    | cons first rest =>
        have same : closing = first := (List.cons.inj tail).1
        refine absurd ends (reaches.unfinished closing ?_)
        rw [front, same]
        exact List.mem_append_right _ (List.mem_cons_self ..)

theorem unread_length (reaches : start.Reaches read stop) :
    start.unread.length = read.length + stop.unread.length := by
  have lengths := congrArg List.length reaches.remaining
  simp only [Cursor.remaining, List.length_append, List.length_cons] at lengths
  omega

theorem current (reaches : start.Reaches read stop) : start.current = read.headD stop.current := by
  have heads := congrArg List.head? reaches.remaining
  cases read with
  | nil => exact Option.some.inj heads
  | cons first rest => exact Option.some.inj heads

/-- The first token that is read is the current one, and of no other kind. -/
theorem kind_ne_of_mem_head? {kind : TokenKind} (reaches : start.Reaches read stop)
    (other : start.current.kind ≠ kind) : ∀ token ∈ read.head?, token.kind ≠ kind := by
  intro token first
  rw [reaches.current] at other
  cases read with
  | nil => cases first
  | cons head rest =>
      cases first
      exact other

/-- Nothing is read from the end of the input. -/
theorem eq_nil (reaches : start.Reaches read stop) (ended : start.current.kind = .endOfInput) :
    read = [] := by
  cases read with
  | nil => rfl
  | cons first rest =>
      have same : start.current = first := reaches.current
      exact absurd (same ▸ ended) (reaches.unfinished first (List.mem_cons_self ..))

end Reaches

end Cursor

/-! ## Blame -/

/-- The faults that a token is to blame for, which stand at its start and carry its text. -/
inductive Fault.Blames : Fault → Token → Prop where
  | unexpected (token : Token) : Blames token.unexpected token
  | unexpectedWith (message : String) (token : Token) : Blames (token.unexpectedWith message) token
  | unreadable (token : Token) : Blames ⟨.unreadableNumber token.value, token.span.start⟩ token
  | notImplemented (construct : String) (token : Token) :
      Blames ⟨.notImplemented construct, token.span.start⟩ token
  | tooDeep (limit : Nat) (token : Token) :
      Blames ⟨.nestedTooDeeply limit, token.span.start⟩ token

namespace Token

/-- The precedence of a token is looked up in vain only if it denotes the comparison. -/
theorem blames_of_precedence {token : Token} {fault : Fault}
    (missing : token.precedence = .error fault) : fault.Blames token := by
  unfold precedence at missing
  split at missing
  · next operator _ =>
      cases operator with
      | lessThan =>
          cases missing
          exact .notImplemented _ token
      | addition => cases missing
      | subtraction => cases missing
      | multiplication => cases missing
      | division => cases missing
  · cases missing

theorem precedence_cases {token : Token} {precedence : Int}
    (found : token.precedence = .ok precedence) :
    (token.operator? = none ∧ precedence = -1) ∨
      ∃ operator, token.operator? = some operator ∧
        ((operator.IsAdditive ∧ precedence = 20) ∨
          (operator.IsMultiplicative ∧ precedence = 40)) := by
  unfold Token.precedence at found
  split at found
  · next operator denoted =>
      refine .inr ⟨operator, denoted, ?_⟩
      cases operator with
      | addition =>
          cases found
          exact .inl ⟨.inl rfl, rfl⟩
      | subtraction =>
          cases found
          exact .inl ⟨.inr rfl, rfl⟩
      | multiplication =>
          cases found
          exact .inr ⟨.inl rfl, rfl⟩
      | division =>
          cases found
          exact .inr ⟨.inr rfl, rfl⟩
      | lessThan => cases found
  · next other =>
      cases found
      exact .inl ⟨other, rfl⟩

/-- No operator binds tighter than the products. -/
theorem precedence_le {token : Token} {precedence : Int}
    (found : token.precedence = .ok precedence) : ¬ 40 < precedence := by
  rcases precedence_cases found with ⟨_, rfl⟩ | ⟨_, _, ⟨_, rfl⟩ | ⟨_, rfl⟩⟩ <;> decide

end Token

/-! ## Endings -/

namespace Parser

variable {α β : Type}

/--
A run reads tokens before the end of the input. If it fails, the token at which
it stops is to blame, and the tokens that it has read are the beginning of
something.
-/
inductive Ends (parser : Parser α) (settings : Settings) (cursor : Cursor)
    (begun : List Token → Prop) (done : List Token → Token → α → Prop) : Prop where
  | done {read : List Token} {stop : Cursor} {value : α}
      (ran : parser.run settings cursor = (.ok value, stop)) (reaches : cursor.Reaches read stop)
      (holds : done read stop.current value)
  | failed {read : List Token} {stop : Cursor} {fault : Fault}
      (ran : parser.run settings cursor = (.error fault, stop)) (reaches : cursor.Reaches read stop)
      (blames : fault.Blames stop.current) (begins : begun read)

namespace Ends

variable {settings : Settings} {cursor : Cursor} {begun : List Token → Prop}
  {done : List Token → Token → α → Prop}

theorem imp {parser : Parser α} {begun' : List Token → Prop} {done' : List Token → Token → α → Prop}
    (ends : Ends parser settings cursor begun' done')
    (begins : ∀ read stop, cursor.Reaches read stop → begun' read → begun read)
    (holds : ∀ read stop value, cursor.Reaches read stop → done' read stop.current value →
      done read stop.current value) :
    Ends parser settings cursor begun done := by
  cases ends with
  | done ran reaches given => exact .done ran reaches (holds _ _ _ reaches given)
  | failed ran reaches blames given => exact .failed ran reaches blames (begins _ _ reaches given)

theorem pure {value : α} (holds : done [] cursor.current value) :
    Ends (Pure.pure value) settings cursor begun done :=
  .done rfl (.refl cursor) holds

theorem fail {fault : Fault} (blames : fault.Blames cursor.current) (begins : begun []) :
    Ends (Parser.fail fault) settings cursor begun done :=
  .failed rfl (.refl cursor) blames begins

theorem unexpected {message : String} (begins : begun []) :
    Ends (Parser.unexpected message) settings cursor begun done :=
  .failed rfl (.refl cursor) (.unexpectedWith message _) begins

/-- What is known of the first part is known of the beginning of the whole. -/
theorem bind {first : Parser β} {next : β → Parser α} {begun' : List Token → Prop}
    {done' : List Token → Token → β → Prop} (ends : Ends first settings cursor begun' done')
    (begins : ∀ read, begun' read → begun read)
    (later : ∀ read middle value, cursor.Reaches read middle → done' read middle.current value →
      Ends (next value) settings middle (fun more => begun (read ++ more))
        (fun more => done (read ++ more))) :
    Ends (first >>= next) settings cursor begun done := by
  cases ends with
  | failed ran reaches blames given =>
      exact .failed (run_bind_of_error ran) reaches blames (begins _ given)
  | done ran reaches given =>
      cases later _ _ _ reaches given with
      | failed ran' reaches' blames begins' =>
          exact .failed ((run_bind_of_ok ran).trans ran') (reaches.trans reaches') blames begins'
      | done ran' reaches' holds =>
          exact .done ((run_bind_of_ok ran).trans ran') (reaches.trans reaches') holds

theorem map {first : Parser β} {change : β → α} {done' : List Token → Token → β → Prop}
    (ends : Ends first settings cursor begun done')
    (holds : ∀ {read stop value}, done' read stop value → done read stop (change value)) :
    Ends (do return change (← first)) settings cursor begun done := by
  refine ends.bind (fun _ => id) fun read middle value _ given => .pure ?_
  rw [List.append_nil]
  exact holds given

theorem current {next : Token → Parser α}
    (later : Ends (next cursor.current) settings cursor begun done) :
    Ends (Parser.current >>= next) settings cursor begun done := by
  cases later with
  | done ran reaches holds => exact .done ran reaches holds
  | failed ran reaches blames begins => exact .failed ran reaches blames begins

theorem note {event : Event} {next : Unit → Parser α}
    (later : ∀ middle, cursor.Reaches [] middle → middle.current = cursor.current →
      Ends (next ()) settings middle begun done) :
    Ends (Parser.note event >>= next) settings cursor begun done := by
  have noted := Cursor.Reaches.note cursor event
  cases later _ noted rfl with
  | done ran reaches holds => exact .done ran (noted.trans reaches) holds
  | failed ran reaches blames begins => exact .failed ran (noted.trans reaches) blames begins

/-- The precedence of the current token may be that of the comparison, which is to blame then. -/
theorem precedence {next : Int → Parser α} (begins : begun [])
    (later : ∀ precedence, cursor.current.precedence = .ok precedence →
      Ends (next precedence) settings cursor begun done) :
    Ends (Parser.ofExcept cursor.current.precedence >>= next) settings cursor begun done := by
  cases found : cursor.current.precedence with
  | error fault =>
      exact .failed rfl (.refl cursor) (Token.blames_of_precedence found) begins
  | ok precedence => exact later precedence found

theorem advance {next : Token → Parser α} (closed : cursor.IsClosed)
    (unfinished : cursor.current.kind ≠ .endOfInput)
    (later : ∀ middle, cursor.Reaches [cursor.current] middle →
      Ends (next middle.current) settings middle (fun more => begun (cursor.current :: more))
        (fun more => done (cursor.current :: more))) :
    Ends (Parser.advance >>= next) settings cursor begun done := by
  obtain ⟨token, rest, unread⟩ := closed.unread_ne_nil unfinished
  have step : Ends Parser.advance settings cursor begun
      (fun read stop value => read = [cursor.current] ∧ value = stop) :=
    .done (run_advance_of_cons unread) (.step cursor unread unfinished) ⟨rfl, rfl⟩
  refine step.bind (fun _ => id) ?_
  rintro read middle value reaches ⟨rfl, rfl⟩
  exact later middle reaches

theorem expectOr {kind : TokenKind} {blame : Token → Fault} {next : Token → Parser α}
    (closed : cursor.IsClosed) (word : kind ≠ .endOfInput)
    (blames : (blame cursor.current).Blames cursor.current) (begins : begun [])
    (later : ∀ middle, cursor.current.kind = kind → cursor.Reaches [cursor.current] middle →
      middle.IsClosed →
      Ends (next cursor.current) settings middle (fun more => begun (cursor.current :: more))
        (fun more => done (cursor.current :: more))) :
    Ends (Parser.expectOr kind blame >>= next) settings cursor begun done := by
  rw [Parser.expectOr, bind_assoc]
  refine .current ?_
  split
  · next same =>
      rw [bind_assoc]
      exact .advance closed (same ▸ word) fun middle reaches =>
        later middle same reaches (reaches.isClosed closed)
  · exact .failed rfl (.refl cursor) blames begins

theorem expect {kind : TokenKind} {next : Token → Parser α}
    (closed : cursor.IsClosed) (word : kind ≠ .endOfInput) (begins : begun [])
    (later : ∀ middle, cursor.current.kind = kind → cursor.Reaches [cursor.current] middle →
      middle.IsClosed →
      Ends (next cursor.current) settings middle (fun more => begun (cursor.current :: more))
        (fun more => done (cursor.current :: more))) :
    Ends (Parser.expect kind >>= next) settings cursor begun done :=
  .expectOr closed word (.unexpected _) begins later

theorem skipComma {next : Unit → Parser α} (closed : cursor.IsClosed)
    (later : ∀ comma middle, OptionalComma comma → cursor.Reaches comma middle →
      middle.IsClosed →
      Ends (next ()) settings middle (fun more => begun (comma ++ more))
        (fun more => done (comma ++ more))) :
    Ends (Parser.skipComma >>= next) settings cursor begun done := by
  rw [Parser.skipComma, bind_assoc]
  refine .current ?_
  split
  · next comma =>
      rw [bind_assoc]
      exact .advance closed (by rw [comma]; decide) fun middle reaches =>
        later [cursor.current] middle (.present _ comma) reaches (reaches.isClosed closed)
  · exact later [] cursor .absent (.refl cursor) closed

/-- One level deeper, a run ends as it does there. -/
theorem nested {parser : Parser α} (begins : begun [])
    (inner : cursor.depth < settings.maxDepth →
      Ends parser settings { cursor with depth := cursor.depth + 1 } begun done) :
    Ends (Parser.nested parser) settings cursor begun done := by
  by_cases full : settings.maxDepth ≤ cursor.depth
  · exact .failed (by rw [run_nested, if_pos full]) (.refl cursor) (.tooDeep _ _) begins
  · cases inner (Nat.lt_of_not_le full) with
    | @done read stop value ran reaches holds =>
        have left : (Parser.nested parser).run settings cursor =
            (.ok value, { stop with depth := stop.depth - 1 }) := by
          rw [run_nested, if_neg full, ran]
        exact .done left ⟨reaches.remaining, by rw [reaches.depth]; rfl, reaches.unfinished⟩ holds
    | @failed read stop fault ran reaches blames begins =>
        have left : (Parser.nested parser).run settings cursor =
            (.error fault, { stop with depth := stop.depth - 1 }) := by
          rw [run_nested, if_neg full, ran]
        exact .failed left ⟨reaches.remaining, by rw [reaches.depth]; rfl, reaches.unfinished⟩
          blames begins

end Ends

end Parser

end ExprLang
