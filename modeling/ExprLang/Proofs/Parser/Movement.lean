import ExprLang.Proofs.Parser.Ending

/-!
# Movements

What the rules do to a cursor, step by step: they read past a token that is not
the end of the input, they note an event, and they go one level of nesting
deeper and come back. What each of these steps keeps is kept by a whole run, so
facts about all runs of all rules are shown by induction on movements. One of them
is that the tokens that are read are recorded once each, in order.
-/

namespace ExprLang

/-- The events that the rules for expressions note besides the tokens that they read. -/
inductive Event.IsOfRules : Event → Prop where
  | yielded (operator : Operator) (precedence tighter : Int) :
      IsOfRules (.yielded operator precedence tighter)
  | unknownReturnType (token : Token) : IsOfRules (.unknownReturnType token)
  | definedFunction (name : String) (parameterCount : Nat) :
      IsOfRules (.definedFunction name parameterCount)

/-- The token that an event records as read. -/
def Event.token? : Event → Option Token
  | .read token => some token
  | _ => none

theorem Event.IsOfRules.token?_eq_none {event : Event} (sort : event.IsOfRules) :
    event.token? = none := by
  cases sort <;> rfl

namespace Cursor

/-- The tokens that have been read, in order. -/
def reads (cursor : Cursor) : List Token :=
  cursor.events.filterMap Event.token?

/--
The second cursor comes of the first one by reading the tokens: they were the next
ones to come, and each of them is recorded once, in order.
-/
structure Consumes (start : Cursor) (tokens : List Token) (stop : Cursor) : Prop where
  unread : start.unread = tokens ++ stop.unread
  reads : stop.reads = start.reads ++ tokens

namespace Consumes

variable {tokens more : List Token} {start middle stop : Cursor}

theorem refl (cursor : Cursor) : cursor.Consumes [] cursor :=
  ⟨rfl, (List.append_nil _).symm⟩

theorem trans (toMiddle : start.Consumes tokens middle) (toStop : middle.Consumes more stop) :
    start.Consumes (tokens ++ more) stop where
  unread := by rw [toMiddle.unread, toStop.unread, List.append_assoc]
  reads := by rw [toStop.reads, toMiddle.reads, List.append_assoc]

theorem step (cursor : Cursor) {token : Token} {rest : List Token}
    (more : cursor.unread = token :: rest) : cursor.Consumes [token] (cursor.step token rest) where
  unread := more
  reads := by simp [Cursor.reads, Cursor.events, Cursor.step, Event.token?]

theorem note (cursor : Cursor) {event : Event} (silent : event.token? = none) :
    cursor.Consumes [] (cursor.note event) where
  unread := rfl
  reads := by simp [Cursor.reads, Cursor.events, Cursor.note, silent]

theorem length_eq (consumes : start.Consumes tokens stop) :
    start.unread.length = tokens.length + stop.unread.length := by
  rw [consumes.unread, List.length_append]

theorem length_pos (consumes : start.Consumes tokens stop)
    (shorter : stop.unread.length < start.unread.length) : 1 ≤ tokens.length := by
  have whole := consumes.length_eq
  omega

end Consumes

/-- The movements of a cursor below a limit of nesting, on which events of one sort are noted. -/
inductive Moves (noted : Event → Prop) (limit : Nat) : Cursor → Cursor → Prop where
  | refl (cursor : Cursor) : Moves noted limit cursor cursor
  | read {start : Cursor} {token : Token} {rest : List Token}
      (unfinished : start.current.kind ≠ .endOfInput) (more : start.unread = token :: rest) :
      Moves noted limit start (start.step token rest)
  | note (start : Cursor) {event : Event} (sort : noted event) :
      Moves noted limit start (start.note event)
  | nested {start stop : Cursor} (room : start.depth < limit)
      (inside : Moves noted limit { start with depth := start.depth + 1 } stop) :
      Moves noted limit start { stop with depth := stop.depth - 1 }
  | trans {start middle stop : Cursor} (first : Moves noted limit start middle)
      (second : Moves noted limit middle stop) : Moves noted limit start stop

namespace Moves

variable {noted noted' : Event → Prop} {limit : Nat} {start stop : Cursor}

theorem mono (moves : start.Moves noted limit stop) (wider : ∀ event, noted event → noted' event) :
    start.Moves noted' limit stop := by
  induction moves with
  | refl cursor => exact .refl cursor
  | read unfinished more => exact .read unfinished more
  | note start sort => exact .note start (wider _ sort)
  | nested room _ ih => exact .nested room ih
  | trans _ _ first second => exact .trans first second

/-- A movement passes over tokens before the end of the input and gives all nesting back. -/
theorem reaches (moves : start.Moves noted limit stop) : ∃ read, start.Reaches read stop := by
  induction moves with
  | refl cursor => exact ⟨[], .refl cursor⟩
  | @read start _ _ unfinished more => exact ⟨[start.current], .step start more unfinished⟩
  | note start _ => exact ⟨[], .note start _⟩
  | nested _ _ ih =>
      obtain ⟨read, inside⟩ := ih
      exact ⟨read, inside.remaining, by rw [inside.depth]; rfl, inside.unfinished⟩
  | trans _ _ first second =>
      obtain ⟨read, toMiddle⟩ := first
      obtain ⟨more, toStop⟩ := second
      exact ⟨read ++ more, toMiddle.trans toStop⟩

/-- On a movement only tokens that are read and events of the given sort are added to the trace. -/
theorem exists_trace (moves : start.Moves noted limit stop) :
    ∃ events, stop.trace = events ++ start.trace ∧
      ∀ event ∈ events, (∃ token, event = .read token) ∨ noted event := by
  induction moves with
  | refl cursor => exact ⟨[], rfl, nofun⟩
  | @read start token _ _ _ =>
      refine ⟨[.read token], rfl, fun event member => .inl ⟨token, ?_⟩⟩
      exact List.mem_singleton.mp member
  | @note start event sort =>
      refine ⟨[event], rfl, fun other member => .inr ?_⟩
      rw [List.mem_singleton.mp member]
      exact sort
  | nested _ _ ih => exact ih
  | trans _ _ first second =>
      obtain ⟨events, same, sorts⟩ := first
      obtain ⟨later, same', sorts'⟩ := second
      refine ⟨later ++ events, by rw [same', same, List.append_assoc], fun event member => ?_⟩
      rcases List.mem_append.mp member with member | member
      · exact sorts' event member
      · exact sorts event member

/-- A movement consumes the tokens that it reads, if nothing else is recorded as read. -/
theorem exists_consumes (moves : start.Moves noted limit stop)
    (silent : ∀ event, noted event → event.token? = none) :
    ∃ tokens, start.Consumes tokens stop := by
  induction moves with
  | refl cursor => exact ⟨[], .refl cursor⟩
  | @read start token _ _ more => exact ⟨[token], .step start more⟩
  | note start sort => exact ⟨[], .note start (silent _ sort)⟩
  | nested _ _ ih =>
      obtain ⟨tokens, inside⟩ := ih
      exact ⟨tokens, inside.unread, inside.reads⟩
  | trans _ _ first second =>
      obtain ⟨tokens, toMiddle⟩ := first
      obtain ⟨more, toStop⟩ := second
      exact ⟨tokens ++ more, toMiddle.trans toStop⟩

end Moves

end Cursor

end ExprLang
