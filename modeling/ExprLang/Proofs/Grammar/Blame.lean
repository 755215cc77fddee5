import ExprLang.Proofs.Grammar.Recognition

/-!
# Blame

A fault of the parser stands at the token that the parser stops at and carries
its text. If this token is unexpected, it is the first one that makes the input
wrong: whatever follows it, no limit of nesting lets the parser accept the
input, while all that comes before it is the beginning of a program.
-/

namespace ExprLang

/-- The text of a token that a cause carries. -/
def Cause.tokenText? : Cause → Option String
  | .unrecognisedToken token => some token
  | .unexpectedToken token => some token
  | .unexpectedTokenDetailed token _ => some token
  | .unreadableNumber token => some token
  | _ => none

/-- Whether a cause is that of a token which should not stand where it does. -/
def Cause.IsUnexpected : Cause → Prop
  | .unexpectedToken _ => True
  | .unexpectedTokenDetailed _ _ => True
  | _ => False

/-- Whether parsing a stream gives the items of a program. -/
def Accepts (settings : Settings) (tokens : List Token) : Prop :=
  ∃ nodes, (parse settings tokens).outcome = .ok nodes

namespace Fault.Blames

variable {fault : Fault} {token : Token}

theorem position_eq (blames : fault.Blames token) : fault.position = token.span.start := by
  cases blames <;> rfl

theorem eq_value (blames : fault.Blames token) :
    ∀ text ∈ fault.cause.tokenText?, text = token.value := by
  intro text carried
  cases blames with
  | unexpected => exact (Option.some.inj carried).symm
  | unexpectedWith => exact (Option.some.inj carried).symm
  | unreadable => exact (Option.some.inj carried).symm
  | notImplemented => cases carried
  | tooDeep => cases carried

end Fault.Blames

theorem Fault.not_isTooDeep_of_isUnexpected {fault : Fault}
    (unexpected : fault.cause.IsUnexpected) : ¬ fault.IsTooDeep := by
  rintro ⟨limit, cause⟩
  rw [cause] at unexpected
  exact unexpected

/-- Gathering the items does not depend on the tokens after the one that it stops at. -/
theorem Parser.run_items_of_remaining {settings settings' : Settings} {start stop start' : Cursor}
    {progress : Progress} {result : Except Fault Progress} {read more : List Token}
    (ran : (recurse itemsStep progress).run settings start = (result, stop))
    (keep : settings.Keep settings' result) (depth : start'.depth = start.depth)
    (ahead : start.remaining = read ++ stop.remaining)
    (ahead' : start'.remaining = read ++ stop.current :: more)
    (ends : stop.current.kind ≠ .endOfInput → (more = [] ↔ stop.unread = [])) :
    ∃ stop', (recurse itemsStep progress).run settings' start' = (result, stop') := by
  have mirrored : ∀ ahead bound,
      Mirrored ahead bound (recurse itemsStep progress) (recurse itemsStep progress) :=
    fun _ _ => guarded_itemsStep.mirrored_recurse progress
  obtain ⟨trace, result⟩ := Mirrored.run_of_remaining mirrored ran keep depth ahead ahead' ends
  exact ⟨_, result⟩

/--
If gathering the items fails, but not at the limit of nesting, then no stream
with the same tokens up to the one that it stops at is accepted.
-/
theorem not_accepts_of_failed {settings settings' : Settings} {start stop : Cursor} {fault : Fault}
    {read more : List Token} (closed : start.IsClosed) (outermost : start.depth = 0)
    (ran : (Parser.recurse Parser.itemsStep ⟨[], 0⟩).run settings start = (.error fault, stop))
    (reaches : start.Reaches read stop) (shallow : ¬ fault.IsTooDeep)
    (file : settings'.file = settings.file) :
    ¬ Accepts settings' (read ++ stop.current :: more) := by
  rintro ⟨nodes, accepted⟩
  obtain ⟨first, rest, read', stop', shape, ends', ran', reaches', _, _⟩ :=
    exists_run_of_outcome_parse accepted
  have between : (Cursor.start first rest).Reaches read ⟨stop.current, more, 0, []⟩ :=
    ⟨shape.symm, rfl, reaches.unfinished⟩
  have goesOn : stop.current.kind ≠ .endOfInput → (more = [] ↔ stop.unread = []) := by
    intro unfinished
    obtain ⟨_, _, unread⟩ := (reaches.isClosed closed).unread_ne_nil unfinished
    obtain ⟨_, _, unread'⟩ :=
      (between.isClosed (Cursor.isClosed_start ends')).unread_ne_nil unfinished
    have unread' : more = _ := unread'
    rw [unread, unread']
    constructor <;> nofun
  -- with the higher one of the two limits, both runs end as they did
  let higher : Settings := ⟨settings.file, max settings.maxDepth settings'.maxDepth⟩
  have keep : settings.Keep higher (.error fault : Except Fault Parser.Progress) :=
    .of_error rfl (Nat.le_max_left _ _) shallow
  have keep' : settings'.Keep higher (.ok ⟨nodes.reverse, 0⟩ : Except Fault Parser.Progress) :=
    .of_ok file.symm (Nat.le_max_right _ _)
  obtain ⟨_, fails⟩ := Parser.run_items_of_remaining ran keep outermost.symm reaches.remaining
    between.remaining goesOn
  obtain ⟨_, succeeds⟩ := Parser.run_items_of_remaining ran' keep' rfl reaches'.remaining
    reaches'.remaining fun _ => Iff.rfl
  rw [fails] at succeeds
  cases succeeds

/-- The tokens are a program before the end of the input, and the parser accepts it. -/
theorem accepts_of_beginsProgram {file : String} {read : List Token} (begins : BeginsProgram read) :
    ∃ more closing maxDepth, closing.kind = .endOfInput ∧
      (∀ token ∈ read ++ more, token.kind ≠ .endOfInput) ∧
      (∀ last ∈ (read ++ more).getLast?, ¬ last.AsksForOperand) ∧
      Accepts ⟨file, maxDepth⟩ (read ++ more ++ [closing]) := by
  obtain ⟨more, levels, complete⟩ := begins
  obtain ⟨nodes, items⟩ := complete (.sample .endOfInput) rfl
  exact ⟨more, .sample .endOfInput, levels, rfl, items.kind_ne_endOfInput,
    items.not_asksForOperand, nodes, outcome_parse_of_items items rfl (Nat.le_refl _)⟩

/--
A failing parser blames the token that it stops at. If this token is unexpected,
no stream that begins in the same way up to it is accepted, whatever the limit
of nesting, while the tokens before it can be continued to an accepted stream
in which nothing is truncated.
-/
theorem blames_of_run_program {settings : Settings} {tokens : List Token} {start stop : Cursor}
    {fault : Fault} (made : Cursor.ofTokens settings.file tokens = .ok start)
    (failed : Parser.program.run settings start = (.error fault, stop)) :
    ∃ index, tokens.drop index = stop.current :: stop.unread ∧
      fault.position = stop.current.span.start ∧
      (∀ text ∈ fault.cause.tokenText?, text = stop.current.value) ∧
      (fault.cause.IsUnexpected →
        (∀ (settings' : Settings) (stream : List Token), settings'.file = settings.file →
          tokens.take (index + 1) <+: stream → ¬ Accepts settings' stream) ∧
        ∃ more closing maxDepth, closing.kind = .endOfInput ∧
          (∀ token ∈ tokens.take index ++ more, token.kind ≠ .endOfInput) ∧
          (∀ last ∈ (tokens.take index ++ more).getLast?, ¬ last.AsksForOperand) ∧
          Accepts ⟨settings.file, maxDepth⟩ (tokens.take index ++ more ++ [closing])) := by
  obtain ⟨first, rest, rfl, rfl, ends⟩ := Cursor.exists_of_ofTokens made
  have closed := Cursor.isClosed_start ends
  rw [Parser.run_program] at failed
  cases Parser.ends_items closed (Nat.sub_zero settings.maxDepth) ⟨[], 0⟩ with
  | done ran _ _ =>
      rw [ran] at failed
      cases failed
  | @failed read _ _ ran reaches blames begins =>
      rw [ran] at failed
      cases failed
      have whole : first :: rest = read ++ stop.current :: stop.unread := reaches.remaining
      have front : (first :: rest).take read.length = read := by rw [whole, List.take_left]
      refine ⟨read.length, by rw [whole, List.drop_left], blames.position_eq, blames.eq_value, ?_⟩
      intro unexpected
      constructor
      · rintro settings' stream file ⟨more, rfl⟩
        have shape : (first :: rest).take (read.length + 1) = read ++ [stop.current] := by
          rw [whole, List.take_append, List.take_of_length_le (Nat.le_succ _)]
          simp
        rw [shape, List.append_assoc]
        exact not_accepts_of_failed closed rfl ran reaches
          (Fault.not_isTooDeep_of_isUnexpected unexpected) file
      · rw [front]
        exact accepts_of_beginsProgram begins

/-- No program has a comma after its first name, though a name is a program. -/
theorem not_accepts_name_comma :
    (∀ (settings : Settings) (more : List Token), settings.file = "" →
      ¬ Accepts settings (.sample .identifier :: .sample .comma :: more)) ∧
    ∃ more closing maxDepth,
      Accepts ⟨"", maxDepth⟩ (.sample .identifier :: (more ++ [closing])) := by
  obtain ⟨index, dropped, _, _, unexpected⟩ := blames_of_run_program
    (show Cursor.ofTokens (Settings.mk "" 1).file
      [.sample .identifier, .sample .comma, .sample .endOfInput] = .ok _ from rfl)
    (show Parser.program.run _ _ = (.error (Token.sample .comma).unexpected,
      ⟨.sample .comma, [.sample .endOfInput], 0, _⟩) from rfl)
  have lengths := congrArg List.length dropped
  have second : index = 1 := by
    simp only [List.length_drop, List.length_cons, List.length_nil] at lengths
    omega
  subst second
  obtain ⟨rejects, more, closing, maxDepth, _, _, _, accepts⟩ := unexpected trivial
  exact ⟨fun settings after file => rejects settings _ file ⟨after, rfl⟩,
    more, closing, maxDepth, accepts⟩

end ExprLang
