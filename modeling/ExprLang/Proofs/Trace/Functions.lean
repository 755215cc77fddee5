import ExprLang.Proofs.Grammar.Contents
import ExprLang.Proofs.Parser.Movement

/-!
# Recorded functions

A function is recorded as soon as its definition is complete, so inner functions come
before the outer ones. Along the constructions of parsers it is kept that the functions
recorded on the way to a result are those of the result, in order. The only definitions
that are recorded and then lost stand before an operator or a parenthesis that the end
of the input follows, and a stream that asks for no operand there has none of these.
-/

namespace ExprLang

/-! ## Functions of nodes -/

mutual

/--
The functions that are defined in a node with the numbers of their parameters, inner
ones before outer ones and otherwise from left to right.
-/
def Node.functions : Node → List (String × Nat)
  | .number _ => []
  | .variable _ => []
  | .call _ arguments => argumentFunctions arguments
  | .binary _ lhs rhs => lhs.functions ++ rhs.functions
  | .function name parameters _ body => body.functions ++ [(name, parameters.length)]
  | .bareReturn => []
  | .returning value => value.functions

def argumentFunctions : List (String × Node) → List (String × Nat)
  | [] => []
  | (_, value) :: rest => value.functions ++ argumentFunctions rest

end

theorem argumentFunctions_append (first second : List (String × Node)) :
    argumentFunctions (first ++ second) = argumentFunctions first ++ argumentFunctions second := by
  induction first with
  | nil => rfl
  | cons argument rest ih =>
      rw [List.cons_append, argumentFunctions, argumentFunctions, ih, List.append_assoc]

/-- An operation whose right operand has taken in more to the right, as it is itself to do. -/
theorem Node.functions_of_binary {operator : Operator} {lhs rhs grown node : Node}
    {own others : List (String × Nat)} (more : List (String × Nat)) (given : own = rhs.functions)
    (same : grown.functions = rhs.functions ++ more)
    (whole : node.functions = (Node.binary operator lhs grown).functions ++ others) :
    node.functions = lhs.functions ++ (own ++ (more ++ others)) := by
  rw [whole, Node.functions, same, given]
  simp only [List.append_assoc]

/-- The functions of an item; the entry point around an expression is none of them. -/
def Item.functions : Item → List (String × Nat)
  | .definition node => node.functions
  | .expression body => body.functions

/-- The function that an event records, and the number of its parameters. -/
def Event.function? : Event → Option (String × Nat)
  | .definedFunction name parameterCount => some (name, parameterCount)
  | _ => none

namespace Cursor

/-- The functions that have been recorded, in order. -/
def functions (cursor : Cursor) : List (String × Nat) :=
  cursor.events.filterMap Event.function?

theorem functions_note (cursor : Cursor) (event : Event) :
    (cursor.note event).functions = cursor.functions ++ event.function?.toList := by
  rw [functions, events, note, List.reverse_cons, List.filterMap_append]
  cases function : event.function? <;> simp [function, functions, events]

theorem functions_step (cursor : Cursor) (token : Token) (rest : List Token) :
    (cursor.step token rest).functions = cursor.functions := by
  rw [functions, events, step, List.reverse_cons, List.filterMap_append]
  exact List.append_nil _

/-! ## Complete streams -/

/-- The last token ahead before the end of the input does not ask for an operand. -/
def IsComplete (cursor : Cursor) : Prop :=
  ∀ last ∈ (beforeEnd cursor.remaining).getLast?, ¬ last.AsksForOperand

variable {start stop : Cursor} {read : List Token}

theorem Reaches.isComplete (reaches : start.Reaches read stop) (complete : start.IsComplete) :
    stop.IsComplete := by
  intro last final
  apply complete last
  have whole : beforeEnd start.remaining = read ++ beforeEnd stop.remaining := by
    rw [reaches.remaining, beforeEnd, List.takeWhile_append_of_pos]
    · rfl
    · intro token member
      exact bne_iff_ne.mpr (reaches.unfinished token member)
  rw [whole]
  exact List.mem_getLast?_append_of_mem_getLast? final

/-- After a token that asks for an operand, the input is not over. -/
theorem IsComplete.unfinished (complete : start.IsComplete)
    (reaches : start.Reaches [start.current] stop) (asks : start.current.AsksForOperand) :
    stop.current.kind ≠ .endOfInput := by
  intro ended
  refine complete start.current ?_ asks
  rw [reaches.beforeEnd_remaining ended]
  rfl

end Cursor

/-- An operator with a precedence asks for an operand. -/
theorem Token.asksForOperand_of_precedence {token : Token} {precedence : Int} {operator : Operator}
    (found : token.precedence = .ok precedence) (denoted : token.operator? = some operator) :
    token.AsksForOperand := by
  rcases precedence_cases found with ⟨none, _⟩ | ⟨other, denoted, ⟨additive, _⟩ | ⟨product, _⟩⟩
  · rw [none] at denoted
    cases denoted
  · exact .inr ⟨other, denoted, .inl additive⟩
  · exact .inr ⟨other, denoted, .inr product⟩

/-! ## Tellings -/

namespace Parser

variable {α β : Type}

/--
On its way to a result, a run over a complete stream reads tokens before the end of
the input, and the functions that it records are related to the result.
-/
def Tells (parser : Parser α) (settings : Settings) (cursor : Cursor)
    (holds : List (String × Nat) → α → Prop) : Prop :=
  cursor.IsComplete → ∀ value stop, parser.run settings cursor = (.ok value, stop) →
    ∃ read functions, cursor.Reaches read stop ∧
      stop.functions = cursor.functions ++ functions ∧ holds functions value

namespace Tells

variable {settings : Settings} {cursor : Cursor} {holds : List (String × Nat) → α → Prop}

theorem imp {parser : Parser α} {holds' : List (String × Nat) → α → Prop}
    (tells : Tells parser settings cursor holds')
    (wider : ∀ functions value, holds' functions value → holds functions value) :
    Tells parser settings cursor holds := by
  intro complete value stop ran
  obtain ⟨read, functions, reaches, told, given⟩ := tells complete value stop ran
  exact ⟨read, functions, reaches, told, wider functions value given⟩

theorem pure {value : α} (given : holds [] value) :
    Tells (Pure.pure value) settings cursor holds := by
  intro _ other stop ran
  cases ran
  exact ⟨[], [], .refl cursor, (List.append_nil _).symm, given⟩

theorem fail {fault : Fault} : Tells (Parser.fail fault) settings cursor holds := by
  intro _ value stop ran
  cases ran

theorem unexpected {message : String} :
    Tells (Parser.unexpected message) settings cursor holds := by
  intro _ value stop ran
  cases ran

/-- What is recorded in the first part comes before what is recorded in the second one. -/
theorem bind {first : Parser β} {next : β → Parser α} {holds' : List (String × Nat) → β → Prop}
    (tells : Tells first settings cursor holds')
    (later : ∀ functions middle value, holds' functions value →
      Tells (next value) settings middle fun more => holds (functions ++ more)) :
    Tells (first >>= next) settings cursor holds := by
  intro complete value stop ran
  cases start : first.run settings cursor with
  | mk result middle =>
      cases result with
      | error fault =>
          rw [run_bind_of_error start] at ran
          cases ran
      | ok given =>
          rw [run_bind_of_ok start] at ran
          obtain ⟨read, functions, reaches, told, given'⟩ := tells complete given middle start
          obtain ⟨more, others, reaches', told', whole⟩ :=
            later functions middle given given' (reaches.isComplete complete) value stop ran
          refine ⟨read ++ more, functions ++ others, reaches.trans reaches', ?_, whole⟩
          rw [told', told, List.append_assoc]

theorem current {next : Token → Parser α}
    (later : Tells (next cursor.current) settings cursor holds) :
    Tells (Parser.current >>= next) settings cursor holds :=
  later

theorem ofExcept {result : Except Fault β} {next : β → Parser α}
    (later : ∀ value, result = .ok value → Tells (next value) settings cursor holds) :
    Tells (Parser.ofExcept result >>= next) settings cursor holds := by
  cases result with
  | error fault =>
      intro _ value stop ran
      rw [run_bind_of_error (run_ofExcept _ settings cursor)] at ran
      cases ran
  | ok value => exact later value rfl

theorem note {event : Event} {next : Unit → Parser α}
    (later : ∀ middle, Tells (next ()) settings middle
      fun more => holds (event.function?.toList ++ more)) :
    Tells (Parser.note event >>= next) settings cursor holds := by
  have noted : Tells (Parser.note event) settings cursor
      fun functions _ => functions = event.function?.toList := by
    intro _ value stop ran
    cases ran
    exact ⟨[], _, .note cursor event, cursor.functions_note event, rfl⟩
  refine noted.bind ?_
  rintro functions middle _ rfl
  exact later middle

theorem advance {next : Token → Parser α} (unfinished : cursor.current.kind ≠ .endOfInput)
    (later : ∀ middle, (cursor.current.AsksForOperand → middle.current.kind ≠ .endOfInput) →
      Tells (next middle.current) settings middle holds) :
    Tells (Parser.advance >>= next) settings cursor holds := by
  intro complete value stop ran
  cases unread : cursor.unread with
  | nil =>
      rw [run_bind_of_error (run_advance_of_nil unread)] at ran
      cases ran
  | cons token rest =>
      rw [run_bind_of_ok (run_advance_of_cons unread)] at ran
      have step := Cursor.Reaches.step cursor unread unfinished
      obtain ⟨read, functions, reaches, told, given⟩ :=
        later (cursor.step token rest) (complete.unfinished step) (step.isComplete complete)
          value stop ran
      rw [Cursor.functions_step] at told
      exact ⟨_, functions, step.trans reaches, told, given⟩

theorem expectOr {kind : TokenKind} {blame : Token → Fault} {next : Token → Parser α}
    (word : kind ≠ .endOfInput)
    (later : ∀ middle, (cursor.current.AsksForOperand → middle.current.kind ≠ .endOfInput) →
      cursor.current.kind = kind → Tells (next cursor.current) settings middle holds) :
    Tells (Parser.expectOr kind blame >>= next) settings cursor holds := by
  rw [Parser.expectOr, bind_assoc]
  refine .current ?_
  split
  · next same =>
      rw [bind_assoc]
      exact .advance (same ▸ word) fun middle unfinished => later middle unfinished same
  · exact fail

theorem skipComma {next : Unit → Parser α}
    (later : ∀ middle, Tells (next ()) settings middle holds) :
    Tells (Parser.skipComma >>= next) settings cursor holds := by
  rw [Parser.skipComma, bind_assoc]
  refine .current ?_
  split
  · next comma =>
      rw [bind_assoc]
      exact .advance (by rw [comma]; decide) fun middle _ => later middle
  · exact later cursor

theorem nested {parser : Parser α}
    (inner : Tells parser settings { cursor with depth := cursor.depth + 1 } holds) :
    Tells (Parser.nested parser) settings cursor holds := by
  intro complete value stop ran
  rw [run_nested] at ran
  split at ran
  · cases ran
  · dsimp only at ran
    cases inside : parser.run settings { cursor with depth := cursor.depth + 1 } with
    | mk result middle =>
        rw [inside] at ran
        cases ran
        obtain ⟨read, functions, reaches, told, given⟩ := inner complete value middle inside
        exact ⟨read, functions, ⟨reaches.remaining, by rw [reaches.depth]; rfl, reaches.unfinished⟩,
          told, given⟩

/-- A recursion tells what its step does with any parser for the recursive calls. -/
theorem recurse (holds : β → Token → List (String × Nat) → α → Prop)
    {step : (β → Parser α) → β → Parser α}
    (kept : ∀ again,
      (∀ argument settings cursor,
        Tells (again argument) settings cursor (holds argument cursor.current)) →
      ∀ argument settings cursor,
        Tells (step again argument) settings cursor (holds argument cursor.current))
    (argument : β) (settings : Settings) (cursor : Cursor) :
    Tells (Parser.recurse step argument) settings cursor (holds argument cursor.current) := by
  have rounds : ∀ count argument settings cursor,
      Tells (unroll step count argument) settings cursor (holds argument cursor.current) := by
    intro count
    induction count with
    | zero =>
        intro argument settings cursor _ value stop ran
        cases ran
    | succ count ih =>
        intro argument settings cursor
        rw [unroll_succ]
        exact kept _ ih argument settings cursor
  exact rounds (cursor.unread.length + 1) argument settings cursor

end Tells

/-! ## Rules -/

/-- Every run records nothing on its way to a result. -/
def TellsNothing (parser : Parser α) : Prop :=
  ∀ settings cursor, Tells parser settings cursor fun functions _ => functions = []

/-- Every run records the functions of the node that it gives. -/
def TellsNode (parser : Parser Node) : Prop :=
  ∀ settings cursor, Tells parser settings cursor fun functions node => functions = node.functions

/-- The functions are those of the node, which is missing only if the input is over at the start. -/
def AreOfNode? (start : Token) (functions : List (String × Nat)) : Option Node → Prop
  | none => start.kind = .endOfInput ∧ functions = []
  | some node => functions = node.functions

def TellsNode? (parser : Parser (Option Node)) : Prop :=
  ∀ settings cursor, Tells parser settings cursor (AreOfNode? cursor.current)

/-- A result that is found is not missing. -/
theorem TellsNode.map_some {parser : Parser Node} (tells : TellsNode parser) :
    TellsNode? (do return some (← parser)) := by
  intro settings cursor
  refine (tells settings cursor).bind ?_
  rintro functions middle node rfl
  exact .pure (List.append_nil _)

namespace Rule

theorem tells_returnType : TellsNothing returnType := by
  intro settings cursor
  refine .expectOr (by decide) fun middle _ _ => ?_
  dsimp only
  split
  · exact .note fun _ => .pure rfl
  · exact .pure rfl

theorem tells_parameter : TellsNothing parameter :=
  fun _ _ => .expectOr (by decide) fun _ _ _ => .expectOr (by decide) fun _ _ _ =>
    .expectOr (by decide) fun _ _ _ => .skipComma fun _ => .pure rfl

theorem tells_parameters : TellsNothing parameters := by
  refine Tells.recurse (fun _ _ functions _ => functions = []) ?_ []
  refine fun again call done settings cursor => .current ?_
  split
  · exact .pure rfl
  · refine (tells_parameter settings cursor).bind ?_
    rintro _ middle parameter rfl
    exact call _ settings middle

theorem tells_number : TellsNode number := by
  refine fun settings cursor => .current ?_
  split
  · next isNumber =>
      split
      · exact .fail
      · refine .advance ?_ fun _ _ => .pure rfl
        rcases (isNumber_iff _).mp isNumber with kind | kind <;> rw [kind] <;> decide
  · exact .unexpected

section Nested

variable {expression : Parser (Option Node)} (inner : TellsNode? expression)

include inner

theorem tells_body : TellsNode (body expression) := by
  refine fun settings cursor => .expectOr (by decide) fun middle _ _ => ?_
  refine (inner settings middle).bind fun functions last value? given => ?_
  cases value? with
  | none => exact .unexpected
  | some value =>
      refine .expectOr (by decide) fun _ _ _ => .pure ?_
      rw [List.append_nil]
      exact given

/-- A function is recorded after those of its body. -/
theorem tells_definition : TellsNode (definition expression) := by
  refine fun settings cursor => .expectOr (by decide) fun _ _ _ =>
    .expectOr (by decide) fun _ _ _ => .expectOr (by decide) fun opened _ _ => ?_
  refine (tells_parameters settings opened).bind ?_
  rintro _ _ parameters rfl
  refine .expectOr (by decide) fun _ _ _ => .expectOr (by decide) fun pointed _ _ => ?_
  refine (tells_returnType settings pointed).bind ?_
  rintro _ typed type rfl
  refine (tells_body inner settings typed).bind ?_
  rintro _ _ value rfl
  exact .note fun _ => .pure rfl

theorem tells_argument (settings : Settings) (cursor : Cursor) :
    Tells (argument expression) settings cursor
      fun functions argument => functions = argument.2.functions := by
  refine .expectOr (by decide) fun _ _ _ => .expectOr (by decide) fun middle _ _ => ?_
  refine (inner settings middle).bind fun functions last value? given => ?_
  cases value? with
  | none => exact .unexpected
  | some value =>
      refine .pure ?_
      rw [List.append_nil]
      exact given

/-- The arguments already read come before those whose functions are still to be recorded. -/
theorem tells_arguments_after (done : List (String × Node)) (settings : Settings)
    (cursor : Cursor) :
    Tells (recurse (argumentsStep expression) done) settings cursor fun functions arguments =>
      argumentFunctions arguments = argumentFunctions done.reverse ++ functions := by
  refine Tells.recurse (fun done _ functions arguments =>
    argumentFunctions arguments = argumentFunctions done.reverse ++ functions) ?_ done settings
    cursor
  refine fun again call done settings cursor => .current ?_
  split
  · exact .pure (List.append_nil _).symm
  · refine .skipComma fun middle => (tells_argument inner settings middle).bind ?_
    rintro _ last next rfl
    refine (call _ settings last).imp fun functions arguments same => ?_
    rw [same, List.reverse_cons, argumentFunctions_append, List.append_assoc]
    simp only [argumentFunctions, List.append_nil]

theorem tells_arguments (settings : Settings) (cursor : Cursor) :
    Tells (arguments expression) settings cursor
      fun functions arguments => functions = argumentFunctions arguments :=
  (tells_arguments_after inner [] settings cursor).imp fun _ _ same => same.symm

theorem tells_identifier : TellsNode (identifier expression) := by
  rw [identifier_eq]
  refine fun settings cursor => .current ?_
  split
  · refine .expectOr (by decide) fun named _ _ => .current ?_
    split
    · refine .expectOr (by decide) fun opened _ _ => ?_
      refine (tells_arguments inner settings opened).bind ?_
      rintro _ last arguments rfl
      refine .expectOr (by decide) fun _ _ _ => .pure ?_
      rw [List.append_nil]
      rfl
    · exact .pure rfl
  · exact .unexpected

/-- Something must follow an opening parenthesis, since it asks for an operand. -/
theorem tells_parenthesised : TellsNode? (parenthesised expression) := by
  refine fun settings cursor => .expectOr (by decide) fun middle unfinished opened => ?_
  refine (inner settings middle).bind fun functions last value? given => ?_
  cases value? with
  | none => exact absurd given.1 (unfinished (.inl opened))
  | some value =>
      refine .expectOr (by decide) fun _ _ _ => .pure ?_
      rw [List.append_nil]
      exact given

theorem tells_returned : TellsNode (returned expression) := by
  refine fun settings cursor => .expectOr (by decide) fun middle _ _ => .current ?_
  split
  · refine (inner settings middle).bind fun functions last value? given => ?_
    cases value? with
    | none =>
        obtain ⟨_, rfl⟩ := given
        exact .pure rfl
    | some value =>
        refine .pure ?_
        rw [List.append_nil]
        exact given
  · exact .pure rfl

theorem tells_primary : TellsNode? (primary expression) := by
  intro settings cursor
  apply Tells.current
  cases kind : cursor.current.kind with
  | identifier => exact (tells_identifier inner).map_some settings cursor
  | integerLiteral => exact tells_number.map_some settings cursor
  | floatingLiteral => exact tells_number.map_some settings cursor
  | leftParen => exact tells_parenthesised inner settings cursor
  | funcWord => exact (tells_definition inner).map_some settings cursor
  | returnWord => exact (tells_returned inner).map_some settings cursor
  | ifWord =>
      intro _ value stop ran
      cases ran
  | endOfInput => exact .pure ⟨kind, rfl⟩
  | _ => exact .fail

end Nested

/-- The functions of a chain are those of its operands, also where these are grouped anew. -/
theorem tells_climb {operand : Parser (Option Node)} (inner : TellsNode? operand) (least : Int)
    (lhs : Node) (settings : Settings) (cursor : Cursor) :
    Tells (climb operand least lhs) settings cursor
      fun functions node? => ∃ node ∈ node?, node.functions = lhs.functions ++ functions := by
  refine Tells.recurse (fun (argument : Int × Node) _ functions (node? : Option Node) =>
    ∃ node ∈ node?, node.functions = argument.2.functions ++ functions) ?_ (least, lhs) settings
    cursor
  rintro again call ⟨least, lhs⟩ settings cursor
  have ends : ∃ node ∈ some lhs, node.functions = lhs.functions ++ [] :=
    ⟨lhs, rfl, (List.append_nil _).symm⟩
  refine .current (.ofExcept fun precedence found => ?_)
  split
  · exact .pure ends
  · split
    · exact .pure ends
    · next operator denoted =>
        have asks := Token.asksForOperand_of_precedence found denoted
        refine .advance (Token.kind_ne_endOfInput_of_operator? denoted) fun first unfinished => ?_
        refine (inner settings first).bind fun functions second rhs? given => ?_
        cases rhs? with
        | none => exact absurd given.1 (unfinished asks)
        | some rhs =>
            refine .current (.ofExcept fun tighter _ => ?_)
            split
            · refine .note fun third => (call _ settings third).bind ?_
              rintro more fourth _ ⟨rhs', rfl, same⟩
              refine (call _ settings fourth).imp ?_
              rintro others _ ⟨node, rfl, whole⟩
              exact ⟨node, rfl, Node.functions_of_binary more given same whole⟩
            · refine (call _ settings second).imp ?_
              rintro others _ ⟨node, rfl, whole⟩
              exact ⟨node, rfl, Node.functions_of_binary [] given (List.append_nil _).symm whole⟩

end Rule

/-- A level of expressions tells what its first operand and the chain after it tell. -/
theorem tells_expression : TellsNode? expression := by
  refine Tells.recurse (fun _ start => AreOfNode? start) (fun again call _ settings cursor => ?_) ()
  have operand := Rule.tells_primary (call ())
  refine .nested ((operand settings _).bind fun functions middle lhs? given => ?_)
  cases lhs? with
  | none =>
      obtain ⟨ended, rfl⟩ := given
      exact .pure ⟨ended, rfl⟩
  | some lhs =>
      refine (Rule.tells_climb operand 0 lhs settings middle).imp ?_
      rintro more _ ⟨node, rfl, same⟩
      rw [AreOfNode?, same, given]

end Parser

end ExprLang
