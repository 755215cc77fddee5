import ExprLang.Proofs.Grammar.Truncation
import ExprLang.Proofs.Parser.Ending
import ExprLang.Proofs.Parser.Rules

/-!
# Runs find phrases

Whatever a parser reads from a closed stream is a phrase of its form, complete
or truncated, and if it fails, it has read the beginning of one. The forms
depend on each other, so this is shown by induction on the number of tokens to
come; within a form, the loops over arguments, parameters and operators have
inductions of their own.
-/

namespace ExprLang

/-- What is known of the token after a complete phrase of a form. -/
def Form.Follows : Form → Token → Prop
  | .product, token => token.BindsBelow 21
  | .sum, token => token.operator? = none
  | .expression, token => token.operator? = none
  | _, _ => True

/-- What a parser finds when it reads a phrase of a form that may be truncated. -/
inductive Found (levels : Nat) (form : Form) (read : List Token) (stop : Token) :
    Option form.Value → Prop where
  | complete {value : form.Value} (phrase : Phrase levels form read stop value)
      (follows : form.Follows stop) : Found levels form read stop (some value)
  | truncated {value? : Option form.Value} (truncated : Truncated levels form read value?)
      (ended : stop.kind = .endOfInput) : Found levels form read stop value?

theorem Found.begins {levels : Nat} {form : Form} {read : List Token} {stop : Token}
    {value? : Option form.Value} (found : Found levels form read stop value?) :
    Begins form read := by
  cases found with
  | complete phrase _ => exact .of_phrase phrase
  | truncated truncated _ => exact truncated.begins

namespace Parser

/-- With less than so many tokens to come, the parser finds phrases of the form. -/
def Finds (bound : Nat) (form : Form) (parser : Parser (Option form.Value)) : Prop :=
  ∀ settings cursor, cursor.IsClosed → cursor.unread.length < bound →
    Ends parser settings cursor (Begins form)
      (Found (settings.maxDepth - cursor.depth) form)

variable {bound : Nat} {settings : Settings} {cursor : Cursor}

/-! ## Headers -/

theorem ends_parameters_of_lt (count : Nat) (near : cursor.unread.length < count)
    (closed : cursor.IsClosed) (taken : List Parameter) :
    Ends (recurse Rule.parametersStep taken) settings cursor BeginsParameters
      (fun read _ all => ∃ parameters, all = taken.reverse ++ parameters ∧
        Parameters read parameters) := by
  induction count generalizing cursor taken with
  | zero => exact absurd near (Nat.not_lt_zero _)
  | succ count ih =>
      rw [parameters_eq, Rule.parametersStep]
      refine .current ?_
      split
      · exact .pure ⟨[], (List.append_nil _).symm, .nil⟩
      · rw [Rule.parameter]
        simp only [bind_assoc, pure_bind]
        refine .expectOr closed (by decide) (.unexpectedWith _ _) .nil
          fun first labelled toFirst closed₁ => ?_
        refine .expectOr closed₁ (by decide) (.unexpectedWith _ _) (.label labelled)
          fun second separated toSecond closed₂ => ?_
        refine .expectOr closed₂ (by decide) (.unexpectedWith _ _) (.colon labelled separated)
          fun third typed toThird closed₃ => ?_
        refine .skipComma closed₃ fun comma middle ended toMiddle closed₄ => ?_
        have passed := (toFirst.trans (toSecond.trans (toThird.trans toMiddle))).unread_length
        have nearer : middle.unread.length < count := by
          simp only [List.length_append, List.length_singleton] at passed
          omega
        refine (ih nearer closed₄ _).imp ?_ ?_
        · intro read stop _ begins
          exact .cons labelled separated typed ended begins
        · rintro read stop all _ ⟨parameters, rfl, rest⟩
          refine ⟨_, ?_, .cons labelled separated typed ended rest⟩
          rw [List.reverse_cons, List.append_assoc]
          rfl

theorem ends_parameters (closed : cursor.IsClosed) :
    Ends Rule.parameters settings cursor BeginsParameters
      (fun read _ parameters => Parameters read parameters) := by
  refine (ends_parameters_of_lt _ (Nat.lt_succ_self _) closed []).imp (fun _ _ _ => id) ?_
  rintro read stop all _ ⟨parameters, rfl, taken⟩
  exact taken

theorem ends_returnType (closed : cursor.IsClosed) :
    Ends Rule.returnType settings cursor (fun read => read = [])
      (fun read _ type => ∃ token : Token, token.kind = .identifier ∧ read = [token] ∧
        type = .ofName token.value) := by
  refine .expectOr closed (by decide) (.unexpectedWith _ _) rfl fun first typed _ _ => ?_
  dsimp only
  split
  · exact .note fun _ _ _ => .pure ⟨cursor.current, typed, rfl, rfl⟩
  · exact .pure ⟨cursor.current, typed, rfl, rfl⟩

/-! ## Operands -/

theorem ends_number {levels : Nat} (closed : cursor.IsClosed) :
    Ends Rule.number settings cursor (Begins .primary)
      (fun read stop node => Phrase levels .primary read stop node) := by
  refine .current ?_
  split
  · next number =>
      have unfinished : cursor.current.kind ≠ .endOfInput := by
        rcases (Rule.isNumber_iff _).mp number with kind | kind <;> rw [kind] <;> decide
      split
      · exact .fail (.unreadable _) .primary_nil
      · next value reads =>
          exact .advance closed unfinished fun _ _ => .pure (.number number reads)
  · exact .unexpected .primary_nil

section Nested

variable (inner : Finds bound .expression expression)

include inner

/-- The arguments from a cursor on, when the values are found. -/
theorem ends_arguments_of_lt (count : Nat) (near : cursor.unread.length < count)
    (below : cursor.unread.length < bound) (closed : cursor.IsClosed)
    (given : List (String × Node)) :
    Ends (recurse (Rule.argumentsStep expression) given) settings cursor (Begins .arguments)
      (fun read stop all => stop.kind = .rightParen ∧ ∃ arguments,
        all = given.reverse ++ arguments ∧
          Phrase (settings.maxDepth - cursor.depth) .arguments read stop arguments) := by
  induction count generalizing cursor given with
  | zero => exact absurd near (Nat.not_lt_zero _)
  | succ count ih =>
      rw [arguments_eq, Rule.argumentsStep]
      refine .current ?_
      split
      · next closes => exact .pure ⟨closes, [], (List.append_nil _).symm, .noArguments⟩
      · refine .skipComma closed fun comma first separated toFirst closed₁ => ?_
        rw [Rule.argument]
        simp only [bind_assoc]
        refine .expectOr closed₁ (by decide) (.unexpectedWith _ _) ?_
          fun second labelled toSecond closed₂ => ?_
        · rw [List.append_nil]
          exact .argument_comma separated
        refine .expect closed₂ (by decide) (.argument_label separated labelled)
          fun third followed toThird closed₃ => ?_
        have toValue := toFirst.trans (toSecond.trans toThird)
        have passed := toValue.unread_length
        simp only [List.length_append, List.length_singleton] at passed
        refine (inner settings third closed₃ (by omega)).bind ?_ ?_
        · intro read begins
          exact .argument_value separated labelled followed begins
        intro inside fourth value? toFourth found
        have closed₄ := toFourth.isClosed closed₃
        have nearer := toFourth.unread_length
        cases found with
        | @complete value phrase follows =>
            rw [toValue.depth] at phrase
            simp only [pure_bind]
            refine (ih (by omega) (by omega) closed₄ _).imp ?_ ?_
            · intro rest stop reaches begins
              rw [reaches.current] at phrase
              exact .argument separated labelled followed phrase begins
            · rintro rest stop all reaches ⟨closes, arguments, rfl, others⟩
              rw [reaches.current] at phrase
              rw [(toValue.trans toFourth).depth] at others
              refine ⟨closes, (first.current.value, value) :: arguments, ?_, ?_⟩
              · rw [List.reverse_cons, List.append_assoc]
                rfl
              · exact .argument separated labelled followed phrase others
        | truncated truncated ended =>
            have begins := Begins.argument_value separated labelled followed truncated.begins
            cases value? with
            | none =>
                refine .unexpected ?_
                rw [List.append_nil]
                exact begins
            | some value =>
                simp only [pure_bind]
                refine (ih (by omega) (by omega) closed₄ _).imp ?_ ?_
                · intro rest stop reaches _
                  rw [reaches.eq_nil ended, List.append_nil]
                  exact begins
                · -- no parenthesis closes the arguments at the end of the input
                  rintro rest stop all reaches ⟨closes, _⟩
                  have same := reaches.current
                  rw [reaches.eq_nil ended, List.headD_nil] at same
                  rw [same, closes] at ended
                  cases ended

theorem ends_arguments (below : cursor.unread.length < bound) (closed : cursor.IsClosed) :
    Ends (Rule.arguments expression) settings cursor (Begins .arguments)
      (fun read stop arguments =>
        Phrase (settings.maxDepth - cursor.depth) .arguments read stop arguments) := by
  refine (ends_arguments_of_lt inner _ (Nat.lt_succ_self _) below closed []).imp
    (fun _ _ _ => id) ?_
  rintro read stop all _ ⟨_, arguments, rfl, given⟩
  exact given

theorem ends_identifier (below : cursor.unread.length ≤ bound) (closed : cursor.IsClosed) :
    Ends (Rule.identifier expression) settings cursor (Begins .primary)
      (fun read stop node => Phrase (settings.maxDepth - cursor.depth) .primary read stop node) := by
  rw [Rule.identifier_eq]
  refine .current ?_
  split
  · refine .expect closed (by decide) .primary_nil fun first named toFirst closed₁ => .current ?_
    split
    · refine .expect closed₁ (by decide) ?_ fun second opened toSecond closed₂ => ?_
      · have begun : Begins .primary [cursor.current] :=
          .of_append [.sample .leftParen] (.call named rfl .noArguments)
        exact begun
      have toInside := toFirst.trans toSecond
      have passed := toInside.unread_length
      simp only [List.length_append, List.length_singleton] at passed
      refine (ends_arguments inner (by omega) closed₂).bind
        (fun _ begins => .call named opened begins) fun inside third arguments toThird given => ?_
      rw [toInside.depth] at given
      refine .expect (toThird.isClosed closed₂) (by decide) ?_ fun last closes _ _ => ?_
      · rw [List.append_nil]
        exact .call named opened (.of_phrase given)
      · exact .pure (.call named opened closes given)
    · next uncalled => exact .pure (.name named uncalled)
  · exact .unexpected .primary_nil

theorem ends_parenthesised (below : cursor.unread.length ≤ bound) (closed : cursor.IsClosed) :
    Ends (Rule.parenthesised expression) settings cursor (Begins .primary)
      (Found (settings.maxDepth - cursor.depth) .primary) := by
  refine .expect closed (by decide) .primary_nil fun first opened toFirst closed₁ => ?_
  have passed := toFirst.unread_length
  rw [List.length_singleton] at passed
  refine (inner settings first closed₁ (by omega)).bind
    (fun _ begins => .parenthesised opened begins) fun inside second value? toSecond found => ?_
  rw [toFirst.depth] at found
  have begun : Begins .primary (cursor.current :: inside) := .parenthesised opened found.begins
  cases value? with
  | none =>
      cases found with
      | truncated truncated ended =>
          refine .pure (.truncated ?_ ended)
          rw [List.append_nil]
          exact .parenthesised opened truncated
  | some value =>
      refine .expectOr (toSecond.isClosed closed₁) (by decide) (.unexpectedWith _ _) ?_
        fun third closes _ _ => ?_
      · rw [List.append_nil]
        exact begun
      · cases found with
        | complete phrase _ => exact .pure (.complete (.parenthesised opened closes phrase) trivial)
        | truncated _ ended =>
            rw [closes] at ended
            cases ended

theorem ends_returned (below : cursor.unread.length ≤ bound) (closed : cursor.IsClosed) :
    Ends (Rule.returned expression) settings cursor (Begins .primary)
      (fun read stop node => Found (settings.maxDepth - cursor.depth) .primary read stop
        (some node)) := by
  refine .expect closed (by decide) .primary_nil fun first returned toFirst closed₁ => .current ?_
  split
  · next starts =>
      have passed := toFirst.unread_length
      rw [List.length_singleton] at passed
      refine (inner settings first closed₁ (by omega)).bind
        (fun _ begins => .returning returned begins) fun inside second value? toSecond found => ?_
      rw [toFirst.depth] at found
      cases found with
      | complete phrase follows =>
          refine .pure (.complete ?_ trivial)
          rw [List.append_nil]
          exact .returning returned phrase follows
      | truncated truncated ended =>
          cases value? with
          | some value =>
              refine .pure (.truncated ?_ ended)
              rw [List.append_nil]
              exact .returning returned truncated
          | none =>
              -- a token that can start a value is not the end of the input, so it has been read
              have started : inside ≠ [] := by
                rintro rfl
                have same : first.current = second.current := toSecond.current
                rw [same, ended] at starts
                cases starts
              refine .pure (.truncated ?_ ended)
              rw [List.append_nil]
              exact .bareReturn returned started truncated
  · next valueless => exact .pure (.complete (.bareReturn returned valueless) trivial)

theorem ends_definition (below : cursor.unread.length ≤ bound) (closed : cursor.IsClosed) :
    Ends (Rule.definition expression) settings cursor (Begins .definition)
      (fun read stop node =>
        Phrase (settings.maxDepth - cursor.depth) .definition read stop node) := by
  refine .expect closed (by decide) .definition_nil fun first defines toFirst closed₁ => ?_
  refine .expectOr closed₁ (by decide) (.unexpectedWith _ _) (.function_word defines)
    fun second named toSecond closed₂ => ?_
  refine .expect closed₂ (by decide) (.function_name defines named) fun third opened toThird closed₃ => ?_
  refine (ends_parameters closed₃).bind
    (fun _ begins => .function_header defines named opened begins)
    fun header fourth parameters toFourth taken => ?_
  have closed₄ := toFourth.isClosed closed₃
  refine .expect closed₄ (by decide) ?_ fun fifth closes toFifth closed₅ => ?_
  · rw [List.append_nil]
    exact .function_header defines named opened (.of_parameters taken)
  refine .expectOr closed₅ (by decide) (.unexpectedWith _ _)
    (.function_closing defines named opened taken closes) fun sixth pointed toSixth closed₆ => ?_
  refine (ends_returnType closed₆).bind ?_ ?_
  · rintro _ rfl
    exact .function_arrow defines named opened taken closes pointed
  rintro _ seventh _ toSeventh ⟨type, typed, rfl, rfl⟩
  have closed₇ := toSeventh.isClosed closed₆
  rw [Rule.body]
  simp only [bind_assoc]
  refine .expect closed₇ (by decide) ?_ fun eighth entered toEighth closed₈ => ?_
  · exact .function_type defines named opened taken closes pointed typed
  have toBody := toFirst.trans (toSecond.trans (toThird.trans (toFourth.trans
    (toFifth.trans (toSixth.trans (toSeventh.trans toEighth))))))
  have passed := toBody.unread_length
  simp only [List.length_append, List.length_singleton] at passed
  have begun : ∀ {inside}, Begins .expression inside → Begins .definition _ :=
    .function_body defines named opened taken closes pointed typed entered
  refine (inner settings eighth closed₈ (by omega)).bind (fun _ begins => begun begins)
    fun inside ninth value? toNinth found => ?_
  rw [toBody.depth] at found
  cases value? with
  | none =>
      refine .unexpected ?_
      rw [List.append_nil]
      exact begun found.begins
  | some value =>
      simp only [bind_assoc, pure_bind]
      refine .expectOr (toNinth.isClosed closed₈) (by decide) (.unexpectedWith _ _) ?_
        fun tenth exited _ _ => ?_
      · rw [List.append_nil]
        exact begun found.begins
      · cases found with
        | complete phrase _ =>
            exact .note fun _ _ _ => .pure (.function defines named opened taken closes pointed typed
              entered phrase exited)
        | truncated _ ended =>
            rw [exited] at ended
            cases ended

theorem finds_primary : Finds (bound + 1) .primary primary := by
  intro settings cursor closed near
  have below : cursor.unread.length ≤ bound := Nat.le_of_lt_succ near
  refine .current ?_
  split
  · exact (ends_identifier inner below closed).map fun phrase => .complete phrase trivial
  · exact (ends_number closed).map fun phrase => .complete phrase trivial
  · exact (ends_number closed).map fun phrase => .complete phrase trivial
  · exact ends_parenthesised inner below closed
  · exact ((ends_definition inner below closed).imp (fun _ _ _ => .defined) fun _ _ _ _ => id).map
      fun phrase => .complete (.defined phrase) trivial
  · exact (ends_returned inner below closed).map id
  · exact .failed rfl (.refl cursor) (.notImplemented _ _) .primary_nil
  · next ended => exact .pure (.truncated .missing ended)
  · exact .fail (.unexpected _) .primary_nil

end Nested

/-! ## Chains of operators -/

theorem run_climb_of_operator?_none {least : Int} (lhs : Node)
    (other : cursor.current.operator? = none) :
    (climb least lhs).run settings cursor = (.ok (some lhs), cursor) := by
  have found := Token.precedence_of_none other
  rw [climb_eq, Rule.climbStep, run_bind_of_ok (run_current settings cursor),
    run_bind_of_ok (by rw [run_ofExcept, found]), other]
  split <;> rfl

section Stop

variable {least : Int} {lhs : Node} {begun : List Token → Prop}
  {done : List Token → Token → Option Node → Prop}

/-- A climb fails at the comparison. -/
theorem ends_climb_of_error {fault : Fault} (missing : cursor.current.precedence = .error fault)
    (begins : begun []) : Ends (climb least lhs) settings cursor begun done := by
  rw [climb_eq, Rule.climbStep]
  refine .current (.precedence begins fun _ found => ?_)
  rw [missing] at found
  cases found

/-- A climb stops before a token that binds too loosely. -/
theorem ends_climb_of_bindsBelow (loose : cursor.current.BindsBelow least)
    (holds : done [] cursor.current (some lhs)) :
    Ends (climb least lhs) settings cursor begun done := by
  obtain ⟨precedence, found, lower⟩ := loose
  have result : (climb least lhs).run settings cursor = (.ok (some lhs), cursor) := by
    rw [climb_eq, Rule.climbStep, run_bind_of_ok (run_current settings cursor),
      run_bind_of_ok (by rw [run_ofExcept, found]), if_pos lower]
    rfl
  exact .done result (.refl cursor) holds

/-- A climb from an operand that was read up to the end of the input stops at once. -/
theorem ends_climb_of_ended {node? : Option Node} {change : Node → Node} (low : 0 ≤ least)
    (ended : cursor.current.kind = .endOfInput)
    (holds : done [] cursor.current (node?.map change)) :
    Ends (match node? with
      | none => return none
      | some node => climb least (change node)) settings cursor begun done := by
  cases node? with
  | none => exact .pure holds
  | some node =>
      have other : cursor.current.operator? = none := Token.Closes.noOperator (.inr (.inr ended))
      exact ends_climb_of_bindsBelow (Token.bindsBelow_of_none other low) holds

end Stop

/--
A climb at an operator takes the operand after it. If this operand is complete,
the climb goes on with it, and a tighter operator after it is taken first.
-/
theorem ends_climb_of_operator {levels : Nat} {least precedence : Int} {operator : Operator} {lhs : Node}
    {begun : List Token → Prop} {done : List Token → Token → Option Node → Prop}
    (operand : Finds bound .primary primary) (below : cursor.unread.length ≤ bound)
    (closed : cursor.IsClosed) (depth : settings.maxDepth - cursor.depth = levels)
    (denoted : cursor.current.operator? = some operator)
    (found : cursor.current.precedence = .ok precedence) (low : 0 ≤ least)
    (room : least ≤ precedence)
    (begins : ∀ right, Begins .primary right → begun (cursor.current :: right))
    (truncated : ∀ right stop rhs?, stop.kind = .endOfInput →
      Truncated levels .primary right rhs? →
      done (cursor.current :: right) stop (rhs?.map (.binary operator lhs)))
    (later : ∀ right middle rhs follow, cursor.Reaches (cursor.current :: right) middle →
      Phrase levels .primary right middle.current rhs →
      middle.current.precedence = .ok follow →
      Ends (if precedence < follow then do
          note (.yielded operator precedence follow)
          match ← climb (precedence + 1) rhs with
          | none => return none
          | some rhs => climb least (.binary operator lhs rhs)
        else climb least (.binary operator lhs rhs)) settings middle
        (fun more => begun (cursor.current :: (right ++ more)))
        (fun more => done (cursor.current :: (right ++ more)))) :
    Ends (climb least lhs) settings cursor begun done := by
  have unfinished := Token.kind_ne_endOfInput_of_operator? denoted
  rw [climb_eq, Rule.climbStep]
  refine .current ?_
  rw [found]
  change Ends (if precedence < least then _ else _) _ _ _ _
  rw [if_neg (Int.not_lt.mpr room), denoted]
  refine .advance closed unfinished fun first toFirst => ?_
  have closed₁ := toFirst.isClosed closed
  have passed := toFirst.unread_length
  rw [List.length_singleton] at passed
  refine (operand settings first closed₁ (by omega)).bind (fun _ given => begins _ given)
    fun right second rhs? toSecond operandFound => ?_
  rw [toFirst.depth, depth] at operandFound
  cases operandFound with
  | @complete rhs phrase _ =>
      refine .current (.precedence ?_ fun follow next => ?_)
      · rw [List.append_nil]
        exact begins right (.of_phrase phrase)
      · exact later right second rhs follow (toFirst.trans toSecond) phrase next
  | truncated cut ended =>
      cases rhs? with
      | none =>
          refine .pure ?_
          rw [List.append_nil]
          exact truncated right second.current none ended cut
      | some rhs =>
          -- after a truncated operand, the climb has come to the end of the input
          have other : second.current.operator? = none :=
            Token.Closes.noOperator (.inr (.inr ended))
          refine .current ?_
          rw [Token.precedence_of_none other]
          change Ends (if precedence < -1 then _ else climb least (.binary operator lhs rhs)) _ _ _ _
          rw [if_neg (by omega)]
          refine ends_climb_of_bindsBelow (Token.bindsBelow_of_none other low) ?_
          rw [List.append_nil]
          exact truncated right second.current (some rhs) ended cut

theorem append_cons_append (before : List Token) (sign : Token) (right more : List Token) :
    before ++ sign :: (right ++ more) = (before ++ sign :: right) ++ more := by
  rw [List.append_assoc, List.cons_append]

/-- Climbing from a product takes all factors that follow. -/
theorem ends_climb_product (operand : Finds bound .primary primary) {levels : Nat}
    {before : List Token} {lhs : Node} (below : cursor.unread.length ≤ bound)
    (closed : cursor.IsClosed) (depth : settings.maxDepth - cursor.depth = levels)
    (product : Phrase levels .product before cursor.current lhs) :
    Ends (climb 21 lhs) settings cursor (fun read => Begins .product (before ++ read))
      (fun read stop node? =>
        Found levels .product (before ++ read) stop node?) := by
  induction count : cursor.unread.length using Nat.strongRecOn generalizing cursor before lhs with
  | ind _ ih =>
      have stops : ∀ precedence < 21, cursor.current.precedence = .ok precedence →
          Ends (climb 21 lhs) settings cursor (fun read => Begins .product (before ++ read))
            (fun read stop node? =>
              Found levels .product (before ++ read) stop node?) := by
        intro precedence lower found
        refine ends_climb_of_bindsBelow ⟨precedence, found, lower⟩ ?_
        rw [List.append_nil]
        exact .complete product ⟨precedence, found, lower⟩
      cases found : cursor.current.precedence with
      | error fault =>
          refine ends_climb_of_error found ?_
          rw [List.append_nil]
          exact .of_phrase product
      | ok precedence =>
          obtain ⟨_, rfl⟩ | ⟨operator, denoted, ⟨_, rfl⟩ | ⟨binds, rfl⟩⟩ :=
            Token.precedence_cases found
          · exact stops (-1) (by decide) found
          · exact stops 20 (by decide) found
          refine ends_climb_of_operator operand below closed depth denoted found (by decide) (by decide)
            ?_ ?_ ?_
          · intro right begins
            exact .multiplied product denoted binds begins
          · intro right stop rhs? ended cut
            exact .truncated (.multiplied product denoted binds cut) ended
          · intro right middle rhs follow reaches phrase next
            have passed := reaches.unread_length
            rw [List.length_cons] at passed
            rw [if_neg (Token.precedence_le next)]
            have whole := Phrase.multiplied product denoted binds phrase
            simp only [append_cons_append]
            exact ih middle.unread.length (by omega) (by omega) (reaches.isClosed closed)
              (by rw [reaches.depth, depth]) whole rfl

/--
Before a tighter operator, the factors of a term are climbed over before the climb
goes on with the term on the right.
-/
theorem ends_climb_of_tighter (operand : Finds bound .primary primary) {levels : Nat}
    {operator : Operator} {lhs rhs : Node} {right : List Token} {begun : List Token → Prop}
    {done : List Token → Token → Option Node → Prop} (below : cursor.unread.length ≤ bound)
    (closed : cursor.IsClosed) (depth : settings.maxDepth - cursor.depth = levels)
    (term : Phrase levels .product right cursor.current rhs)
    (begins : ∀ more, Begins .product (right ++ more) → begun more)
    (truncated : ∀ more stop rhs?, stop.kind = .endOfInput →
      Truncated levels .product (right ++ more) rhs? →
      done more stop (rhs?.map (.binary operator lhs)))
    (later : ∀ more last rhs, cursor.Reaches more last →
      Phrase levels .product (right ++ more) last.current rhs → last.current.BindsBelow 21 →
      Ends (climb 0 (.binary operator lhs rhs)) settings last (fun rest => begun (more ++ rest))
        (fun rest => done (more ++ rest))) :
    Ends (do
        match ← climb 21 rhs with
        | none => return none
        | some rhs => climb 0 (.binary operator lhs rhs)) settings cursor begun done := by
  refine (ends_climb_product operand below closed depth term).bind begins
    fun more last (rhs? : Option (Form.Value .product)) toLast found => ?_
  cases found with
  | complete phrase follows => exact later more last _ toLast phrase follows
  | truncated cut ended =>
      refine ends_climb_of_ended (Int.le_refl 0) ended ?_
      rw [List.append_nil]
      exact truncated more last.current rhs? ended cut

/-- Climbing from a sum takes all terms that follow, and the factors of its last term. -/
theorem ends_climb_sum (operand : Finds bound .primary primary) {levels : Nat}
    {before : List Token} {lhs : Node} (below : cursor.unread.length ≤ bound)
    (closed : cursor.IsClosed) (depth : settings.maxDepth - cursor.depth = levels)
    (sum : Phrase levels .sum before cursor.current lhs)
    (product : ∀ operator, cursor.current.operator? = some operator → operator.IsMultiplicative →
      Phrase levels .product before cursor.current lhs) :
    Ends (climb 0 lhs) settings cursor (fun read => Begins .sum (before ++ read))
      (fun read stop node? =>
        Found levels .sum (before ++ read) stop node?) := by
  induction count : cursor.unread.length using Nat.strongRecOn generalizing cursor before lhs with
  | ind _ ih =>
      cases found : cursor.current.precedence with
      | error fault =>
          refine ends_climb_of_error found ?_
          rw [List.append_nil]
          exact .of_phrase sum
      | ok precedence =>
          obtain ⟨other, rfl⟩ | ⟨operator, denoted, ⟨binds, rfl⟩ | ⟨binds, rfl⟩⟩ :=
            Token.precedence_cases found
          · apply ends_climb_of_bindsBelow (Token.bindsBelow_of_none other (Int.le_refl 0))
            rw [List.append_nil]
            exact .complete sum other
          · -- a term may begin after the operator, whose factors are climbed over first
            have goesOn : ∀ {right middle rhs}, cursor.Reaches (cursor.current :: right) middle →
                Phrase levels .product right middle.current rhs → middle.current.BindsBelow 21 →
                Ends (climb 0 (.binary operator lhs rhs)) settings middle
                  (fun more => Begins .sum (before ++ cursor.current :: (right ++ more)))
                  (fun more => Found levels .sum (before ++ cursor.current :: (right ++ more))) := by
              intro right middle rhs reaches term follows
              have passed := reaches.unread_length
              rw [List.length_cons] at passed
              simp only [append_cons_append]
              exact ih middle.unread.length (by omega) (by omega) (reaches.isClosed closed)
                (by rw [reaches.depth, depth]) (.added sum denoted binds term)
                (fun _ denoted' binds' => absurd binds' (follows.not_isMultiplicative denoted')) rfl
            refine ends_climb_of_operator operand below closed depth denoted found (by decide) (by decide)
              ?_ ?_ ?_
            · intro right begins
              exact .added sum denoted binds begins.factor
            · intro right stop rhs? ended cut
              exact .truncated (.added sum denoted binds (.factor cut)) ended
            · intro right middle rhs follow reaches phrase next
              split
              · refine .note fun noted still same => ?_
                have toNoted := reaches.trans still
                have passed := toNoted.unread_length
                rw [List.append_nil] at toNoted
                rw [← same] at phrase
                refine ends_climb_of_tighter operand (by omega) (toNoted.isClosed closed)
                  (by rw [toNoted.depth, depth]) (.factor phrase) ?_ ?_ ?_
                · intro more begins
                  exact .added sum denoted binds begins
                · intro more stop rhs? ended cut
                  exact .truncated (.added sum denoted binds cut) ended
                · intro more last rhs' toLast term follows
                  simp only [← List.append_assoc right]
                  exact goesOn (toNoted.trans toLast) term follows
              · next loose => exact goesOn reaches (.factor phrase) ⟨follow, next, by omega⟩
          · have factors := product operator denoted binds
            refine ends_climb_of_operator operand below closed depth denoted found (by decide) (by decide)
              ?_ ?_ ?_
            · intro right begins
              exact (Begins.multiplied factors denoted binds begins).term
            · intro right stop rhs? ended cut
              exact .truncated (.term (.multiplied factors denoted binds cut)) ended
            · intro right middle rhs follow reaches phrase next
              have passed := reaches.unread_length
              rw [List.length_cons] at passed
              rw [if_neg (Token.precedence_le next)]
              have whole := Phrase.multiplied factors denoted binds phrase
              simp only [append_cons_append]
              exact ih middle.unread.length (by omega) (by omega) (reaches.isClosed closed)
                (by rw [reaches.depth, depth]) (.term whole) (fun _ _ _ => whole) rfl

/-! ## Expressions -/

theorem finds_expression (bound : Nat) : Finds bound .expression expression := by
  induction bound with
  | zero => exact fun _ _ _ near => absurd near (Nat.not_lt_zero _)
  | succ bound inner =>
      intro settings cursor closed near
      have operand := finds_primary inner
      rw [expression_eq]
      refine .nested .expression_nil fun room => ?_
      obtain ⟨levels, depth⟩ : ∃ levels, settings.maxDepth - (cursor.depth + 1) = levels := ⟨_, rfl⟩
      have deeper : settings.maxDepth - cursor.depth = levels + 1 := by omega
      rw [deeper]
      refine (operand settings { cursor with depth := cursor.depth + 1 } closed near).bind
        (fun _ begins => begins.factor.term.nested) fun read middle node? reaches found => ?_
      have passed : cursor.unread.length = read.length + middle.unread.length :=
        reaches.unread_length
      have depth' : settings.maxDepth - middle.depth = levels := by rw [reaches.depth, depth]
      dsimp only at found
      rw [depth] at found
      cases found with
      | @complete lhs phrase _ =>
          refine (ends_climb_sum operand (by omega) (reaches.isClosed closed) depth'
            (.term (.factor phrase)) fun _ _ _ => .factor phrase).imp ?_ ?_
          · intro more stop _ begins
            exact begins.nested
          · intro more stop (node? : Option (Form.Value .sum)) _ found'
            cases found' with
            | complete phrase' follows => exact .complete (.nested phrase') follows
            | truncated cut ended => exact .truncated (.nested cut) ended
      | truncated cut ended =>
          have cut' : Truncated (levels + 1) .expression read node? := .nested (.term (.factor cut))
          refine ends_climb_of_ended (Int.le_refl 0) ended (.truncated ?_ ended)
          rw [List.append_nil, Option.map_id']
          exact cut'

/-! ## Programs -/

/-- The items up to the end of the input have been put after those already read. -/
def Gathers (levels : Nat) (progress : Progress) (read : List Token) (stop : Token)
    (gathered : Progress) : Prop :=
  stop.kind = .endOfInput ∧ ∃ nodes, Salvaged levels read stop nodes ∧
    gathered = { progress with items := nodes.reverse ++ progress.items }

/-- The items after one that has just been read are gathered behind it. -/
theorem ends_items_after {levels : Nat} {progress : Progress} {item : Node} {tokens : List Token}
    (rest : Ends (recurse itemsStep (progress.add item)) settings cursor BeginsProgram
      (Gathers levels (progress.add item)))
    (begins : ∀ more stop, cursor.Reaches more stop → BeginsProgram more →
      BeginsProgram (tokens ++ more))
    (salvages : ∀ more stop nodes, cursor.Reaches more stop →
      Salvaged levels more stop.current nodes →
      Salvaged levels (tokens ++ more) stop.current (item :: nodes)) :
    Ends (recurse itemsStep (progress.add item)) settings cursor
      (fun more => BeginsProgram (tokens ++ more))
      (fun more => Gathers levels progress (tokens ++ more)) := by
  refine rest.imp begins ?_
  rintro more stop gathered reaches ⟨ended, nodes, salvaged, rfl⟩
  refine ⟨ended, item :: nodes, salvages more stop nodes reaches salvaged, ?_⟩
  rw [List.reverse_cons, List.append_assoc]
  rfl

theorem ends_topLevelExpression {levels : Nat} (closed : cursor.IsClosed)
    (depth : settings.maxDepth - cursor.depth = levels) (other : cursor.current.kind ≠ .funcWord) :
    Ends topLevelExpression settings cursor BeginsProgram
      (fun read stop item? => ∃ body? : Option Node,
        Found levels .expression read stop body? ∧ item? = body?.map .entryPoint) := by
  have given := (finds_expression _ settings cursor closed (Nat.lt_succ_self _)).imp
    (fun _ _ reaches begins => BeginsProgram.expression begins (reaches.kind_ne_of_mem_head? other))
    (fun _ _ _ _ => id)
  rw [depth] at given
  refine given.bind (fun _ => id) fun tokens middle (body? : Option Node) _ found => ?_
  have whole : Found levels .expression (tokens ++ []) middle.current body? := by
    rwa [List.append_nil]
  cases body? with
  | none => exact .pure ⟨none, whole, rfl⟩
  | some body => exact .pure ⟨some body, whole, rfl⟩

/-- The items of a program are gathered up to the end of the input, and no token is skipped. -/
theorem ends_items {levels : Nat} (closed : cursor.IsClosed)
    (depth : settings.maxDepth - cursor.depth = levels) (progress : Progress) :
    Ends (recurse itemsStep progress) settings cursor BeginsProgram (Gathers levels progress) := by
  induction count : cursor.unread.length using Nat.strongRecOn generalizing cursor progress with
  | ind _ ih =>
      rw [items_eq, itemsStep]
      refine .current ?_
      split
      · next ended => exact .pure ⟨ended, [], .nil, rfl⟩
      · next defines =>
          have inner := finds_expression cursor.unread.length
          refine (ends_definition inner (Nat.le_refl _) closed).bind (fun _ => .definition)
            fun tokens middle item reaches found => .note fun noted still same => ?_
          rw [depth, ← same] at found
          obtain ⟨word, rest, rfl, _⟩ := found.exists_first (by simp)
          have passed := (reaches.trans still).unread_length
          rw [List.append_nil, List.length_cons] at passed
          refine ends_items_after (ih noted.unread.length (by omega)
            (still.isClosed (reaches.isClosed closed))
            (by rw [still.depth, reaches.depth, depth]) (progress.add item) rfl) ?_ ?_
          · intro more stop reaches' begins
            rw [reaches'.current] at found
            exact .definition_append found begins
          · intro more stop nodes reaches' salvaged
            rw [reaches'.current] at found
            exact .definition found salvaged
      · next unfinished other =>
          refine (ends_topLevelExpression closed depth other).bind (fun _ => id) ?_
          rintro tokens middle _ reaches ⟨(body? : Option (Form.Value .expression)), found, rfl⟩
          have plain := reaches.kind_ne_of_mem_head? other
          cases found with
          | @complete body phrase _ =>
              obtain ⟨word, rest, rfl, _⟩ := phrase.exists_first (by simp)
              refine .note fun noted still same => ?_
              rw [← same] at phrase
              have passed := (reaches.trans still).unread_length
              rw [List.append_nil, List.length_cons] at passed
              refine ends_items_after (ih noted.unread.length (by omega)
                (still.isClosed (reaches.isClosed closed))
                (by rw [still.depth, reaches.depth, depth]) (progress.add (.entryPoint body))
                rfl) ?_ ?_
              · intro more stop reaches' begins
                rw [reaches'.current] at phrase
                exact .expression_append phrase plain begins
              · intro more stop nodes reaches' salvaged
                rw [reaches'.current] at phrase
                exact .expression phrase plain salvaged
          | truncated cut ended =>
              -- the current token is not the end of the input, so it has been read
              have started : tokens ≠ [] := by
                rintro rfl
                have same : cursor.current = middle.current := reaches.current
                rw [← same] at ended
                exact unfinished ended
              have salvaged : Salvaged levels (tokens ++ []) middle.current
                  (body?.map Node.entryPoint).toList := by
                rw [List.append_nil]
                exact .truncated started cut
              cases body? with
              | none =>
                  have still : middle.hasTokens = false := by simp [Cursor.hasTokens, ended]
                  refine .done ?_ (.refl middle) ⟨ended, [], salvaged, rfl⟩
                  change (Parser.hasTokens >>= _).run settings middle = _
                  rw [run_bind_of_ok (run_hasTokens settings middle), still]
                  rfl
              | some body =>
                  refine .note fun noted still same => ?_
                  rw [← same] at ended salvaged
                  exact .done (run_items_of_endOfInput ended) (.refl noted)
                    ⟨ended, [.entryPoint body], salvaged, rfl⟩

end Parser

end ExprLang
