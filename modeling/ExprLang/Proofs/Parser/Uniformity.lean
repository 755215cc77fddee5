import ExprLang.Proofs.Parser.Lockstep

/-!
# Rules in lockstep

All rules of the language go in lockstep. So no rule reads past the end of the
input, a rule that finds an expression missing has come to that end, and what a
rule gives does not depend on the trace or on the name of the file.
-/

namespace ExprLang

namespace Parser

namespace Rule

/-! ## Rules without nested expressions -/

theorem inLockstep_returnType : InLockstep Event.IsOfRules Same returnType := by
  intro settings settings' cursor cursor' limit like
  refine .expectOr like (by decide) (.unexpectedWith _) fun middle middle' typed like₁ => ?_
  have value := like.current.value_of_kind typed rfl
  dsimp only
  rw [value]
  refine .ite Iff.rfl (fun _ => ?_) fun _ => .pure like₁ rfl
  exact .note like₁ (.unknownReturnType _) fun _ _ like₂ _ => .pure like₂ rfl

theorem inLockstep_parameter : InLockstep Event.IsOfRules Same parameter := by
  intro settings settings' cursor cursor' limit like
  refine .expectOr like (by decide) (.unexpectedWith _) fun first first' labelled like₁ => ?_
  refine .expectOr like₁ (by decide) (.unexpectedWith _) fun second second' _ like₂ => ?_
  refine .expectOr like₂ (by decide) (.unexpectedWith _) fun third third' typed like₃ => ?_
  refine .skipComma like₃ fun fourth fourth' like₄ => .pure like₄ ?_
  rw [Same, like.current.value_of_kind labelled rfl, like₂.current.value_of_kind typed rfl]

theorem inLockstep_parameters : InLockstep Event.IsOfRules Same parameters := by
  refine .recurse (fun again call done => ?_) []
  intro settings settings' cursor cursor' limit like
  refine .current (.ite (by rw [like.current.kind]) (fun _ => .pure like rfl) fun _ => ?_)
  refine (inLockstep_parameter _ _ _ _ limit like).bind ?_
  rintro middle middle' value _ like₁ rfl
  exact call _ _ _ _ _ limit like₁

theorem inLockstep_number : InLockstep Event.IsOfRules Same number := by
  intro settings settings' cursor cursor' limit like
  apply EndAlike.current
  rw [like.current.isNumber]
  refine .ite Iff.rfl (fun number => ?_) fun _ => .unexpected like
  have value : cursor'.current.value = cursor.current.value := by
    apply like.current.value
    rcases (isNumber_iff _).mp number with kind | kind <;> rw [kind] <;> rfl
  cases found : Binary64.read? cursor.current.value with
  | none =>
      have found' : Binary64.read? cursor'.current.value = none := value ▸ found
      simp only [found']
      exact .fail like (.unreadable number found)
  | some read =>
      have unfinished : cursor.current.kind ≠ .endOfInput := by
        rcases (isNumber_iff _).mp number with kind | kind <;> rw [kind] <;> decide
      simp only [value, found]
      exact .advance like unfinished fun _ _ like₁ => .pure like₁ rfl

theorem inLockstep_conditional {related : Token → Node → Node → Prop}
    {settings settings' : Settings} {cursor cursor' : Cursor} (like : cursor.IsLike cursor')
    (word : cursor.current.kind = .ifWord) :
    EndAlike Event.IsOfRules related conditional conditional settings settings' cursor cursor' :=
  .current (.fail like (.conditional word))

/-! ## Rules with nested expressions -/

section Nested

variable {expression : Parser (Option Node)}
  (inner : InLockstep Event.IsOfRules SameUnlessEnded expression)

include inner

theorem inLockstep_body : InLockstep Event.IsOfRules Same (body expression) := by
  intro settings settings' cursor cursor' limit like
  refine .expect like (by decide) fun first first' _ like₁ => ?_
  refine (inner _ _ _ _ limit like₁).bind ?_
  rintro second second' value? _ like₂ ⟨rfl, _⟩
  cases value? with
  | none => exact .unexpected like₂
  | some value =>
      exact .expectOr like₂ (by decide) (.unexpectedWith _) fun _ _ _ like₃ => .pure like₃ rfl

theorem inLockstep_definition : InLockstep Event.IsOfRules Same (definition expression) := by
  intro settings settings' cursor cursor' limit like
  refine .expect like (by decide) fun first first' _ like₁ => ?_
  refine .expectOr like₁ (by decide) (.unexpectedWith _) fun second second' named like₂ => ?_
  have name := like₁.current.value_of_kind named rfl
  refine .expect like₂ (by decide) fun third third' _ like₃ => ?_
  refine (inLockstep_parameters _ _ _ _ limit like₃).bind ?_
  rintro fourth fourth' parameters _ like₄ rfl
  refine .expect like₄ (by decide) fun fifth fifth' _ like₅ => ?_
  refine .expectOr like₅ (by decide) (.unexpectedWith _) fun sixth sixth' _ like₆ => ?_
  refine (inLockstep_returnType _ _ _ _ limit like₆).bind ?_
  rintro seventh seventh' type _ like₇ rfl
  refine (inLockstep_body inner _ _ _ _ limit like₇).bind ?_
  rintro eighth eighth' value _ like₈ rfl
  refine .note like₈ (.definedFunction _ _) fun last last' like₉ _ => .pure like₉ ?_
  rw [Same, name]

theorem inLockstep_argument : InLockstep Event.IsOfRules Same (argument expression) := by
  intro settings settings' cursor cursor' limit like
  refine .expectOr like (by decide) (.unexpectedWith _) fun first first' labelled like₁ => ?_
  have label := like.current.value_of_kind labelled rfl
  refine .expect like₁ (by decide) fun second second' _ like₂ => ?_
  refine (inner _ _ _ _ limit like₂).bind ?_
  rintro third third' value? _ like₃ ⟨rfl, _⟩
  cases value? with
  | none => exact .unexpected like₃
  | some value =>
      refine .pure like₃ ?_
      rw [Same, label]

theorem inLockstep_arguments : InLockstep Event.IsOfRules Same (arguments expression) := by
  refine .recurse (fun again call done => ?_) []
  intro settings settings' cursor cursor' limit like
  refine .current (.ite (by rw [like.current.kind]) (fun _ => .pure like rfl) fun _ => ?_)
  refine .skipComma like fun first first' like₁ => ?_
  refine (inLockstep_argument inner _ _ _ _ limit like₁).bind ?_
  rintro second second' value _ like₂ rfl
  exact call _ _ _ _ _ limit like₂

theorem inLockstep_identifier : InLockstep Event.IsOfRules Same (identifier expression) := by
  rw [identifier_eq]
  intro settings settings' cursor cursor' limit like
  refine .current (.ite (by rw [like.current.kind]) (fun named => ?_) fun _ => .unexpected like)
  have name := like.current.value_of_kind named rfl
  refine .expect like (by decide) fun first first' _ like₁ => .current ?_
  refine .ite (by rw [like₁.current.kind]) (fun opened => ?_) fun _ => ?_
  · refine .expect like₁ (by decide) fun second second' _ like₂ => ?_
    refine (inLockstep_arguments inner _ _ _ _ limit like₂).bind ?_
    rintro third third' arguments _ like₃ rfl
    refine .expect like₃ (by decide) fun fourth fourth' _ like₄ => .pure like₄ ?_
    rw [Same, name]
  · refine .pure like₁ ?_
    rw [Same, name]

theorem inLockstep_parenthesised :
    InLockstep Event.IsOfRules SameUnlessEnded (parenthesised expression) := by
  intro settings settings' cursor cursor' limit like
  refine .expect like (by decide) fun first first' _ like₁ => ?_
  refine (inner _ _ _ _ limit like₁).bind ?_
  rintro second second' value? _ like₂ ⟨rfl, ended⟩
  cases value? with
  | none => exact .pure like₂ ⟨rfl, ended⟩
  | some value =>
      exact .expectOr like₂ (by decide) (.unexpectedWith _) fun _ _ _ like₃ =>
        .pure like₃ ⟨rfl, nofun⟩

theorem inLockstep_returned : InLockstep Event.IsOfRules Same (returned expression) := by
  intro settings settings' cursor cursor' limit like
  refine .expect like (by decide) fun first first' _ like₁ => .current ?_
  refine .ite (by rw [like₁.current.kind]) (fun _ => ?_) fun _ => .pure like₁ rfl
  refine (inner _ _ _ _ limit like₁).bind ?_
  rintro second second' value? _ like₂ ⟨rfl, _⟩
  cases value? with
  | none => exact .pure like₂ rfl
  | some value => exact .pure like₂ rfl

theorem inLockstep_primary : InLockstep Event.IsOfRules SameUnlessEnded (primary expression) := by
  intro settings settings' cursor cursor' limit like
  apply EndAlike.current
  rw [like.current.kind]
  cases kind : cursor.current.kind with
  | identifier => exact .map_some (inLockstep_identifier inner _ _ _ _ limit like)
  | integerLiteral => exact .map_some (inLockstep_number _ _ _ _ limit like)
  | floatingLiteral => exact .map_some (inLockstep_number _ _ _ _ limit like)
  | leftParen => exact inLockstep_parenthesised inner _ _ _ _ limit like
  | funcWord => exact .map_some (inLockstep_definition inner _ _ _ _ limit like)
  | returnWord => exact .map_some (inLockstep_returned inner _ _ _ _ limit like)
  | ifWord => exact .map_some (inLockstep_conditional like kind)
  | endOfInput => exact .pure like ⟨rfl, fun _ => kind⟩
  | _ => exact .fail like .unexpected

end Nested

/-! ## Chains of operators -/

theorem inLockstep_climb {operand : Parser (Option Node)}
    (inner : InLockstep Event.IsOfRules SameUnlessEnded operand) (least : Int) (lhs : Node) :
    InLockstep Event.IsOfRules SameUnlessEnded (climb operand least lhs) := by
  refine .recurse (fun again call => ?_) (least, lhs)
  rintro ⟨least, lhs⟩ settings settings' cursor cursor' limit like
  refine .current (.precedence like fun precedence => ?_)
  refine .ite Iff.rfl (fun _ => .pure like ⟨rfl, nofun⟩) fun _ => ?_
  rw [like.current.operator?]
  cases denoted : cursor.current.operator? with
  | none => exact .pure like ⟨rfl, nofun⟩
  | some operator =>
      have unfinished := Token.kind_ne_endOfInput_of_operator? denoted
      refine .advance like unfinished fun first first' like₁ => ?_
      refine (inner _ _ _ _ limit like₁).bind ?_
      rintro second second' rhs? _ like₂ ⟨rfl, ended⟩
      cases rhs? with
      | none => exact .pure like₂ ⟨rfl, ended⟩
      | some rhs =>
          refine .current (.precedence like₂ fun tighter => ?_)
          refine .ite Iff.rfl (fun _ => ?_) fun _ => call _ _ _ _ _ limit like₂
          refine .note like₂ (.yielded _ _ _) fun third third' like₃ _ => ?_
          refine (call _ _ _ _ _ limit like₃).bind ?_
          rintro fourth fourth' rhs? _ like₄ ⟨rfl, ended⟩
          cases rhs? with
          | none => exact .pure like₄ ⟨rfl, ended⟩
          | some rhs => exact call _ _ _ _ _ limit like₄

end Rule

/-! ## Closed rules -/

theorem inLockstep_expression : InLockstep Event.IsOfRules SameUnlessEnded expression := by
  refine .recurse (fun again call _ => ?_) ()
  intro settings settings' cursor cursor' limit like
  have operand := Rule.inLockstep_primary (call ())
  have deeper : Cursor.IsLike { cursor with depth := cursor.depth + 1 }
      { cursor' with depth := cursor'.depth + 1 } :=
    ⟨like.current, like.unread, congrArg Nat.succ like.depth⟩
  refine .nested like limit ((operand _ _ _ _ limit deeper).bind ?_)
  rintro middle middle' node? _ like₁ ⟨rfl, ended⟩
  cases node? with
  | none => exact .pure like₁ ⟨rfl, ended⟩
  | some lhs => exact Rule.inLockstep_climb operand 0 lhs _ _ _ _ limit like₁

theorem inLockstep_primary : InLockstep Event.IsOfRules SameUnlessEnded primary :=
  Rule.inLockstep_primary inLockstep_expression

theorem inLockstep_climb (least : Int) (lhs : Node) :
    InLockstep Event.IsOfRules SameUnlessEnded (climb least lhs) :=
  Rule.inLockstep_climb inLockstep_primary least lhs

theorem inLockstep_topLevelExpression :
    InLockstep Event.IsOfRules SameUnlessEnded topLevelExpression := by
  intro settings settings' cursor cursor' limit like
  refine (inLockstep_expression _ _ _ _ limit like).bind ?_
  rintro middle middle' node? _ like₁ ⟨rfl, ended⟩
  cases node? with
  | none => exact .pure like₁ ⟨rfl, ended⟩
  | some body => exact .pure like₁ ⟨rfl, nofun⟩

/-! ## Items -/

end Parser

/-- The events that are noted while items are gathered, besides the tokens that are read. -/
inductive Event.IsOfItems : Event → Prop where
  | ofRules {event : Event} (sort : event.IsOfRules) : IsOfItems event
  | parsedItem (item : Node) : IsOfItems (.parsedItem item)

theorem Event.IsOfItems.token?_eq_none {event : Event} (sort : event.IsOfItems) :
    event.token? = none := by
  cases sort with
  | ofRules sort => exact sort.token?_eq_none
  | parsedItem item => rfl

namespace Parser

/-- Items are gathered in lockstep, and no token is ever passed over. -/
theorem inLockstep_items (progress : Progress) :
    InLockstep Event.IsOfItems Same (recurse itemsStep progress) := by
  refine .recurse (fun again call progress => ?_) progress
  intro settings settings' cursor cursor' limit like
  have added : ∀ item middle middle', Cursor.IsLike middle middle' →
      EndAlike Event.IsOfItems Same
        (do note (.parsedItem item); again (progress.add item))
        (do note (.parsedItem item); again (progress.add item)) settings settings'
        middle middle' :=
    fun item middle middle' like₁ =>
      .note like₁ (.parsedItem item) fun _ _ like₂ _ => call _ _ _ _ _ limit like₂
  have expressions := inLockstep_topLevelExpression.imp (fun _ => Event.IsOfItems.ofRules)
    (fun _ _ _ => id) settings settings' cursor cursor' limit like
  have definitions := (Rule.inLockstep_definition inLockstep_expression).imp
    (fun _ => Event.IsOfItems.ofRules) (fun _ _ _ => id) settings settings' cursor cursor' limit like
  apply EndAlike.current
  rw [like.current.kind]
  cases cursor.current.kind with
  | endOfInput => exact .pure like rfl
  | funcWord =>
      refine definitions.bind ?_
      rintro middle middle' item _ like₁ rfl
      exact added item middle middle' like₁
  | _ =>
      refine expressions.bind ?_
      rintro middle middle' item? _ like₁ ⟨rfl, ended⟩
      cases item? with
      | some item => exact added item middle middle' like₁
      | none =>
          -- a missing expression leaves nothing to pass over
          have still : middle.hasTokens = false := by simp [Cursor.hasTokens, ended rfl]
          have still' : middle'.hasTokens = false := by
            rw [← still, Cursor.hasTokens, Cursor.hasTokens, like₁.current.kind]
          apply EndAlike.hasTokens
          rw [still, still']
          exact .pure like₁ rfl

end Parser

end ExprLang
