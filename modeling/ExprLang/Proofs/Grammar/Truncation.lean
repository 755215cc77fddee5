import ExprLang.Proofs.Grammar.Continuation

/-!
# Truncated phrases

The end of the input may cut a chain off after an operator or a parenthesis. A
truncated expression is no fault: it is missing as a whole, unless a `return`
that has already been read gives up its value and stands alone. All that
follows the last complete operand or word is dropped then.
-/

namespace ExprLang

/-- The phrases that the end of the input cuts off, with what remains of their values. -/
inductive Truncated : Nat → (form : Form) → List Token → Option form.Value → Prop where
  | missing {levels : Nat} : Truncated levels .primary [] none
  | parenthesised {levels : Nat} {opening : Token} {inside : List Token}
      (opened : opening.kind = .leftParen) (inner : Truncated levels .expression inside none) :
      Truncated levels .primary (opening :: inside) none
  | bareReturn {levels : Nat} {word : Token} {inside : List Token}
      (returned : word.kind = .returnWord) (started : inside ≠ [])
      (inner : Truncated levels .expression inside none) :
      Truncated levels .primary (word :: inside) (some .bareReturn)
  | returning {levels : Nat} {word : Token} {inside : List Token} {value : Node}
      (returned : word.kind = .returnWord)
      (inner : Truncated levels .expression inside (some value)) :
      Truncated levels .primary (word :: inside) (some (.returning value))
  | factor {levels : Nat} {tokens : List Token} {node? : Option Node}
      (primary : Truncated levels .primary tokens node?) : Truncated levels .product tokens node?
  | multiplied {levels : Nat} {left right : List Token} {sign : Token} {operator : Operator}
      {lhs : Node} {rhs? : Option Node} (product : Phrase levels .product left sign lhs)
      (denoted : sign.operator? = some operator) (binds : operator.IsMultiplicative)
      (primary : Truncated levels .primary right rhs?) :
      Truncated levels .product (left ++ sign :: right) (rhs?.map (.binary operator lhs))
  | term {levels : Nat} {tokens : List Token} {node? : Option Node}
      (product : Truncated levels .product tokens node?) : Truncated levels .sum tokens node?
  | added {levels : Nat} {left right : List Token} {sign : Token} {operator : Operator}
      {lhs : Node} {rhs? : Option Node} (sum : Phrase levels .sum left sign lhs)
      (denoted : sign.operator? = some operator) (binds : operator.IsAdditive)
      (product : Truncated levels .product right rhs?) :
      Truncated levels .sum (left ++ sign :: right) (rhs?.map (.binary operator lhs))
  | nested {levels : Nat} {tokens : List Token} {node? : Option Node}
      (sum : Truncated levels .sum tokens node?) :
      Truncated (levels + 1) .expression tokens node?

/--
The items that are left of a program whose last expression may be truncated. The
next token ends the program.
-/
inductive Salvaged (levels : Nat) : List Token → Token → List Node → Prop where
  | nil {next : Token} : Salvaged levels [] next []
  | definition {tokens rest : List Token} {next : Token} {node : Node} {nodes : List Node}
      (first : Phrase levels .definition tokens (rest.headD next) node)
      (others : Salvaged levels rest next nodes) :
      Salvaged levels (tokens ++ rest) next (node :: nodes)
  | expression {tokens rest : List Token} {next : Token} {body : Node} {nodes : List Node}
      (first : Phrase levels .expression tokens (rest.headD next) body)
      (plain : ∀ word ∈ tokens.head?, word.kind ≠ .funcWord)
      (others : Salvaged levels rest next nodes) :
      Salvaged levels (tokens ++ rest) next (.entryPoint body :: nodes)
  | truncated {tokens : List Token} {next : Token} {body? : Option Node}
      (started : tokens ≠ []) (last : Truncated levels .expression tokens body?) :
      Salvaged levels tokens next (body?.map .entryPoint).toList

namespace Truncated

variable {levels : Nat} {form : Form} {tokens : List Token}

/-- If something remains of a truncated phrase, it has been read. -/
theorem ne_nil_of_isSome {value? : Option form.Value}
    (truncated : Truncated levels form tokens value?) (remains : value?.isSome) : tokens ≠ [] := by
  induction truncated with
  | missing => cases remains
  | parenthesised _ _ _ => cases remains
  | bareReturn _ _ _ _ => exact List.cons_ne_nil _ _
  | returning _ _ _ => exact List.cons_ne_nil _ _
  | factor _ ih => exact ih remains
  | multiplied _ _ _ _ _ => simp
  | term _ ih => exact ih remains
  | added _ _ _ _ _ => simp
  | nested _ ih => exact ih remains

/-- A phrase is cut off only after a token that asks for an operand. -/
theorem asksForOperand {value? : Option form.Value} (truncated : Truncated levels form tokens value?)
    (started : tokens ≠ []) : ∃ last ∈ tokens.getLast?, last.AsksForOperand := by
  induction truncated with
  | missing => exact absurd rfl started
  | @parenthesised _ opening inside opened inner ih =>
      cases inside with
      | nil => exact ⟨opening, rfl, .inl opened⟩
      | cons first rest =>
          rw [List.getLast?_cons_cons]
          exact ih (List.cons_ne_nil first rest)
  | bareReturn _ nonempty _ ih =>
      rw [List.getLast?_cons_of_ne_nil nonempty]
      exact ih nonempty
  | returning _ inner ih =>
      have nonempty := inner.ne_nil_of_isSome rfl
      rw [List.getLast?_cons_of_ne_nil nonempty]
      exact ih nonempty
  | factor _ ih => exact ih started
  | @multiplied _ left right sign operator _ _ _ denoted binds _ ih =>
      rw [List.getLast?_append_cons]
      cases right with
      | nil => exact ⟨sign, rfl, .inr ⟨operator, denoted, .inr binds⟩⟩
      | cons first rest =>
          rw [List.getLast?_cons_cons]
          exact ih (List.cons_ne_nil first rest)
  | term _ ih => exact ih started
  | @added _ left right sign operator _ _ _ denoted binds _ ih =>
      rw [List.getLast?_append_cons]
      cases right with
      | nil => exact ⟨sign, rfl, .inr ⟨operator, denoted, .inl binds⟩⟩
      | cons first rest =>
          rw [List.getLast?_cons_cons]
          exact ih (List.cons_ne_nil first rest)
  | nested _ ih => exact ih started

/-- A truncated phrase is the beginning of a complete one. -/
theorem begins {value? : Option form.Value} (truncated : Truncated levels form tokens value?) :
    Begins form tokens := by
  induction truncated with
  | missing => exact .primary_nil
  | parenthesised opened _ ih => exact .parenthesised opened ih
  | bareReturn returned _ _ ih => exact .returning returned ih
  | returning returned _ ih => exact .returning returned ih
  | factor _ ih => exact ih.factor
  | multiplied product denoted binds _ ih => exact .multiplied product denoted binds ih
  | term _ ih => exact ih.term
  | added sum denoted binds _ ih => exact .added sum denoted binds ih
  | nested _ ih => exact ih.nested

end Truncated

/-- If the last token asks for no operand, nothing is cut off. -/
theorem Salvaged.items {levels : Nat} {tokens : List Token} {next : Token} {nodes : List Node}
    (salvaged : Salvaged levels tokens next nodes)
    (complete : ∀ last ∈ tokens.getLast?, ¬ last.AsksForOperand) :
    Items levels tokens next nodes := by
  induction salvaged with
  | nil => exact .nil
  | definition first _ ih =>
      refine .definition first (ih fun last final => complete last ?_)
      exact List.mem_getLast?_append_of_mem_getLast? final
  | expression first plain _ ih =>
      refine .expression first plain (ih fun last final => complete last ?_)
      exact List.mem_getLast?_append_of_mem_getLast? final
  | truncated started last =>
      obtain ⟨token, final, asks⟩ := last.asksForOperand started
      exact absurd asks (complete token final)

end ExprLang
