import ExprLang.Proofs.Grammar.Recognition

/-!
# Nesting of nodes

The limit of nesting bounds every node that a parse returns. A value of a call, of
a `return` or of a definition takes a level of its own, while operands stay on the
level of their operation. So a phrase of so many levels has a node that is nested no
deeper, and the node of an expression, which takes one of the levels for itself, is
nested less deeply.
-/

namespace ExprLang

namespace Node

mutual

/-- How many values of calls, of `return`s and of definitions lie in each other in a node. -/
def nesting : Node → Nat
  | .number _ => 0
  | .variable _ => 0
  | .call _ arguments => argumentsNesting arguments
  | .binary _ lhs rhs => max lhs.nesting rhs.nesting
  | .function _ _ _ body => 1 + body.nesting
  | .bareReturn => 0
  | .returning value => 1 + value.nesting

/-- The deepest nesting among arguments, each of which counts for itself. -/
def argumentsNesting : List (String × Node) → Nat
  | [] => 0
  | (_, value) :: rest => max (1 + value.nesting) (argumentsNesting rest)

end

end Node

/-- Whether the value of a form is nested no deeper than so many levels allow. -/
def Form.IsWithin (levels : Nat) : (form : Form) → form.Value → Prop
  | .primary, node => node.nesting ≤ levels
  | .product, node => node.nesting ≤ levels
  | .sum, node => node.nesting ≤ levels
  | .expression, node => node.nesting < levels
  | .definition, node => node.nesting ≤ levels
  | .arguments, given => Node.argumentsNesting given ≤ levels

namespace Node

variable {levels : Nat} {lhs rhs : Node}

theorem nesting_binary_le (left : lhs.nesting ≤ levels) (right : rhs.nesting ≤ levels)
    (operator : Operator) : (Node.binary operator lhs rhs).nesting ≤ levels :=
  Nat.max_le.mpr ⟨left, right⟩

theorem nesting_returning_le {value : Node} (inner : value.nesting < levels) :
    (Node.returning value).nesting ≤ levels := by
  rw [nesting, Nat.add_comm]
  exact inner

theorem nesting_function_le {body : Node} (inner : body.nesting < levels) (name : String)
    (parameters : List Parameter) (type : ReturnType) :
    (Node.function name parameters type body).nesting ≤ levels := by
  rw [nesting, Nat.add_comm]
  exact inner

end Node

/-! ## Phrases -/

/-- The value of a phrase is nested no deeper than its levels. -/
theorem Phrase.isWithin {levels : Nat} {form : Form} {tokens : List Token} {next : Token}
    {value : form.Value} (phrase : Phrase levels form tokens next value) :
    form.IsWithin levels value := by
  induction phrase with
  | number _ _ => exact Nat.zero_le _
  | name _ _ => exact Nat.zero_le _
  | call _ _ _ _ ih => exact ih
  | parenthesised _ _ _ ih => exact Nat.le_of_lt ih
  | defined _ ih => exact ih
  | returning _ _ _ ih => exact Node.nesting_returning_le ih
  | bareReturn _ _ => exact Nat.zero_le _
  | factor _ ih => exact ih
  | multiplied _ _ _ _ left right => exact Node.nesting_binary_le left right _
  | term _ ih => exact ih
  | added _ _ _ _ left right => exact Node.nesting_binary_le left right _
  | nested _ ih => exact Nat.lt_succ_of_le ih
  | function _ _ _ _ _ _ _ _ _ _ ih => exact Node.nesting_function_le ih _ _ _
  | noArguments => exact Nat.zero_le _
  | argument _ _ _ _ _ given others =>
      refine Nat.max_le.mpr ⟨?_, others⟩
      rw [Nat.add_comm]
      exact given

/-- What remains of a truncated phrase is nested no deeper than its levels. -/
theorem Truncated.isWithin {levels : Nat} {form : Form} {tokens : List Token}
    {value? : Option form.Value} (truncated : Truncated levels form tokens value?) :
    ∀ value ∈ value?, form.IsWithin levels value := by
  induction truncated with
  | missing => nofun
  | parenthesised _ _ _ => nofun
  | bareReturn _ _ _ _ =>
      rintro _ ⟨⟩
      exact Nat.zero_le _
  | returning _ _ ih =>
      rintro _ ⟨⟩
      exact Node.nesting_returning_le (ih _ rfl)
  | factor _ ih => exact ih
  | multiplied product _ _ _ ih =>
      intro value remains
      obtain ⟨rhs, given, rfl⟩ := Option.map_eq_some_iff.mp remains
      exact Node.nesting_binary_le product.isWithin (ih rhs given) _
  | term _ ih => exact ih
  | added sum _ _ _ ih =>
      intro value remains
      obtain ⟨rhs, given, rfl⟩ := Option.map_eq_some_iff.mp remains
      exact Node.nesting_binary_le sum.isWithin (ih rhs given) _
  | nested _ ih => exact fun value remains => Nat.lt_succ_of_le (ih value remains)

/-! ## Programs -/

/-- The items of a program with so many levels are nested no deeper. -/
theorem Salvaged.nesting_le {levels : Nat} {tokens : List Token} {next : Token}
    {nodes : List Node} (salvaged : Salvaged levels tokens next nodes) :
    ∀ node ∈ nodes, node.nesting ≤ levels := by
  induction salvaged with
  | nil => nofun
  | definition first _ ih => exact List.forall_mem_cons.mpr ⟨first.isWithin, ih⟩
  | expression first _ _ ih =>
      exact List.forall_mem_cons.mpr ⟨Node.nesting_function_le first.isWithin _ _ _, ih⟩
  | @truncated _ _ body? _ last =>
      cases body? with
      | none => nofun
      | some body =>
          exact List.forall_mem_singleton.mpr
            (Node.nesting_function_le (last.isWithin body rfl) _ _ _)

/-- No node that a parse returns is nested deeper than the limit. -/
theorem nesting_le_of_outcome_parse {settings : Settings} {tokens : List Token}
    {nodes : List Node} (accepted : (parse settings tokens).outcome = .ok nodes) :
    ∀ node ∈ nodes, node.nesting ≤ settings.maxDepth := by
  obtain ⟨_, _, _, _, salvaged⟩ := salvaged_of_outcome_parse accepted
  exact salvaged.nesting_le

/-- A returned call with an argument takes three levels as an item, and no more. -/
theorem nesting_le_returned_call :
    (parse ⟨"", 3⟩ [.sample .returnWord, .sample .identifier, .sample .leftParen,
        .sample .identifier, .sample .colon, .sample .identifier, .sample .rightParen,
        .sample .endOfInput]).outcome =
      .ok [.entryPoint (.returning (.call "1" [("1", .variable "1")]))] ∧
    (Node.entryPoint (.returning (.call "1" [("1", .variable "1")]))).nesting = 3 ∧
    (Node.entryPoint (.returning (.call "1" [("1", .variable "1")]))).nesting ≤ 3 := by
  have accepted : (parse ⟨"", 3⟩ [.sample .returnWord, .sample .identifier, .sample .leftParen,
      .sample .identifier, .sample .colon, .sample .identifier, .sample .rightParen,
      .sample .endOfInput]).outcome =
        .ok [.entryPoint (.returning (.call "1" [("1", .variable "1")]))] := rfl
  exact ⟨accepted, rfl, nesting_le_of_outcome_parse accepted _ (List.mem_singleton_self _)⟩

end ExprLang
