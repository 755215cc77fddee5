import ExprLang.Proofs.Grammar.Completeness
import ExprLang.Proofs.Grammar.Soundness

/-!
# Recognition

The parser accepts exactly the programs of the grammar, with their items, if the
input does not end where an operand is asked for and if the limit of nesting is
no shorter than the input. Any accepted stream is a program up to the first end
of the input, apart from a truncated expression.
-/

namespace ExprLang

/-- The tokens of a stream before the first one for the end of the input. -/
def beforeEnd (tokens : List Token) : List Token :=
  tokens.takeWhile fun token => token.kind != .endOfInput

theorem beforeEnd_append_cons {tokens rest : List Token} {closing : Token}
    (unfinished : ∀ token ∈ tokens, token.kind ≠ .endOfInput)
    (ends : closing.kind = .endOfInput) : beforeEnd (tokens ++ closing :: rest) = tokens := by
  have all : ∀ token ∈ tokens, (token.kind != .endOfInput) = true := by
    intro token member
    exact bne_iff_ne.mpr (unfinished token member)
  rw [beforeEnd, List.takeWhile_append_of_pos all, List.takeWhile_cons_of_neg (by simp [ends]),
    List.append_nil]

/-- What is read up to the end of the input are the tokens before it. -/
theorem Cursor.Reaches.beforeEnd_remaining {start stop : Cursor} {read : List Token}
    (reaches : start.Reaches read stop) (ended : stop.current.kind = .endOfInput) :
    beforeEnd start.remaining = read := by
  rw [reaches.remaining]
  exact beforeEnd_append_cons reaches.unfinished ended

theorem Cursor.isClosed_start {first : Token} {rest : List Token}
    (ends : (rest.getLastD first).kind = .endOfInput) : (Cursor.start first rest).IsClosed := by
  refine ⟨(first :: rest).dropLast, rest.getLastD first, ?_, ends⟩
  have whole := List.dropLast_concat_getLast (List.cons_ne_nil first rest)
  rw [List.getLast_eq_getLastD] at whole
  exact whole.symm

/-- The run behind an accepted stream. -/
theorem exists_run_of_outcome_parse {settings : Settings} {tokens : List Token}
    {nodes : List Node} (accepted : (parse settings tokens).outcome = .ok nodes) :
    ∃ first rest read stop, tokens = first :: rest ∧ (rest.getLastD first).kind = .endOfInput ∧
      (Parser.recurse Parser.itemsStep ⟨[], 0⟩).run settings (.start first rest) =
        (.ok ⟨nodes.reverse, 0⟩, stop) ∧
      (Cursor.start first rest).Reaches read stop ∧ stop.current.kind = .endOfInput ∧
      Salvaged settings.maxDepth read stop.current nodes := by
  cases made : Cursor.ofTokens settings.file tokens with
  | error fault =>
      rw [parse, made] at accepted
      cases accepted
  | ok cursor =>
      obtain ⟨first, rest, rfl, rfl, ends⟩ := Cursor.exists_of_ofTokens made
      rw [outcome_parse made] at accepted
      have closed := Cursor.isClosed_start ends
      cases Parser.ends_items closed (Nat.sub_zero settings.maxDepth) ⟨[], 0⟩ with
      | failed ran _ _ _ =>
          rw [ran] at accepted
          cases accepted
      | @done read stop gathered ran reaches holds =>
          obtain ⟨ended, items, salvaged, rfl⟩ := holds
          rw [ran] at accepted
          have same : items = nodes := by simpa [Except.map] using accepted
          subst same
          rw [List.append_nil] at ran
          exact ⟨first, rest, read, stop, rfl, ends, ran, reaches, ended, salvaged⟩

/-- An accepted stream holds a program, which the first end of the input may have truncated. -/
theorem salvaged_of_outcome_parse {settings : Settings} {tokens : List Token} {nodes : List Node}
    (accepted : (parse settings tokens).outcome = .ok nodes) :
    ∃ closing rest, tokens = beforeEnd tokens ++ closing :: rest ∧ closing.kind = .endOfInput ∧
      Salvaged settings.maxDepth (beforeEnd tokens) closing nodes := by
  obtain ⟨first, rest, read, stop, rfl, _, _, reaches, ended, salvaged⟩ :=
    exists_run_of_outcome_parse accepted
  have front : beforeEnd (first :: rest) = read := reaches.beforeEnd_remaining ended
  rw [front]
  exact ⟨stop.current, stop.unread, reaches.remaining, ended, salvaged⟩

/--
The parser gives exactly the items of the grammar, if no operand is missing at
the end of the input and the limit of nesting leaves room for every token.
-/
theorem outcome_parse_eq_ok_iff {settings : Settings} {tokens : List Token} {closing : Token}
    {nodes : List Node} (ends : closing.kind = .endOfInput)
    (unfinished : ∀ token ∈ tokens, token.kind ≠ .endOfInput)
    (complete : ∀ last ∈ tokens.getLast?, ¬ last.AsksForOperand)
    (room : (tokens ++ [closing]).length ≤ settings.maxDepth) :
    (parse settings (tokens ++ [closing])).outcome = .ok nodes ↔
      IsProgram tokens closing nodes := by
  constructor
  · intro accepted
    obtain ⟨stop, rest, shape, _, salvaged⟩ := salvaged_of_outcome_parse accepted
    rw [beforeEnd_append_cons unfinished ends] at shape salvaged
    have same : closing = stop := (List.cons.inj (List.append_cancel_left shape)).1
    rw [← same] at salvaged
    exact ⟨settings.maxDepth, salvaged.items complete⟩
  · intro derived
    obtain ⟨levels, items⟩ := derived
    have enough : tokens.length ≤ settings.maxDepth := by
      rw [List.length_append] at room
      omega
    exact outcome_parse_of_items items.levels_of_length ends enough

theorem outcome_parse_returned_name :
    (parse ⟨"", 3⟩ ([.sample .returnWord, .sample .identifier] ++ [.sample .endOfInput])).outcome =
      .ok [.entryPoint (.returning (.variable "1"))] := by
  refine (outcome_parse_eq_ok_iff rfl (by decide) ?_ (by decide)).mpr ⟨2, ?_⟩
  · simp [Token.AsksForOperand, Token.sample, Token.operator?]
  · have name : Phrase 0 .primary [.sample .identifier] (.sample .endOfInput) (.variable "1") :=
      .name rfl (by decide)
    have whole := Phrase.returning (show (Token.sample .returnWord).kind = .returnWord from rfl)
      (.nested (.term (.factor name))) rfl
    exact .expression (.nested (.term (.factor whole))) (by decide) .nil

end ExprLang
