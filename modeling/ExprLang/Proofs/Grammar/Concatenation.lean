import ExprLang.Proofs.Grammar.Recognition
import ExprLang.Proofs.Parser.Locality

/-!
# Concatenations

Nothing that happens while one item is read has an effect on the next one, apart
from where the first item stops. So if a program ends with a token after which
no item can go on, parsing it together with more tokens gives its items followed
by the outcome of parsing these tokens alone.
-/

namespace ExprLang

/-! ## Where a program ends -/

namespace Token

/-- The tokens that an item other than a bare `return` may end with. -/
def Finishes (token : Token) : Prop :=
  token.isNumber = true ∨ token.kind = .rightParen ∨ token.kind = .rightBrace ∨
    token.kind = .identifier

/-- Whether a program that ends with the first token also does so before the second. -/
structure StandsApart (last next : Token) : Prop where
  noOperator : next.operator? = none
  uncalled : last.kind = .identifier → next.kind ≠ .leftParen

namespace Finishes

variable {last : Token}

theorem kind_cases (finishes : last.Finishes) :
    last.kind = .integerLiteral ∨ last.kind = .floatingLiteral ∨ last.kind = .rightParen ∨
      last.kind = .rightBrace ∨ last.kind = .identifier := by
  rcases finishes with number | other
  · exact ((Parser.Rule.isNumber_iff last).mp number).imp_right .inl
  · exact .inr (.inr other)

theorem not_asksForOperand (finishes : last.Finishes) : ¬ last.AsksForOperand := by
  rcases finishes.kind_cases with kind | kind | kind | kind | kind <;>
    simp [AsksForOperand, operator?_of_kind_ne, kind]

theorem precedes {next : Token} (finishes : last.Finishes) (apart : last.StandsApart next) :
    last.Precedes next := by
  refine ⟨apart.noOperator, apart.uncalled, fun returned => ?_⟩
  rcases finishes.kind_cases with kind | kind | kind | kind | kind <;> simp [kind] at returned

end Finishes

end Token

/-- The next token of a program may be replaced by any other one that its last token may precede. -/
theorem Items.before {levels : Nat} {tokens : List Token} {next next' : Token} {nodes : List Node}
    (items : Items levels tokens next nodes)
    (precedes : ∀ last ∈ tokens.getLast?, last.Precedes next') :
    Items levels tokens next' nodes := by
  induction items with
  | nil => exact .nil
  | @definition tokens rest _ _ _ first _ ih =>
      cases rest with
      | nil =>
          rw [List.append_nil] at precedes
          exact .definition (first.before precedes) (ih nofun)
      | cons head rest =>
          rw [List.getLast?_append_cons] at precedes
          exact .definition first (ih precedes)
  | @expression tokens rest _ _ _ first plain _ ih =>
      cases rest with
      | nil =>
          rw [List.append_nil] at precedes
          exact .expression (first.before precedes) plain (ih nofun)
      | cons head rest =>
          rw [List.getLast?_append_cons] at precedes
          exact .expression first plain (ih precedes)

/-! ## Items after other items -/

namespace Parser

/-- What has been read in all when more is read after what is already done. -/
def Progress.after (more done : Progress) : Progress :=
  ⟨more.items ++ done.items, done.skipped + more.skipped⟩

/-- What is read does not depend on the items already done, which are kept as they are. -/
theorem map_after_unroll_itemsStep (rounds : Nat) (more done : Progress) :
    (·.after done) <$> unroll itemsStep rounds more =
      unroll itemsStep rounds (more.after done) := by
  induction rounds generalizing more with
  | zero => rfl
  | succ rounds ih =>
      rw [unroll_succ, unroll_succ, itemsStep, itemsStep, map_bind]
      refine bind_congr fun token => ?_
      split
      · rfl
      · rw [map_bind]
        refine bind_congr fun item => ?_
        rw [map_bind]
        exact bind_congr fun _ => ih (more.add item)
      · rw [map_bind]
        refine bind_congr fun item? => ?_
        cases item? with
        | some item =>
            rw [map_bind]
            exact bind_congr fun _ => ih (more.add item)
        | none =>
            rw [map_bind]
            refine bind_congr fun left => ?_
            split
            · simp only [map_bind]
              refine bind_congr fun _ => bind_congr fun _ => bind_congr fun _ =>
                bind_congr fun _ => ?_
              exact ih { more with skipped := more.skipped + 1 }
            · rfl

theorem run_map {α β : Type} (change : α → β) (parser : Parser α) (settings : Settings)
    (cursor : Cursor) :
    (change <$> parser).run settings cursor =
      ((parser.run settings cursor).1.map change, (parser.run settings cursor).2) := by
  rw [map_eq_pure_bind, run_bind]
  cases parser.run settings cursor with
  | mk result stop => cases result <;> rfl

/--
The items that are read depend on the tokens ahead only, and those that are
already done stay in front of them.
-/
theorem result_items_after (done : Progress) (settings : Settings) {cursor cursor' : Cursor}
    (ahead : cursor'.remaining = cursor.remaining) (depth : cursor'.depth = cursor.depth) :
    ((recurse itemsStep done).run settings cursor').1 =
      ((recurse itemsStep ⟨[], 0⟩).run settings cursor).1.map (·.after done) := by
  have same : (recurse itemsStep done).run settings cursor =
      (((recurse itemsStep ⟨[], 0⟩).run settings cursor).1.map (·.after done),
        ((recurse itemsStep ⟨[], 0⟩).run settings cursor).2) := by
    have rounds := map_after_unroll_itemsStep (cursor.unread.length + 1) ⟨[], 0⟩ done
    change (unroll itemsStep (cursor.unread.length + 1) (Progress.after ⟨[], 0⟩ done)).run
      settings cursor = _
    rw [← rounds, run_map]
    rfl
  obtain ⟨_, ran, _⟩ := (inLockstep_items done).run_of_remaining (fun _ _ _ => id) same rfl ahead
    depth
  rw [ran]

end Parser

/-! ## Programs after other programs -/

/-- An accepted program that ends with a finishing token is one before any token it may precede. -/
theorem items_of_outcome_parse {settings : Settings} {tokens : List Token}
    {closing last next : Token} {nodes : List Node} (ends : closing.kind = .endOfInput)
    (unfinished : ∀ token ∈ tokens, token.kind ≠ .endOfInput)
    (accepted : (parse settings (tokens ++ [closing])).outcome = .ok nodes)
    (final : last ∈ tokens.getLast?) (finishes : last.Finishes) (precedes : last.Precedes next) :
    Items settings.maxDepth tokens next nodes := by
  obtain ⟨stop, _, shape, _, salvaged⟩ := salvaged_of_outcome_parse accepted
  rw [beforeEnd_append_cons unfinished ends] at shape salvaged
  refine (salvaged.items fun other final' => ?_).before fun other final' => ?_
  · rw [Option.mem_unique final' final]
    exact finishes.not_asksForOperand
  · rw [Option.mem_unique final' final]
    exact precedes

/-- After the items of a program, the outcome of parsing more tokens is that of parsing them alone. -/
theorem outcome_parse_append_of_items {settings : Settings} {first rest : List Token}
    {next : Token} {nodes : List Node} (items : Items settings.maxDepth first next nodes)
    (other : next.operator? = none) (stream : IsStream (next :: rest)) :
    (parse settings (first ++ next :: rest)).outcome =
      (parse settings (next :: rest)).outcome.map (nodes ++ ·) := by
  obtain ⟨_, made⟩ := stream.exists_ofTokens settings.file
  obtain ⟨_, made'⟩ := (stream.append first).exists_ofTokens settings.file
  obtain ⟨_, _, same, rfl, _⟩ := Cursor.exists_of_ofTokens made
  obtain ⟨head, tail, whole, rfl, _⟩ := Cursor.exists_of_ofTokens made'
  cases same
  rw [whole] at made' ⊢
  have ahead : (Cursor.start head tail).remaining = first ++ next :: rest := whole.symm
  obtain ⟨trace, ran⟩ := Parser.run_items_of_items items other ahead
    (Nat.le_of_eq (Nat.zero_add _)) ⟨[], 0⟩
  have alone := Parser.result_items_after ⟨nodes.reverse, 0⟩ settings
    (show Cursor.remaining ⟨next, rest, 0, trace⟩ = (Cursor.start next rest).remaining from rfl) rfl
  rw [outcome_parse made', ran, outcome_parse made, List.append_nil]
  change Except.map _ ((Parser.recurse Parser.itemsStep ⟨nodes.reverse, 0⟩).run settings
    ⟨next, rest, 0, trace⟩).1 = _
  rw [alone]
  cases ((Parser.recurse Parser.itemsStep ⟨[], 0⟩).run settings (.start next rest)).1 with
  | error fault => rfl
  | ok progress => simp [Except.map, Parser.Progress.after]

/--
After a program that is complete, the outcome of parsing more tokens is that of
parsing them alone, with the items of the program in front.
-/
theorem outcome_parse_append {settings : Settings} {first second : List Token}
    {closing last : Token} {nodes : List Node} (ends : closing.kind = .endOfInput)
    (unfinished : ∀ token ∈ first, token.kind ≠ .endOfInput)
    (accepted : (parse settings (first ++ [closing])).outcome = .ok nodes)
    (final : last ∈ first.getLast?) (finishes : last.Finishes)
    (apart : ∀ next ∈ second.head?, last.StandsApart next) :
    (parse settings (first ++ second ++ [closing])).outcome =
      (parse settings (second ++ [closing])).outcome.map (nodes ++ ·) := by
  have stream : IsStream (second ++ [closing]) := ⟨closing, List.getLast?_concat, ends⟩
  rw [List.append_assoc]
  cases second with
  | nil =>
      have precedes := Token.Closes.precedes (.inr (.inr ends)) last
      have items := items_of_outcome_parse ends unfinished accepted final finishes precedes
      exact outcome_parse_append_of_items items precedes.noOperator stream
  | cons next rest =>
      have precedes := finishes.precedes (apart next rfl)
      have items := items_of_outcome_parse ends unfinished accepted final finishes precedes
      exact outcome_parse_append_of_items items precedes.noOperator stream

/-- A number comes after a name, and the comma after it is blamed as it is without the name. -/
theorem outcome_parse_name_number_comma :
    (parse ⟨"", 3⟩ ([.sample .identifier] ++ [.sample .integerLiteral, .sample .comma] ++
        [.sample .endOfInput])).outcome =
      .error (Token.sample .comma).unexpected := by
  have apart : ∀ next ∈ [Token.sample .integerLiteral, .sample .comma].head?,
      (Token.sample .identifier).StandsApart next := by
    intro next first
    cases first
    exact ⟨rfl, fun _ => by decide⟩
  have name : (parse ⟨"", 3⟩ ([.sample .identifier] ++ [.sample .endOfInput])).outcome =
      .ok [.entryPoint (.variable "1")] := rfl
  exact outcome_parse_append rfl (by decide) name rfl (.inr (.inr (.inr rfl))) apart

end ExprLang
