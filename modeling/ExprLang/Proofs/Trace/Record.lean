import ExprLang.Proofs.Parser.Limit
import ExprLang.Proofs.Parser.Termination
import ExprLang.Proofs.Trace.Functions

/-!
# Records of a parse

The events of a parse tell what it has done, also when it fails. Each token up to the
one where it stops is recorded as read, once and in order. The items that are complete
before it stops are recorded in order, and so are the functions in them. The summary
is the last record of a parse that succeeds, and a parse that fails has none.
-/

namespace ExprLang

/-- The item that an event records. -/
def Event.item? : Event → Option Node
  | .parsedItem node => some node
  | _ => none

theorem Event.IsOfRules.item?_eq_none {event : Event} (sort : event.IsOfRules) :
    event.item? = none := by
  cases sort <;> rfl

namespace Cursor

/-- The items that have been recorded, in order. -/
def items (cursor : Cursor) : List Node :=
  cursor.events.filterMap Event.item?

theorem items_note (cursor : Cursor) (event : Event) :
    (cursor.note event).items = cursor.items ++ event.item?.toList := by
  rw [items, events, note, List.reverse_cons, List.filterMap_append]
  cases item : event.item? <;> simp [item, items, events]

/-- The cursors differ in their traces only. -/
structure SamePlace (first second : Cursor) : Prop where
  remaining : second.remaining = first.remaining
  depth : second.depth = first.depth

/-- On a movement no item is recorded, if the events of its sort record none. -/
theorem Moves.items_eq {noted : Event → Prop} {limit : Nat} {start stop : Cursor}
    (moves : start.Moves noted limit stop) (silent : ∀ event, noted event → event.item? = none) :
    stop.items = start.items := by
  obtain ⟨events, trace, sorts⟩ := moves.exists_trace
  have none : events.reverse.filterMap Event.item? = [] := by
    rw [List.filterMap_eq_nil_iff]
    intro event member
    rcases sorts event (List.mem_reverse.mp member) with ⟨token, rfl⟩ | sort
    · rfl
    · exact silent event sort
  rw [items, Cursor.events, trace, List.reverse_append, List.filterMap_append, none,
    List.append_nil]
  rfl

end Cursor

namespace Parser

variable {α : Type} {settings : Settings} {cursor cursor' middle stop : Cursor}

theorem InLockstep.run_of_samePlace {noted : Event → Prop} {related : Token → α → α → Prop}
    {parser : Parser α} {result : Except Fault α} (lockstep : InLockstep noted related parser)
    (same : ∀ stop value value', related stop value value' → value = value')
    (ran : parser.run settings cursor = (result, stop)) (place : cursor.SamePlace cursor') :
    ∃ stop', parser.run settings cursor' = (result, stop') ∧ stop.SamePlace stop' := by
  obtain ⟨stop', ran', ahead⟩ := lockstep.run_of_remaining same ran rfl place.remaining place.depth
  obtain ⟨_, reaches⟩ := (lockstep.moves settings cursor).reaches
  obtain ⟨_, reaches'⟩ := (lockstep.moves settings cursor').reaches
  rw [ran] at reaches
  rw [ran'] at reaches'
  exact ⟨stop', ran', ahead, reaches'.depth.trans (place.depth.trans reaches.depth.symm)⟩

/-! ## Items -/

/-- An item starts at the first cursor, and its own rule reads it up to the second one. -/
inductive ReadsItem (settings : Settings) (cursor : Cursor) : Item → Cursor → Prop where
  | definition {node : Node} {stop : Cursor} (defines : cursor.current.kind = .funcWord)
      (ran : definition.run settings cursor = (.ok node, stop)) :
      ReadsItem settings cursor (.definition node) stop
  | expression {body : Node} {stop : Cursor} (unfinished : cursor.current.kind ≠ .endOfInput)
      (plain : cursor.current.kind ≠ .funcWord)
      (ran : expression.run settings cursor = (.ok (some body), stop)) :
      ReadsItem settings cursor (.expression body) stop

/-- An item starts at the cursor, and its own rule fails to read it. -/
inductive FailsItem (settings : Settings) (cursor : Cursor) (fault : Fault) : Prop where
  | definition (defines : cursor.current.kind = .funcWord)
      (failed : (definition.run settings cursor).1 = .error fault)
  | expression (unfinished : cursor.current.kind ≠ .endOfInput)
      (plain : cursor.current.kind ≠ .funcWord)
      (failed : (expression.run settings cursor).1 = .error fault)

/-- Items that are read one after the other. -/
inductive Completes (settings : Settings) : Cursor → List Item → Cursor → Prop where
  | nil (cursor : Cursor) : Completes settings cursor [] cursor
  | cons {cursor middle stop : Cursor} {item : Item} {items : List Item}
      (first : ReadsItem settings cursor item middle)
      (rest : Completes settings middle items stop) :
      Completes settings cursor (item :: items) stop

/--
How a program ends after items: with these at the end of the input, or where the end of
the input cuts the next expression off, or with the fault of the next item.
-/
inductive Concludes (settings : Settings) (cursor : Cursor) (items : List Item) :
    Except Fault (List Node) → Prop where
  | done (ended : cursor.current.kind = .endOfInput) :
      Concludes settings cursor items (.ok (items.map Item.node))
  | cutOff (unfinished : cursor.current.kind ≠ .endOfInput)
      (plain : cursor.current.kind ≠ .funcWord)
      (missing : (expression.run settings cursor).1 = .ok none) :
      Concludes settings cursor items (.ok (items.map Item.node))
  | failed {fault : Fault} (fails : FailsItem settings cursor fault) :
      Concludes settings cursor items (.error fault)

/-- One item more before the others changes nothing but the nodes that are given. -/
theorem Concludes.cons {items : List Item} {result : Except Fault (List Node)}
    (concludes : Concludes settings cursor items result) (item : Item) :
    Concludes settings cursor (item :: items) (result.map (item.node :: ·)) := by
  cases concludes with
  | done ended => exact .done ended
  | cutOff unfinished plain missing => exact .cutOff unfinished plain missing
  | failed fails => exact .failed fails

/-! ### Places -/

theorem run_definition_of_samePlace {result : Except Fault Node}
    (ran : definition.run settings cursor = (result, stop)) (place : cursor.SamePlace cursor') :
    ∃ stop', definition.run settings cursor' = (result, stop') ∧ stop.SamePlace stop' :=
  (Rule.inLockstep_definition inLockstep_expression).run_of_samePlace (fun _ _ _ => id) ran place

theorem run_expression_of_samePlace {result : Except Fault (Option Node)}
    (ran : expression.run settings cursor = (result, stop)) (place : cursor.SamePlace cursor') :
    ∃ stop', expression.run settings cursor' = (result, stop') ∧ stop.SamePlace stop' :=
  inLockstep_expression.run_of_samePlace (fun _ _ _ => And.left) ran place

theorem ReadsItem.of_samePlace {item : Item} (reads : ReadsItem settings cursor item stop)
    (place : cursor.SamePlace cursor') :
    ∃ stop', ReadsItem settings cursor' item stop' ∧ stop.SamePlace stop' := by
  have same : cursor'.current = cursor.current := (List.cons.inj place.remaining).1
  cases reads with
  | definition defines ran =>
      obtain ⟨stop', ran', place'⟩ := run_definition_of_samePlace ran place
      exact ⟨stop', .definition (same ▸ defines) ran', place'⟩
  | expression unfinished plain ran =>
      obtain ⟨stop', ran', place'⟩ := run_expression_of_samePlace ran place
      exact ⟨stop', .expression (same ▸ unfinished) (same ▸ plain) ran', place'⟩

theorem Completes.of_samePlace {items : List Item}
    (completes : Completes settings cursor items stop) (place : cursor.SamePlace cursor') :
    ∃ stop', Completes settings cursor' items stop' ∧ stop.SamePlace stop' := by
  induction completes generalizing cursor' with
  | nil cursor => exact ⟨cursor', .nil cursor', place⟩
  | cons first _ ih =>
      obtain ⟨middle', first', place'⟩ := first.of_samePlace place
      obtain ⟨stop', rest', last⟩ := ih place'
      exact ⟨stop', .cons first' rest', last⟩

theorem Concludes.of_samePlace {items : List Item} {result : Except Fault (List Node)}
    (concludes : Concludes settings cursor items result) (place : cursor.SamePlace cursor') :
    Concludes settings cursor' items result := by
  have same : cursor'.current = cursor.current := (List.cons.inj place.remaining).1
  cases concludes with
  | done ended => exact .done (same ▸ ended)
  | cutOff unfinished plain missing =>
      obtain ⟨_, ran, _⟩ := run_expression_of_samePlace (Prod.ext missing rfl) place
      exact .cutOff (same ▸ unfinished) (same ▸ plain) (congrArg Prod.fst ran)
  | failed fails =>
      cases fails with
      | definition defines failed =>
          obtain ⟨_, ran, _⟩ := run_definition_of_samePlace (Prod.ext failed rfl) place
          exact .failed (.definition (same ▸ defines) (congrArg Prod.fst ran))
      | expression unfinished plain failed =>
          obtain ⟨_, ran, _⟩ := run_expression_of_samePlace (Prod.ext failed rfl) place
          exact .failed (.expression (same ▸ unfinished) (same ▸ plain) (congrArg Prod.fst ran))

/-! ### What reading an item does -/

/-- While an item is read, none is recorded. -/
theorem items_run_definition (settings : Settings) (cursor : Cursor) :
    (definition.run settings cursor).2.items = cursor.items :=
  ((Rule.inLockstep_definition inLockstep_expression).moves settings cursor).items_eq
    fun _ => Event.IsOfRules.item?_eq_none

theorem items_run_expression (settings : Settings) (cursor : Cursor) :
    (expression.run settings cursor).2.items = cursor.items :=
  (inLockstep_expression.moves settings cursor).items_eq fun _ => Event.IsOfRules.item?_eq_none

namespace ReadsItem

variable {item : Item}

theorem items_eq (reads : ReadsItem settings cursor item middle) : middle.items = cursor.items := by
  cases reads with
  | definition _ ran =>
      rw [← items_run_definition settings cursor, ran]
  | expression _ _ ran =>
      rw [← items_run_expression settings cursor, ran]

theorem unread_lt (reads : ReadsItem settings cursor item middle) :
    middle.unread.length < cursor.unread.length := by
  cases reads with
  | definition _ ran => exact readsOn_definition _ _ _ _ ran
  | expression _ _ ran => exact unread_lt_of_expression ran

theorem told (reads : ReadsItem settings cursor item middle) (complete : cursor.IsComplete) :
    middle.IsComplete ∧ middle.functions = cursor.functions ++ item.functions := by
  cases reads with
  | definition _ ran =>
      obtain ⟨_, _, reaches, told, rfl⟩ :=
        Rule.tells_definition tells_expression settings cursor complete _ _ ran
      exact ⟨reaches.isComplete complete, told⟩
  | expression _ _ ran =>
      obtain ⟨_, functions, reaches, told, given⟩ :=
        tells_expression settings cursor complete _ _ ran
      exact ⟨reaches.isComplete complete, told.trans (congrArg _ given)⟩

theorem run_items (reads : ReadsItem settings cursor item middle) (progress : Progress) :
    (recurse itemsStep progress).run settings cursor =
      (recurse itemsStep (progress.add item.node)).run settings
        (middle.note (.parsedItem item.node)) := by
  cases reads with
  | definition defines ran => exact run_items_of_definition defines ran
  | expression unfinished plain ran => exact run_items_of_expression unfinished plain ran

end ReadsItem

/-! ## Items of a program -/

/--
What the events of gathering items tell: which items are read one after the other
before the parser stops, and which functions they have if it succeeds.
-/
structure IsRecorded (settings : Settings) (cursor : Cursor) (progress : Progress)
    (items : List Item) (stop : Cursor) : Prop where
  completes : Completes settings cursor items stop
  concludes : ∃ result, Concludes settings stop items result ∧
    ((recurse itemsStep progress).run settings cursor).1.map (fun final => final.items.reverse) =
      result.map (progress.items.reverse ++ ·)
  recorded : ((recurse itemsStep progress).run settings cursor).2.items =
    cursor.items ++ items.map Item.node
  told : cursor.IsComplete → ∀ final,
    ((recurse itemsStep progress).run settings cursor).1 = .ok final →
    ((recurse itemsStep progress).run settings cursor).2.functions =
      cursor.functions ++ items.flatMap Item.functions

namespace IsRecorded

variable {progress : Progress}

/-- The record of an item comes after those of the functions in it and before all later ones. -/
theorem cons {item : Item} {items : List Item} (first : ReadsItem settings cursor item middle)
    (rest : IsRecorded settings (middle.note (.parsedItem item.node)) (progress.add item.node)
      items stop) : ∃ stop', IsRecorded settings cursor progress (item :: items) stop' := by
  have noted : (middle.note (.parsedItem item.node)).SamePlace middle := ⟨rfl, rfl⟩
  obtain ⟨stop', others, last⟩ := rest.completes.of_samePlace noted
  obtain ⟨result, concludes, same⟩ := rest.concludes
  have runs := first.run_items progress
  refine ⟨stop', .cons first others, ?_, ?_, ?_⟩
  · refine ⟨_, (concludes.of_samePlace last).cons item, ?_⟩
    rw [runs, same]
    cases result <;> simp [Progress.add, Except.map]
  · rw [runs, rest.recorded, Cursor.items_note, first.items_eq, List.append_assoc]
    rfl
  · intro complete final ran
    rw [runs] at ran ⊢
    obtain ⟨complete', told⟩ := first.told complete
    rw [rest.told complete' final ran, Cursor.functions_note, told, List.flatMap_cons]
    simp [Event.function?]

/-- The parser stops where no further item has been read. -/
theorem nil {result : Except Fault Progress}
    (ran : (recurse itemsStep progress).run settings cursor = (result, stop))
    (concludes : Concludes settings cursor [] (result.map fun _ => []))
    (same : ∀ final, result = .ok final → final = progress) (still : stop.items = cursor.items)
    (told : cursor.IsComplete → ∀ final, result = .ok final → stop.functions = cursor.functions) :
    IsRecorded settings cursor progress [] cursor := by
  refine ⟨.nil cursor, ⟨_, concludes, ?_⟩, ?_, fun complete final => ?_⟩
  · rw [ran]
    cases result with
    | error fault => rfl
    | ok final => simp [Except.map, same final rfl]
  · rw [ran, still]
    exact (List.append_nil _).symm
  · rw [ran]
    intro succeeded
    rw [told complete final succeeded]
    exact (List.append_nil _).symm

end IsRecorded

theorem exists_isRecorded (settings : Settings) (cursor : Cursor) (progress : Progress) :
    ∃ items stop, IsRecorded settings cursor progress items stop := by
  induction count : cursor.unread.length using Nat.strongRecOn generalizing cursor progress with
  | ind _ ih =>
      have further : ∀ {item : Item} {middle : Cursor}, ReadsItem settings cursor item middle →
          ∃ items stop, IsRecorded settings cursor progress items stop := by
        intro item middle first
        obtain ⟨items, stop, rest⟩ := ih _ (count ▸ first.unread_lt)
          (middle.note (.parsedItem item.node)) (progress.add item.node) rfl
        obtain ⟨stop', whole⟩ := rest.cons first
        exact ⟨_, stop', whole⟩
      by_cases ended : cursor.current.kind = .endOfInput
      · exact ⟨[], cursor, .nil (run_items_of_endOfInput ended) (.done ended)
          (fun _ same => (Except.ok.inj same).symm) rfl fun _ _ _ => rfl⟩
      by_cases defines : cursor.current.kind = .funcWord
      · cases ran : definition.run settings cursor with
        | mk result middle =>
            cases result with
            | ok node => exact further (.definition defines ran)
            | error fault =>
                refine ⟨[], cursor, .nil (run_items_of_definition_error defines ran)
                  (.failed (.definition defines (congrArg Prod.fst ran))) nofun ?_ fun _ => nofun⟩
                rw [← items_run_definition settings cursor, ran]
      · cases ran : expression.run settings cursor with
        | mk result middle =>
            have still : middle.items = cursor.items := by
              rw [← items_run_expression settings cursor, ran]
            cases result with
            | error fault =>
                exact ⟨[], cursor, .nil (run_items_of_expression_error ended defines ran)
                  (.failed (.expression ended defines (congrArg Prod.fst ran))) nofun still
                  fun _ => nofun⟩
            | ok body? =>
                cases body? with
                | some body => exact further (.expression ended defines ran)
                | none =>
                    have atEnd := inLockstep_expression.missesOnlyAtEnd settings cursor middle ran
                    refine ⟨[], cursor, .nil (run_items_of_missing ended defines ran atEnd)
                      (.cutOff ended defines (congrArg Prod.fst ran))
                      (fun _ same => (Except.ok.inj same).symm) still fun complete => ?_⟩
                    -- nothing is cut off from a complete stream
                    obtain ⟨_, _, _, _, started, _⟩ :=
                      tells_expression settings cursor complete none middle ran
                    exact absurd started ended

/-! ## Whole programs -/

section Programs

variable {tokens : List Token} {start : Cursor} {result : Except Fault (List Node)}

/-- A parse is a run of the program from before the first token. -/
theorem parse_of_run_program (made : Cursor.ofTokens settings.file tokens = .ok start)
    (ran : program.run settings start = (result, stop)) :
    parse settings tokens = ⟨result, stop.events⟩ := by
  rw [parse, made]
  change Traced.mk (program.run settings start).1 (program.run settings start).2.events = _
  rw [ran]

/-- The tokens that have been read are those up to the one where the program stops. -/
theorem reads_of_run_program (made : Cursor.ofTokens settings.file tokens = .ok start)
    (ran : program.run settings start = (result, stop)) :
    ∃ index, stop.StandsAt tokens index ∧ stop.reads = tokens.take (index + 1) := by
  obtain ⟨index, there, _⟩ := isLocalOnStreams_program settings tokens start made
  obtain ⟨read, consumes⟩ := onlyConsumes_program settings start
  obtain ⟨first, rest, rfl, rfl, _⟩ := Cursor.exists_of_ofTokens made
  rw [ran] at there consumes
  dsimp only at there consumes
  have all : first :: rest = read ++ stop.unread := consumes.unread
  have reads : stop.reads = read := consumes.reads
  have count : read.length = index + 1 := by
    have whole := congrArg List.length all
    have place := Cursor.StandsAt.index_eq there
    rw [List.length_append] at whole
    omega
  refine ⟨index, there, ?_⟩
  rw [reads, all, ← count, List.take_left]

/-- The items that are recorded are those that are read one after the other. -/
theorem exists_record_of_run_program (made : Cursor.ofTokens settings.file tokens = .ok start)
    (ran : program.run settings start = (result, stop)) :
    ∃ items last, Completes settings (advance.run settings start).2 items last ∧
      Concludes settings last items result ∧ stop.items = items.map Item.node ∧
      ((∀ final ∈ (beforeEnd tokens).getLast?, ¬ final.AsksForOperand) →
        ∀ nodes, result = .ok nodes → stop.functions = items.flatMap Item.functions) := by
  obtain ⟨first, rest, rfl, rfl, _⟩ := Cursor.exists_of_ofTokens made
  obtain ⟨items, last, completes, ⟨given, concludes, same⟩, recorded, told⟩ :=
    exists_isRecorded settings (.start first rest) ⟨[], 0⟩
  refine ⟨items, last, completes, ?_⟩
  obtain ⟨fault, rfl, inner⟩ | ⟨final, middle, rfl, rfl, inner⟩ := run_program_cases ran
  · rw [inner] at same recorded
    cases given with
    | error other =>
        cases same
        exact ⟨concludes, recorded, fun _ _ => nofun⟩
    | ok nodes => cases same
  · rw [inner] at same recorded told
    cases given with
    | error other => cases same
    | ok nodes =>
        cases same
        refine ⟨concludes, ?_, fun complete _ _ => ?_⟩
        · rw [Cursor.items_note, recorded]
          exact List.append_nil _
        · rw [Cursor.functions_note, told complete final rfl]
          exact List.append_nil _

/-- No summary is recorded while items are gathered. -/
theorem not_parsed_of_run_items (settings : Settings) (first : Token) (rest : List Token)
    (file : String) (itemCount skippedCount : Nat) :
    .parsed file itemCount skippedCount ∉
      ((recurse itemsStep ⟨[], 0⟩).run settings (.start first rest)).2.events := by
  obtain ⟨events, trace, sorts⟩ :=
    ((inLockstep_items ⟨[], 0⟩).moves settings (.start first rest)).exists_trace
  rw [Cursor.events, trace, List.mem_reverse, List.mem_append]
  rintro (member | member)
  · rcases sorts _ member with ⟨token, ⟨⟩⟩ | sort
    cases sort with
    | ofRules sort => cases sort
  · cases List.mem_singleton.mp member

/-- The summary is the last event of a program that succeeds, and there is no other. -/
theorem events_of_run_program (made : Cursor.ofTokens settings.file tokens = .ok start)
    (ran : program.run settings start = (result, stop)) :
    (∀ nodes, result = .ok nodes → ∃ before,
      stop.events = before ++ [.parsed settings.file nodes.length 0] ∧
        ∀ file itemCount skippedCount, .parsed file itemCount skippedCount ∉ before) ∧
    ∀ fault, result = .error fault →
      ∀ file itemCount skippedCount, .parsed file itemCount skippedCount ∉ stop.events := by
  have sorts : ∀ event ∈ stop.trace, event.IsOfParse := by
    intro event member
    have recorded : event ∈ (parse settings tokens).events := by
      rw [parse_of_run_program made ran]
      exact List.mem_reverse.mpr member
    exact isOfParse_of_mem_events recorded
  obtain ⟨first, rest, rfl, rfl, _⟩ := Cursor.exists_of_ofTokens made
  have earlier := not_parsed_of_run_items settings first rest
  obtain ⟨fault, rfl, inner⟩ | ⟨final, middle, rfl, rfl, inner⟩ := run_program_cases ran
  · rw [inner] at earlier
    exact ⟨fun _ => nofun, fun _ _ => earlier⟩
  · rw [inner] at earlier
    refine ⟨fun nodes same => ⟨middle.events, ?_, earlier⟩, fun _ => nofun⟩
    cases same
    have none := (sorts _ (List.mem_cons_self ..)).skippedCount_eq_zero
    rw [none, List.length_reverse]
    exact List.reverse_cons

end Programs

end Parser

theorem Event.eq_of_item? {event : Event} {node : Node} (recorded : event.item? = some node) :
    event = .parsedItem node := by
  cases event with
  | parsedItem other =>
      cases recorded
      rfl
  | _ => cases recorded

theorem Event.text_parsedItem (node : Node) :
    (Event.parsedItem node).text = "Parsed top-level node " ++ node.text :=
  rfl

/-- The wordings of the records of items are those of the items. -/
theorem texts_of_items (events : List Event) :
    (events.filter fun event => event.item?.isSome).map Event.text =
      (events.filterMap Event.item?).map fun node => "Parsed top-level node " ++ node.text := by
  induction events with
  | nil => rfl
  | cons event rest ih =>
      cases recorded : event.item? with
      | none =>
          rw [List.filter_cons_of_neg (by simp [recorded]), List.filterMap_cons_none recorded, ih]
      | some node =>
          rw [List.filter_cons_of_pos (by simp [recorded]), List.filterMap_cons_some recorded,
            List.map_cons, List.map_cons, ih, Event.eq_of_item? recorded, Event.text_parsedItem]

/--
The events of a parse, whether it succeeds or fails, are a faithful record of it. The
tokens up to the one where the parser stops are recorded as read, once each and in
order. The items that are recorded, with their wordings, are those that their own rules
read one after the other, up to the end of the input, to an expression that this end
cuts off, or to an item with a fault. The summary is the last event and counts the nodes
exactly if the parse succeeds. And if it does so and the last token before the end asks
for no operand, the functions that are recorded are those defined in the items, inner
ones first and otherwise from left to right.
-/
theorem events_record_parse {settings : Settings} {tokens : List Token} {start stop : Cursor}
    {result : Except Fault (List Node)} (made : Cursor.ofTokens settings.file tokens = .ok start)
    (ran : Parser.program.run settings start = (result, stop)) :
    parse settings tokens = ⟨result, stop.events⟩ ∧
    (∃ index, stop.StandsAt tokens index ∧
      stop.events.filterMap Event.token? = tokens.take (index + 1)) ∧
    (∃ items last, Parser.Completes settings (Parser.advance.run settings start).2 items last ∧
      Parser.Concludes settings last items result ∧
      stop.events.filterMap Event.item? = items.map Item.node ∧
      (stop.events.filter fun event => event.item?.isSome).map Event.text =
        items.map (fun item => "Parsed top-level node " ++ item.node.text) ∧
      ((∀ final ∈ (beforeEnd tokens).getLast?, ¬ final.AsksForOperand) →
        ∀ nodes, result = .ok nodes →
          stop.events.filterMap Event.function? = items.flatMap Item.functions)) ∧
    (∀ nodes, result = .ok nodes → ∃ before,
      stop.events = before ++ [.parsed settings.file nodes.length 0] ∧
        ∀ file itemCount skippedCount, .parsed file itemCount skippedCount ∉ before) ∧
    ∀ fault, result = .error fault →
      ∀ file itemCount skippedCount, .parsed file itemCount skippedCount ∉ stop.events := by
  obtain ⟨items, last, completes, concludes, recorded, told⟩ :=
    Parser.exists_record_of_run_program made ran
  refine ⟨Parser.parse_of_run_program made ran, Parser.reads_of_run_program made ran,
    ⟨items, last, completes, concludes, recorded, ?_, told⟩, Parser.events_of_run_program made ran⟩
  have nodes : stop.events.filterMap Event.item? = items.map Item.node := recorded
  rw [texts_of_items, nodes, List.map_map]
  rfl

/-- A function in the body of another one is recorded before it. -/
theorem events_record_nested_definition :
    ∃ items last, Parser.Completes ⟨"", 3⟩ ⟨.sample .funcWord, [⟨.identifier, "f", .nowhere⟩,
      .sample .leftParen, .sample .rightParen, .sample .arrow, ⟨.identifier, "Int", .nowhere⟩,
      .sample .leftBrace, .sample .funcWord, ⟨.identifier, "g", .nowhere⟩, .sample .leftParen,
      .sample .rightParen, .sample .arrow, ⟨.identifier, "Int", .nowhere⟩, .sample .leftBrace,
      ⟨.identifier, "x", .nowhere⟩, .sample .rightBrace, .sample .rightBrace,
      .sample .endOfInput], 0, [.read (.sample .funcWord)]⟩ items last ∧
      items.flatMap Item.functions = [("g", 0), ("f", 0)] := by
  obtain ⟨_, _, ⟨items, last, completes, _, _, _, told⟩, _⟩ := events_record_parse
    (show Cursor.ofTokens (Settings.mk "" 3).file [.sample .funcWord,
      ⟨.identifier, "f", .nowhere⟩, .sample .leftParen, .sample .rightParen, .sample .arrow,
      ⟨.identifier, "Int", .nowhere⟩, .sample .leftBrace, .sample .funcWord,
      ⟨.identifier, "g", .nowhere⟩, .sample .leftParen, .sample .rightParen, .sample .arrow,
      ⟨.identifier, "Int", .nowhere⟩, .sample .leftBrace, ⟨.identifier, "x", .nowhere⟩,
      .sample .rightBrace, .sample .rightBrace, .sample .endOfInput] = .ok _ from rfl)
    (show Parser.program.run ⟨"", 3⟩ _ = (.ok [.function "f" [] .int
      (.function "g" [] .int (.variable "x"))], _) from rfl)
  refine ⟨items, last, completes, (told ?_ _ rfl).symm⟩
  intro final member
  cases member
  rintro (kind | ⟨_, denoted, _⟩)
  · cases kind
  · cases denoted

end ExprLang
