import ExprLang.Proofs.Grammar.EndOfInput

/-!
# Like streams

Two streams of like tokens, one by one, are parsed alike. Both of them have the
same items, or both parses stop at the same index for the same reason. The two
faults differ in the token at that index only, whose text they carry and at
whose start they stand. So no span, no text of a word or mark that never
varies, and no name of a file has an influence on the items.
-/

namespace ExprLang

/-! ## Causes of two faults -/

/-- The cause with the given text in place of the text of a token, if it carries one. -/
def Cause.withTokenText (text : String) : Cause → Cause
  | .unrecognisedToken _ => .unrecognisedToken text
  | .unexpectedToken _ => .unexpectedToken text
  | .unexpectedTokenDetailed _ message => .unexpectedTokenDetailed text message
  | .unreadableNumber _ => .unreadableNumber text
  | .unexpectedEnd => .unexpectedEnd
  | .missingEnd => .missingEnd
  | .nestedTooDeeply limit => .nestedTooDeeply limit
  | .notImplemented construct => .notImplemented construct

/--
Two faults that have the same cause but for the tokens to blame. Each of them
carries the text of its own token and stands at the start of it.
-/
structure Fault.DifferInToken (token token' : Token) (fault fault' : Fault) : Prop where
  text : fault.cause.withTokenText token.value = fault.cause
  cause : fault'.cause = fault.cause.withTokenText token'.value
  position : fault.position = token.span.start
  position' : fault'.position = token'.span.start

/-- Tokens that are blamed alike, and not for running past them, make faults that differ in them. -/
theorem Token.BlamedAlike.differInToken {limit : Nat} {token token' : Token} {fault fault' : Fault}
    (blamed : token.BlamedAlike limit token' fault fault') (blames : fault.Blames token) :
    fault.DifferInToken token token' fault' := by
  cases blamed with
  | pastEnd => exact absurd rfl blames.cause_ne_unexpectedEnd
  | unexpected => exact ⟨rfl, rfl, rfl, rfl⟩
  | unexpectedWith message => exact ⟨rfl, rfl, rfl, rfl⟩
  | unreadable _ _ => exact ⟨rfl, rfl, rfl, rfl⟩
  | conditional _ => exact ⟨rfl, rfl, rfl, rfl⟩
  | comparison _ => exact ⟨rfl, rfl, rfl, rfl⟩
  | tooDeep => exact ⟨rfl, rfl, rfl, rfl⟩

/-! ## Streams -/

/-- Streams of like tokens close alike. -/
theorem IsStream.of_alike {tokens tokens' : List Token} (stream : IsStream tokens)
    (alike : List.Forall₂ Token.IsLike tokens tokens') : IsStream tokens' := by
  obtain ⟨closing, final, ends⟩ := stream
  have reversed := List.rel_reverse alike
  rw [← List.head?_reverse] at final
  obtain ⟨before, whole⟩ := List.head?_eq_some_iff.mp final
  rw [whole] at reversed
  obtain ⟨closing', before', like, _, whole'⟩ := List.forall₂_cons_left_iff.mp reversed
  refine ⟨closing', ?_, like.kind.trans ends⟩
  rw [← List.head?_reverse, whole']
  rfl

/-- How two streams are parsed alike: to the same items, or up to faults at the same index. -/
inductive ParsedAlike (settings settings' : Settings) (tokens tokens' : List Token) : Prop where
  | accepted {nodes : List Node} (outcome : (parse settings tokens).outcome = .ok nodes)
      (outcome' : (parse settings' tokens').outcome = .ok nodes) :
      ParsedAlike settings settings' tokens tokens'
  | rejected {start start' stop stop' : Cursor} {fault fault' : Fault} {index : Nat}
      (outcome : (parse settings tokens).outcome = .error fault)
      (outcome' : (parse settings' tokens').outcome = .error fault')
      (made : Cursor.ofTokens settings.file tokens = .ok start)
      (made' : Cursor.ofTokens settings'.file tokens' = .ok start')
      (ran : Parser.program.run settings start = (.error fault, stop))
      (ran' : Parser.program.run settings' start' = (.error fault', stop'))
      (stands : stop.StandsAt tokens index) (stands' : stop'.StandsAt tokens' index)
      (differ : fault.DifferInToken stop.current stop'.current fault') :
      ParsedAlike settings settings' tokens tokens'

/-- From the starts of two streams, runs that end at like cursors end at the same index. -/
theorem Cursor.IsLike.exists_standsAt {first first' : Token} {rest rest' read read' : List Token}
    {stop stop' : Cursor} (like : stop.IsLike stop') (same : rest'.length = rest.length)
    (reaches : (Cursor.start first rest).Reaches read stop)
    (reaches' : (Cursor.start first' rest').Reaches read' stop') :
    ∃ index, stop.StandsAt (first :: rest) index ∧ stop'.StandsAt (first' :: rest') index := by
  have there := (Cursor.StandsAt.reaches
    (show (Cursor.start first rest).StandsAt (first :: rest) 0 from rfl) reaches).1
  have there' := (Cursor.StandsAt.reaches
    (show (Cursor.start first' rest').StandsAt (first' :: rest') 0 from rfl) reaches').1
  have count : rest.length = read.length + stop.unread.length := reaches.unread_length
  have count' : rest'.length = read'.length + stop'.unread.length := reaches'.unread_length
  have left := like.unread.length_eq
  refine ⟨_, there, ?_⟩
  rwa [show read.length = read'.length by omega]

/--
Streams of like tokens are parsed alike below one limit of nesting, whatever the
names of the files are.
-/
theorem parsedAlike_of_alike {settings settings' : Settings} {tokens tokens' : List Token}
    (limit : settings'.maxDepth = settings.maxDepth) (stream : IsStream tokens)
    (alike : List.Forall₂ Token.IsLike tokens tokens') :
    ParsedAlike settings settings' tokens tokens' := by
  obtain ⟨_, made⟩ := stream.exists_ofTokens settings.file
  obtain ⟨_, made'⟩ := (stream.of_alike alike).exists_ofTokens settings'.file
  obtain ⟨first, rest, rfl, rfl, ends⟩ := Cursor.exists_of_ofTokens made
  obtain ⟨first', rest', rfl, rfl, _⟩ := Cursor.exists_of_ofTokens made'
  obtain ⟨head, tail⟩ := List.forall₂_cons.mp alike
  have outcome := outcome_parse_of_ofTokens made
  have outcome' := outcome_parse_of_ofTokens made'
  have whole := Parser.run_program settings first rest
  have whole' := Parser.run_program settings' first' rest'
  have items := Parser.inLockstep_items ⟨[], 0⟩
  obtain ⟨read, reaches⟩ := (items.moves settings (.start first rest)).reaches
  obtain ⟨read', reaches'⟩ := (items.moves settings' (.start first' rest')).reaches
  have starts : (Cursor.start first rest).IsLike (.start first' rest') := ⟨head, tail, rfl⟩
  cases items settings settings' _ _ limit starts with
  | @done progress _ _ _ ran ran' _ _ same =>
      cases same
      rw [ran] at whole
      rw [ran'] at whole'
      exact .accepted (outcome.trans (congrArg Prod.fst whole))
        (outcome'.trans (congrArg Prod.fst whole'))
  | @failed fault fault' stop stop' ran ran' _ like blamed =>
      rw [ran] at whole reaches
      rw [ran'] at whole' reaches'
      obtain ⟨index, there, there'⟩ :=
        like.exists_standsAt tail.length_eq.symm reaches reaches'
      have blames : fault.Blames stop.current := by
        cases Parser.programEnds settings ends with
        | done done _ _ _ =>
            rw [whole] at done
            cases done
        | failed failed _ blames _ =>
            rw [whole] at failed
            cases failed
            exact blames
      exact .rejected (outcome.trans (congrArg Prod.fst whole))
        (outcome'.trans (congrArg Prod.fst whole')) made made' whole whole' there there'
        (blamed.differInToken blames)

/-- A comma is blamed with its own text and place, which are not those of the like comma. -/
theorem parsedAlike_commas :
    ParsedAlike ⟨"a", 3⟩ ⟨"b", 3⟩
      [⟨.identifier, "x", .ofBytes "a" 0 1⟩, ⟨.comma, ",", .ofBytes "a" 1 1⟩,
        .endOfInput (.ofBytes "a" 2 0)]
      [⟨.identifier, "x", .nowhere⟩, ⟨.comma, "", .nowhere⟩, ⟨.endOfInput, "", .nowhere⟩] := by
  refine parsedAlike_of_alike rfl ⟨_, rfl, rfl⟩ ?_
  exact .cons ⟨rfl, fun _ => rfl⟩ (.cons ⟨rfl, nofun⟩ (.cons ⟨rfl, nofun⟩ .nil))

end ExprLang
