import ExprLang.Proofs.Grammar.EndOfInput
import ExprLang.Proofs.Parser.Cutoff
import Mathlib.Data.Nat.Find

/-!
# Limits of nesting

A limit of nesting is too low for a stream, or it makes no difference. From some
limit on, which is no higher than the stream is long, parsing has one and the
same outcome. Below that limit, parsing is cut off, and it is never cut off at an
earlier token when the limit is raised.
-/

namespace ExprLang

/-- Below the limit, parsing the stream does not fail for being nested too deeply. -/
def IsHighEnough (file : String) (tokens : List Token) (limit : Nat) : Prop :=
  ∀ fault, (parse ⟨file, limit⟩ tokens).outcome = .error fault → ¬ fault.IsTooDeep

/-- Parsing the stream is cut off at the index, where the nesting exceeds the limit. -/
inductive CutOffAt (file : String) (tokens : List Token) (limit index : Nat) : Prop where
  | tooDeep {start stop : Cursor}
      (made : Cursor.ofTokens file tokens = .ok start)
      (ran : Parser.program.run ⟨file, limit⟩ start =
        (.error ⟨.nestedTooDeeply limit, stop.current.span.start⟩, stop))
      (outcome : (parse ⟨file, limit⟩ tokens).outcome =
        .error ⟨.nestedTooDeeply limit, stop.current.span.start⟩)
      (stands : stop.StandsAt tokens index)

/--
The least limit of nesting that is high enough for a stream. All higher limits
have the same outcome, and parsing is cut off below any lower one.
-/
structure IsLeastLimit (file : String) (tokens : List Token) (least : Nat) : Prop where
  short : least ≤ tokens.length
  enough : IsHighEnough file tokens least
  settled : ∀ limit, least ≤ limit →
    (parse ⟨file, limit⟩ tokens).outcome = (parse ⟨file, least⟩ tokens).outcome
  cut : ∀ limit < least, ∃ index, CutOffAt file tokens limit index

section Streams

variable {file : String} {tokens : List Token} {limit limit' : Nat}

theorem CutOffAt.not_isHighEnough {index : Nat} (there : CutOffAt file tokens limit index) :
    ¬ IsHighEnough file tokens limit := by
  obtain ⟨_, _, outcome, _⟩ := there
  exact fun enough => enough _ outcome ⟨limit, rfl⟩

/-! ## Two limits -/

/-- How parsing a stream compares below two limits, the first of which is the lower one. -/
inductive ParsedBelow (file : String) (tokens : List Token) (limit limit' : Nat) : Prop where
  | same (enough : IsHighEnough file tokens limit)
      (outcome : (parse ⟨file, limit'⟩ tokens).outcome = (parse ⟨file, limit⟩ tokens).outcome)
  | cut (low : limit < tokens.length) (there : ∃ index, CutOffAt file tokens limit index)
      (further : ∀ index index', CutOffAt file tokens limit index →
        CutOffAt file tokens limit' index' → index ≤ index')

/-- Where a cursor stands is told by the number of tokens that are left. -/
theorem Cursor.StandsAt.index_eq {cursor : Cursor} {index : Nat}
    (stands : cursor.StandsAt tokens index) : index + cursor.unread.length + 1 = tokens.length := by
  have lengths := congrArg List.length stands
  rw [Cursor.remaining, List.length_drop, List.length_cons] at lengths
  omega

theorem parsedBelow (file : String) (stream : IsStream tokens) (lower : limit ≤ limit') :
    ParsedBelow file tokens limit limit' := by
  obtain ⟨first, rest, rfl, _, made⟩ := stream.exists_first file
  have outcome : (parse ⟨file, limit⟩ (first :: rest)).outcome = _ := outcome_parse made
  have outcome' : (parse ⟨file, limit'⟩ (first :: rest)).outcome = _ := outcome_parse made
  have whole := Parser.run_program ⟨file, limit⟩ first rest
  have whole' := Parser.run_program ⟨file, limit'⟩ first rest
  cases Parser.onlyCutOff_items ⟨[], 0⟩ ⟨file, limit⟩ ⟨file, limit'⟩ (.start first rest) rfl
      lower with
  | @same result stop ran ran' shallow _ _ =>
      rw [ran] at outcome
      rw [ran', ← outcome] at outcome'
      refine .same (fun fault failed => ?_) outcome'
      rw [outcome] at failed
      cases result with
      | ok _ => cases failed
      | error _ =>
          cases failed
          exact shallow fault rfl
  | @cut fault result' stop stop' ran exceeded ran' _ further deep =>
      obtain ⟨read, reaches⟩ :=
        ((Parser.inLockstep_items ⟨[], 0⟩).moves ⟨file, limit⟩ (.start first rest)).reaches
      rw [ran] at outcome whole reaches
      subst exceeded
      have there := (Cursor.StandsAt.reaches
        (show (Cursor.start first rest).StandsAt (first :: rest) 0 from rfl) reaches).1
      have low : limit < (first :: rest).length := by
        have bound : limit + stop.unread.length ≤ 0 + rest.length := deep
        rw [List.length_cons]
        omega
      refine .cut low ⟨_, .tooDeep made whole outcome there⟩ ?_
      rintro index index' ⟨made₁, again, _, stands⟩ ⟨made₁', again', _, stands'⟩
      cases made.symm.trans made₁
      cases made.symm.trans made₁'
      obtain rfl : stop = _ := congrArg Prod.snd (whole.symm.trans again)
      have place := stands.index_eq
      have place' := stands'.index_eq
      rw [ran'] at whole'
      rw [whole'] at again'
      cases result' with
      | ok _ => cases again'
      | error _ =>
          obtain rfl : stop' = _ := congrArg Prod.snd again'
          omega

/-! ## The least limit -/

/-- A limit that is as high as the stream is long is high enough. -/
theorem isHighEnough_length (file : String) (stream : IsStream tokens) :
    IsHighEnough file tokens tokens.length := by
  cases parsedBelow file stream (Nat.le_refl tokens.length) with
  | same enough _ => exact enough
  | cut low _ _ => exact absurd low (Nat.lt_irrefl _)

/-- A higher limit makes no difference to one that is high enough. -/
theorem IsHighEnough.outcome_eq (enough : IsHighEnough file tokens limit)
    (stream : IsStream tokens) (lower : limit ≤ limit') :
    (parse ⟨file, limit'⟩ tokens).outcome = (parse ⟨file, limit⟩ tokens).outcome := by
  cases parsedBelow file stream lower with
  | same _ outcome => exact outcome
  | cut _ there _ =>
      obtain ⟨_, cut⟩ := there
      exact absurd enough cut.not_isHighEnough

theorem exists_isLeastLimit (file : String) (stream : IsStream tokens) :
    ∃ least, IsLeastLimit file tokens least := by
  classical
  have high := isHighEnough_length file stream
  have some : ∃ limit, IsHighEnough file tokens limit := ⟨_, high⟩
  have enough : IsHighEnough file tokens (Nat.find some) := Nat.find_spec some
  refine ⟨Nat.find some, Nat.find_min' some high, enough,
    fun limit higher => enough.outcome_eq stream higher, fun limit lower => ?_⟩
  cases parsedBelow file stream (Nat.le_refl limit) with
  | same other _ => exact absurd other (Nat.find_min some lower)
  | cut _ there _ => exact there

/--
Each stream has a least limit that is high enough. A higher limit changes no
outcome but that of being cut off, and it cuts parsing off at no earlier token.
-/
theorem limit_only_cuts_off (file : String) (stream : IsStream tokens) :
    (∃ least, IsLeastLimit file tokens least) ∧
    (∀ limit limit', limit ≤ limit' → IsHighEnough file tokens limit →
      (parse ⟨file, limit'⟩ tokens).outcome = (parse ⟨file, limit⟩ tokens).outcome) ∧
    ∀ limit limit' index index', limit ≤ limit' → CutOffAt file tokens limit index →
      CutOffAt file tokens limit' index' → index ≤ index' := by
  refine ⟨exists_isLeastLimit file stream, fun _ _ lower enough => enough.outcome_eq stream lower,
    fun limit limit' index index' lower there there' => ?_⟩
  cases parsedBelow file stream lower with
  | same enough _ => exact absurd enough there.not_isHighEnough
  | cut _ _ further => exact further index index' there there'

end Streams

/-- A name in parentheses takes two levels, so it is parsed below any limit from there on. -/
theorem outcome_parse_parenthesised_name :
    (∃ least, IsLeastLimit "shell" [.sample .leftParen, .sample .identifier, .sample .rightParen,
      .sample .endOfInput] least) ∧
    (parse ⟨"shell", 1⟩ [.sample .leftParen, .sample .identifier, .sample .rightParen,
      .sample .endOfInput]).outcome = .error ⟨.nestedTooDeeply 1, Span.nowhere.start⟩ ∧
    (parse ⟨"shell", 512⟩ [.sample .leftParen, .sample .identifier, .sample .rightParen,
      .sample .endOfInput]).outcome = .ok [.entryPoint (.variable "1")] := by
  have stream : IsStream [.sample .leftParen, .sample .identifier, .sample .rightParen,
      .sample .endOfInput] := ⟨_, rfl, rfl⟩
  obtain ⟨least, higher, _⟩ := limit_only_cuts_off "shell" stream
  refine ⟨least, rfl, (higher 2 512 (by decide) ?_).trans rfl⟩
  rintro fault ⟨⟩

end ExprLang
