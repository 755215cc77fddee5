import ExprLang.Proofs.Text.Bytes
import ExprLang.Proofs.Token.Boundary

/-!
# Scanning

A scan reads on from a place of a source to a later one, over blanks one by one,
over comments and over tokens, each of which is over where the next part begins.
A source is split into the tokens of any scan up to where no lexeme starts. Since
tokens look ahead by hardly more than a character, a scan is still one when the
text that it has not reached yet is changed.
-/

namespace ExprLang

open Text

/-! ## Scans -/

/-- The token with a kind and a text that stands at a byte of a file. -/
def Token.spelledAt (file : String) (place : Nat) (kind : TokenKind) (text : List Char) : Token :=
  ⟨kind, String.ofList text, .ofBytes file place (byteLength text)⟩

/-- The tokens that are read from a text at one place up to the rest at another place. -/
inductive Scans (file : String) : Nat → List Char → List Token → Nat → List Char → Prop where
  | done {place : Nat} {rest : List Char} : Scans file place rest [] place rest
  | blank {place stop : Nat} {c : Char} {text rest : List Char} {tokens : List Token}
      (blank : isBlank c = true)
      (others : Scans file (place + c.utf8Size) text tokens stop rest) :
      Scans file place (c :: text) tokens stop rest
  | comment {place stop : Nat} {line text rest : List Char} {tokens : List Token}
      (unbroken : '\n' ∉ line) (ended : ∀ c ∈ text.head?, c = '\n')
      (others : Scans file (place + byteLength ('/' :: '/' :: line)) text tokens stop rest) :
      Scans file place ('/' :: '/' :: line ++ text) tokens stop rest
  | token {place stop : Nat} {kind : TokenKind} {word text rest : List Char} {tokens : List Token}
      (spelled : Spelling kind word) (ends : kind.EndsBefore word text)
      (others : Scans file (place + byteLength word) text tokens stop rest) :
      Scans file place (word ++ text) (.spelledAt file place kind word :: tokens) stop rest

namespace Scans

variable {file : String} {place stop : Nat} {text rest : List Char} {tokens : List Token}

theorem exists_front (scans : Scans file place text tokens stop rest) :
    ∃ front, text = front ++ rest ∧ stop = place + byteLength front := by
  induction scans with
  | done => exact ⟨[], rfl, rfl⟩
  | @blank _ _ c _ _ _ _ _ ih =>
      obtain ⟨front, rfl, rfl⟩ := ih
      exact ⟨c :: front, rfl, by rw [byteLength_cons, Nat.add_assoc]⟩
  | @comment _ _ line _ _ _ _ _ _ ih =>
      obtain ⟨front, rfl, rfl⟩ := ih
      exact ⟨'/' :: '/' :: line ++ front, by rw [List.append_assoc],
        by rw [byteLength_append, Nat.add_assoc]⟩
  | @token _ _ _ word _ _ _ _ _ _ ih =>
      obtain ⟨front, rfl, rfl⟩ := ih
      exact ⟨word ++ front, by rw [List.append_assoc], by rw [byteLength_append, Nat.add_assoc]⟩

theorem trans {later : Nat} {rest' : List Char} {tokens' : List Token}
    (scans : Scans file place text tokens stop rest)
    (scans' : Scans file stop rest tokens' later rest') :
    Scans file place text (tokens ++ tokens') later rest' := by
  induction scans with
  | done => exact scans'
  | blank blank _ ih => exact .blank blank (ih scans')
  | comment unbroken ended _ ih => exact .comment unbroken ended (ih scans')
  | token spelled ends _ ih => exact .token spelled ends (ih scans')

/-- Blanks in front of a text are passed over. -/
theorem blanks {gap : List Char} (all : ∀ c ∈ gap, isBlank c = true)
    (others : Scans file (place + byteLength gap) text tokens stop rest) :
    Scans file place (gap ++ text) tokens stop rest := by
  induction gap generalizing place with
  | nil => exact others
  | cons c gap ih =>
      obtain ⟨blank, all⟩ := List.forall_mem_cons.mp all
      refine .blank blank (ih all ?_)
      rwa [Nat.add_assoc, ← byteLength_cons]

/-- A text can be scanned up to where no lexeme starts. -/
theorem exists_scans (file : String) (place : Nat) (text : List Char) :
    ∃ tokens stop rest, Scans file place text tokens stop rest ∧ Lexeme.first? rest = none := by
  induction count : text.length using Nat.strongRecOn generalizing text place with
  | ind _ ih =>
      cases found : Lexeme.first? text with
      | none => exact ⟨[], place, text, .done, found⟩
      | some pair =>
          obtain ⟨lexeme, later⟩ := pair
          have shorter : later.length < text.length := by
            cases text with
            | nil => cases found
            | cons c text => exact Lexeme.length_rest_lt_of_first? found
          obtain ⟨rfl, fits⟩ := Lexeme.fits_of_first? found
          rw [count] at shorter
          cases fits with
          | @gap gap _ separates =>
              rw [String.toList_ofList]
              obtain ⟨tokens, stop, rest, others, stuck⟩ :=
                ih later.length shorter (place + byteLength gap) later rfl
              refine ⟨tokens, stop, rest, ?_, stuck⟩
              cases separates with
              | blanks _ all => exact .blanks all others
              | comment unbroken ended => exact .comment unbroken ended others
          | @token kind word _ spelled =>
              rw [String.toList_ofList] at found ⊢
              obtain ⟨tokens, stop, rest, others, stuck⟩ :=
                ih later.length shorter (place + byteLength word) later rfl
              exact ⟨_, stop, rest, .token spelled (spelled.endsBefore_of_first? found) others,
                stuck⟩

/-! ## Changes ahead of a scan -/

/-- A scan that gets nowhere reads nothing. -/
theorem eq_nil_of_place (scans : Scans file place text tokens stop rest) (same : stop = place) :
    tokens = [] ∧ text = rest := by
  cases scans with
  | done => exact ⟨rfl, rfl⟩
  | @blank _ _ c _ _ _ _ others =>
      obtain ⟨_, _, shift⟩ := others.exists_front
      have positive := c.utf8Size_pos
      omega
  | @comment _ _ line _ _ _ _ _ others =>
      obtain ⟨_, _, shift⟩ := others.exists_front
      have positive := byteLength_pos (List.cons_ne_nil '/' ('/' :: line))
      omega
  | token spelled _ others =>
      obtain ⟨_, _, shift⟩ := others.exists_front
      have positive := byteLength_pos spelled.ne_nil
      omega

theorem eq_nil_of_rest (scans : Scans file place rest tokens stop rest) :
    tokens = [] ∧ stop = place := by
  obtain ⟨front, same, shift⟩ := scans.exists_front
  rw [List.self_eq_append_left.mp same, byteLength_nil, Nat.add_zero] at shift
  exact ⟨(scans.eq_nil_of_place shift).1, shift⟩

/-- No part of a source that is read starts with a point. -/
theorem startsFraction_eq_false (scans : Scans file place text tokens stop rest)
    (moves : text ≠ rest) : Pattern.startsFraction text = false := by
  refine Bool.eq_false_iff.mpr fun starts => ?_
  obtain ⟨d, more, point, -⟩ := Pattern.startsFraction_eq_true_iff.mp starts
  have first : '.' ∈ text.head? := by
    rw [point]
    rfl
  cases scans with
  | done => exact moves rfl
  | blank blank _ =>
      cases first
      exact absurd blank (by decide)
  | comment _ _ _ => cases first
  | @token _ _ kind word text _ _ spelled _ _ =>
      rw [List.head?_append_of_ne_nil word spelled.ne_nil] at first
      exact absurd (spelled.startsToken_of_head? '.' first) (by decide)

/--
What is read up to a place stays the same when the rest from there on is changed to
one that starts with the same character or with a line feed, unless a fraction now
goes on with a whole number that ends at the place.
-/
theorem exists_replace {rest' : List Char} (scans : Scans file place text tokens stop rest)
    (head : ∀ c ∈ rest'.head?, c ∈ rest.head? ∨ c = '\n')
    (fraction : ∀ token ∈ tokens.getLast?, token.kind = .integerLiteral →
      token.span.stop = .ofByte file stop → Pattern.startsFraction rest' = true →
      Pattern.startsFraction rest = true) :
    ∃ front, text = front ++ rest ∧ Scans file place (front ++ rest') tokens stop rest' := by
  induction scans with
  | done => exact ⟨[], rfl, .done⟩
  | @blank _ _ c _ _ _ blank _ ih =>
      obtain ⟨front, rfl, others⟩ := ih head fraction
      exact ⟨c :: front, rfl, .blank blank others⟩
  | @comment _ _ line _ _ _ unbroken ended _ ih =>
      obtain ⟨front, rfl, others⟩ := ih head fraction
      have ended' : ∀ c ∈ (front ++ rest').head?, c = '\n' := by
        intro c member
        cases front with
        | nil => exact (head c member).elim (ended c) id
        | cons _ _ => exact ended c member
      refine ⟨'/' :: '/' :: line ++ front, (List.append_assoc ..).symm, ?_⟩
      rw [List.append_assoc]
      exact .comment unbroken ended' others
  | @token place stop kind word _ rest tokens spelled ends scanned ih =>
      have later (last : Token) (member : last ∈ tokens.getLast?) :
          last ∈ (Token.spelledAt file place kind word :: tokens).getLast? := by
        rw [List.getLast?_cons, member]
        rfl
      obtain ⟨front, rfl, others⟩ := ih head fun last member => fraction last (later last member)
      have ends' : kind.EndsBefore word (front ++ rest') := by
        cases front with
        | nil =>
            obtain ⟨rfl, same⟩ := scanned.eq_nil_of_rest
            refine ends.of_head? (fun c member => (head c member).imp id ?_) fun whole => ?_
            · rintro rfl
              rfl
            · exact fraction (.spelledAt file place kind word) rfl whole (by rw [same]; rfl)
        | cons d front =>
            refine ends.of_head? (fun c member => .inl member) fun _ starts => ?_
            have moves : d :: front ++ rest' ≠ rest' :=
              fun same => List.cons_ne_nil d front (List.append_left_eq_self.mp same)
            rw [others.startsFraction_eq_false moves] at starts
            cases starts
      refine ⟨word ++ front, (List.append_assoc ..).symm, ?_⟩
      rw [List.append_assoc]
      exact .token spelled ends' others

theorem replace {front rest' : List Char} (scans : Scans file place (front ++ rest) tokens stop rest)
    (head : ∀ c ∈ rest'.head?, c ∈ rest.head? ∨ c = '\n')
    (fraction : ∀ token ∈ tokens.getLast?, token.kind = .integerLiteral →
      token.span.stop = .ofByte file stop → Pattern.startsFraction rest' = true →
      Pattern.startsFraction rest = true) :
    Scans file place (front ++ rest') tokens stop rest' := by
  obtain ⟨front', same, replaced⟩ := scans.exists_replace head fraction
  rwa [List.append_cancel_right same]

/-- A scan with a last token gets to that token, and reads no token after it. -/
theorem exists_last {token : Token}
    (scans : Scans file place text (tokens ++ [token]) stop rest) :
    ∃ before kind word more, Scans file place text tokens before (word ++ more) ∧
      token = .spelledAt file before kind word ∧ Spelling kind word ∧
      Scans file (before + byteLength word) more [] stop rest := by
  generalize whole : tokens ++ [token] = all at scans
  induction scans generalizing tokens with
  | done => exact absurd whole (List.append_ne_nil_of_right_ne_nil _ (List.cons_ne_nil _ _))
  | blank blank _ ih =>
      obtain ⟨before, kind, word, more, scans, written⟩ := ih whole
      exact ⟨before, kind, word, more, .blank blank scans, written⟩
  | comment unbroken ended _ ih =>
      obtain ⟨before, kind, word, more, scans, written⟩ := ih whole
      exact ⟨before, kind, word, more, .comment unbroken ended scans, written⟩
  | @token place _ kind word text _ _ spelled ends others ih =>
      cases tokens with
      | nil =>
          cases whole
          exact ⟨place, kind, word, text, .done, rfl, spelled, others⟩
      | cons first tokens =>
          obtain ⟨rfl, tail⟩ := List.cons.inj whole
          obtain ⟨before, kind, word, more, scans, written⟩ := ih tail
          exact ⟨before, kind, word, more, .token spelled ends scans, written⟩

end Scans

/-! ## Readers -/

theorem Cut.ofText_of_first? {text rest : List Char} {lexeme : Lexeme}
    (found : Lexeme.first? text = some (lexeme, rest)) :
    ofText text = ⟨lexeme :: (ofText rest).lexemes, (ofText rest).leftover⟩ := by
  cases text with
  | nil => cases found
  | cons c text => exact ofText_cons_of_first? found

namespace Reader

variable {text rest : List Char}

/-- The reader past all lexemes of a text, and the text that is left over. -/
def scan (reader : Reader) (text : List Char) : Reader × List Char :=
  ((Cut.ofText text).lexemes.foldl accept reader, (Cut.ofText text).leftover)

theorem scan_of_stuck (stuck : Lexeme.first? text = none) (reader : Reader) :
    reader.scan text = (reader, text) := by
  rw [scan, Cut.ofText_of_first?_eq_none stuck]
  rfl

theorem scan_of_first? {lexeme : Lexeme} (found : Lexeme.first? text = some (lexeme, rest))
    (reader : Reader) : reader.scan text = (reader.accept lexeme).scan rest := by
  rw [scan, Cut.ofText_of_first? found]
  rfl

theorem accept_gap (reader : Reader) (gap : List Char) :
    reader.accept ⟨none, String.ofList gap⟩ = reader.skip (byteLength gap) := by
  rw [← String.toList_ofList (l := gap), byteLength_toList, String.toList_ofList]
  rfl

theorem skip_skip (reader : Reader) (first second : Nat) :
    (reader.skip first).skip second = reader.skip (first + second) := by
  simp only [skip, Nat.add_assoc]

/-- A blank in front of a text is passed over, whether or not more blanks follow it. -/
theorem scan_blank {c : Char} (blank : isBlank c = true) (reader : Reader) (text : List Char) :
    reader.scan (c :: text) = (reader.skip c.utf8Size).scan text := by
  rw [scan_of_first? (IsCutInto.first?_blank blank), accept_gap]
  cases text with
  | nil => rfl
  | cons d text =>
      cases next : isBlank d with
      | false =>
          have dark : ¬ isBlank d = true := by
            rw [next]
            decide
          rw [List.takeWhile_cons_of_neg dark, List.dropWhile_cons_of_neg dark, byteLength_cons,
            byteLength_nil, Nat.add_zero]
      | true =>
          rw [List.takeWhile_cons_of_pos next, List.dropWhile_cons_of_pos next,
            scan_of_first? (IsCutInto.first?_blank next), accept_gap, skip_skip, byteLength_cons]

end Reader

namespace Scans

variable {file : String} {place stop : Nat} {text rest : List Char} {tokens : List Token}

/-- A reader that goes over a text collects the tokens of any scan that ends where none starts. -/
theorem scan_eq (scans : Scans file place text tokens stop rest)
    (stuck : Lexeme.first? rest = none) (source : String) (scanned : List Token) :
    (Reader.mk source file place scanned).scan text =
      (⟨source, file, stop, tokens.reverse ++ scanned⟩, rest) := by
  induction scans generalizing scanned with
  | done => exact Reader.scan_of_stuck stuck _
  | blank blank _ ih =>
      rw [Reader.scan_blank blank]
      exact ih stuck scanned
  | comment unbroken ended _ ih =>
      rw [Reader.scan_of_first? (Lexeme.first?_comment unbroken ended), Reader.accept_gap]
      exact ih stuck scanned
  | @token place _ kind word _ _ _ spelled ends _ ih =>
      have accepted : (Reader.mk source file place scanned).accept ⟨some kind, String.ofList word⟩ =
          ⟨source, file, place + byteLength word, .spelledAt file place kind word :: scanned⟩ := by
        rw [Token.spelledAt, ← String.toList_ofList (l := word), byteLength_toList,
          String.toList_ofList]
        rfl
      rw [Reader.scan_of_first? (spelled.first?_append ends), accepted, ih stuck,
        List.reverse_cons, List.append_assoc]
      rfl

end Scans

/-! ## Sources -/

section Sources

variable {source : String} {file? : Option String} {text : List Char} {stop : Nat}
  {tokens : List Token}

theorem Scans.stop_eq_byteLength {file : String} (scans : Scans file 0 text tokens stop []) :
    stop = byteLength text := by
  obtain ⟨front, rfl, place⟩ := scans.exists_front
  rw [place, Nat.zero_add, List.append_nil]

/-- A scan that stops at a character ends inside of the text. -/
theorem Scans.stop_lt_byteLength {file : String} {c : Char} {rest : List Char}
    (scans : Scans file 0 text tokens stop (c :: rest)) : stop < byteLength text := by
  obtain ⟨front, rfl, place⟩ := scans.exists_front
  rw [place, Nat.zero_add, byteLength_append]
  exact Nat.lt_add_of_pos_right (byteLength_pos (List.cons_ne_nil c rest))

/-- A source that is scanned to its end is split into the tokens of the scan. -/
theorem Scans.outcome_tokenize (scans : Scans (file?.getD Reader.defaultFile) 0 text tokens stop [])
    (written : source.toList = text) :
    (tokenize source file?).outcome =
      .ok (tokens ++ [.endOfInput (.ofBytes (file?.getD Reader.defaultFile) stop 0)]) := by
  have ran := scans.scan_eq rfl source []
  rw [List.append_nil] at ran
  obtain ⟨reader, leftover⟩ := Prod.mk.inj ran
  unfold tokenize
  dsimp only
  rw [written, leftover]
  dsimp only
  rw [Reader.ofSource, reader, Reader.close, Reader.tokens_push, Reader.tokens,
    List.reverse_reverse]
  rfl

/-- A source that is scanned to a character that starts no lexeme is not split past it. -/
theorem Scans.tokenize_eq_of_stuck {c : Char} {rest : List Char}
    (scans : Scans (file?.getD Reader.defaultFile) 0 text tokens stop (c :: rest))
    (written : source.toList = text) (stuck : Lexeme.first? (c :: rest) = none) :
    tokenize source file? =
      ⟨.error ⟨.unrecognisedToken (String.singleton c),
        .ofByte (file?.getD Reader.defaultFile) stop⟩, tokens.map .scanned⟩ := by
  have ran := scans.scan_eq stuck source []
  rw [List.append_nil] at ran
  obtain ⟨reader, leftover⟩ := Prod.mk.inj ran
  unfold tokenize
  dsimp only
  rw [written, leftover]
  dsimp only
  rw [Reader.ofSource, reader, Reader.tokens, List.reverse_reverse]
  rfl

/-- A source that is split is scanned to its end. -/
theorem exists_scans_of_outcome_ok {split : List Token}
    (done : (tokenize source file?).outcome = .ok split) :
    ∃ tokens stop, Scans (file?.getD Reader.defaultFile) 0 source.toList tokens stop [] ∧
      split = tokens ++ [.endOfInput (.ofBytes (file?.getD Reader.defaultFile) stop 0)] := by
  obtain ⟨tokens, stop, rest, scans, stuck⟩ :=
    Scans.exists_scans (file?.getD Reader.defaultFile) 0 source.toList
  cases rest with
  | nil =>
      rw [scans.outcome_tokenize rfl] at done
      exact ⟨tokens, stop, scans, (Except.ok.inj done).symm⟩
  | cons c rest =>
      rw [scans.tokenize_eq_of_stuck rfl stuck] at done
      cases done

/-- A source that is not split is scanned to a character that starts no lexeme. -/
theorem exists_scans_of_outcome_error {fault : Fault}
    (failed : (tokenize source file?).outcome = .error fault) :
    ∃ tokens stop c rest,
      Scans (file?.getD Reader.defaultFile) 0 source.toList tokens stop (c :: rest) ∧
      Lexeme.first? (c :: rest) = none ∧
      fault = ⟨.unrecognisedToken (String.singleton c),
        .ofByte (file?.getD Reader.defaultFile) stop⟩ := by
  obtain ⟨tokens, stop, rest, scans, stuck⟩ :=
    Scans.exists_scans (file?.getD Reader.defaultFile) 0 source.toList
  cases rest with
  | nil =>
      rw [scans.outcome_tokenize rfl] at failed
      cases failed
  | cons c rest =>
      rw [scans.tokenize_eq_of_stuck rfl stuck] at failed
      exact ⟨tokens, stop, c, rest, scans, stuck, (Except.error.inj failed).symm⟩

end Sources

end ExprLang
