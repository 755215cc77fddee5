import ExprLang.Proofs.Token.Coverage
import ExprLang.Proofs.Token.Scanning

/-!
# Texts around a line feed

No token and no comment goes on past a line feed. So two texts with a line feed in
between are split as each of them is on its own, and only the positions of the
second one are further on. When a text is not split to its end, the first such one
is to blame.
-/

namespace ExprLang

open Text

/-! ## Positions further on -/

/-- The position that lies a number of bytes further on in its file. -/
def Position.moved (bytes : Nat) (position : Position) : Position :=
  .ofByte position.file (position.offset.toNat + bytes)

def Token.moved (bytes : Nat) (token : Token) : Token :=
  { token with span := ⟨token.span.start.moved bytes, token.span.stop.moved bytes⟩ }

def Fault.moved (bytes : Nat) (fault : Fault) : Fault :=
  { fault with position := fault.position.moved bytes }

theorem Position.moved_ofByte (bytes byte : Nat) (file : String) :
    (ofByte file byte).moved bytes = ofByte file (byte + bytes) := by
  have same : UInt32.ofNat ((UInt32.ofNat byte).toNat + bytes) = UInt32.ofNat (byte + bytes) := by
    apply UInt32.toNat_inj.mp
    simp
  simp only [moved, ofByte, same]

theorem Span.ofBytes_add (file : String) (first bytes length : Nat) :
    Span.ofBytes file (first + bytes) length =
      ⟨(ofBytes file first length).start.moved bytes,
        (ofBytes file first length).stop.moved bytes⟩ := by
  simp only [ofBytes, Position.moved_ofByte, Nat.add_right_comm]

theorem Token.moved_endOfInput (bytes byte : Nat) (file : String) :
    (Token.endOfInput (.ofBytes file byte 0)).moved bytes =
      .endOfInput (.ofBytes file (byte + bytes) 0) := by
  rw [Span.ofBytes_add]
  rfl

section Short

variable {bytes first length : Nat} {file : String} (short : first + length + bytes < 2 ^ 32)

include short

/-- Before the byte `2 ^ 32`, a token that is moved keeps its distance. -/
theorem Token.bytes_moved {token : Token} (span : token.span = .ofBytes file first length) :
    (token.moved bytes).startByte = token.startByte + bytes ∧
      (token.moved bytes).stopByte = token.stopByte + bytes := by
  have start : token.startByte = first := by
    rw [startByte, span]
    exact Position.toNat_offset_ofByte (by omega)
  have stop : token.stopByte = first + length := by
    rw [stopByte, span]
    exact Position.toNat_offset_ofByte (by omega)
  constructor
  · exact Position.toNat_offset_ofByte (show token.startByte + bytes < 2 ^ 32 by omega)
  · exact Position.toNat_offset_ofByte (show token.stopByte + bytes < 2 ^ 32 by omega)

end Short

/-! ## Scans -/

namespace Scans

variable {file : String} {place stop : Nat} {text rest : List Char} {tokens : List Token}

/-- A text is scanned alike wherever it stands in a file. -/
theorem moved (scans : Scans file place text tokens stop rest) (bytes : Nat) :
    Scans file (place + bytes) text (tokens.map (.moved bytes)) (stop + bytes) rest := by
  induction scans with
  | done => exact .done
  | blank blank _ ih =>
      rw [Nat.add_right_comm] at ih
      exact .blank blank ih
  | comment unbroken ended _ ih =>
      rw [Nat.add_right_comm] at ih
      exact .comment unbroken ended ih
  | @token place _ kind word _ _ _ spelled ends _ ih =>
      have same : (Token.spelledAt file place kind word).moved bytes =
          .spelledAt file (place + bytes) kind word := by
        rw [Token.spelledAt, Token.spelledAt, Span.ofBytes_add]
        rfl
      rw [Nat.add_right_comm] at ih
      rw [List.map_cons, same]
      exact .token spelled ends ih

/-- A line feed begins no fraction and is no part of one. -/
theorem startsFraction_of_append_lineFeed {more : List Char}
    (starts : Pattern.startsFraction (text ++ '\n' :: more) = true) :
    Pattern.startsFraction text = true := by
  obtain ⟨d, later, shape, digit⟩ := Pattern.startsFraction_eq_true_iff.mp starts
  match text with
  | [] => cases shape
  | [c] =>
      cases shape
      cases digit
  | c :: d :: text =>
      cases shape
      exact digit

/-- What is read before a line feed is read without it. -/
theorem append_lineFeed (scans : Scans file place text tokens stop rest) (more : List Char) :
    Scans file place (text ++ '\n' :: more) tokens stop (rest ++ '\n' :: more) := by
  have head : ∀ c ∈ (rest ++ '\n' :: more).head?, c ∈ rest.head? ∨ c = '\n' := by
    intro c member
    cases rest with
    | nil => exact .inr (Option.some.inj member).symm
    | cons d rest => exact .inl member
  obtain ⟨front, rfl, replaced⟩ :=
    scans.exists_replace head fun _ _ _ _ => startsFraction_of_append_lineFeed
  rwa [List.append_assoc]

end Scans

/-! ## Sources -/

/--
The outcome for two texts with a line feed in between, of which the second one
starts at the given byte, from the outcomes for each of them.
-/
def joinOutcomes (bytes : Nat) :
    Except Fault (List Token) → Except Fault (List Token) → Except Fault (List Token)
  | .error fault, _ => .error fault
  | .ok _, .error fault => .error (fault.moved bytes)
  | .ok tokens, .ok others => .ok (tokens.dropLast ++ others.map (.moved bytes))

theorem toList_append_lineFeed (first second : String) :
    (first ++ "\n" ++ second).toList = first.toList ++ '\n' :: second.toList := by
  rw [String.toList_append, String.toList_append, List.append_assoc]
  rfl

/-- The spans of the tokens that are read end where the scan ends or earlier. -/
theorem Scans.exists_span {file : String} {place stop : Nat} {text rest : List Char}
    {tokens : List Token} (scans : Scans file place text tokens stop rest) :
    ∀ token ∈ tokens, ∃ first length, token.span = .ofBytes file first length ∧
      first + length ≤ stop := by
  induction scans with
  | done => nofun
  | blank _ _ ih => exact ih
  | comment _ _ _ ih => exact ih
  | @token place _ _ word _ _ _ _ _ others ih =>
      obtain ⟨_, _, further⟩ := others.exists_front
      refine List.forall_mem_cons.mpr ⟨⟨place, byteLength word, rfl, ?_⟩, ih⟩
      rw [further]
      exact Nat.le_add_right ..

theorem outcome_tokenize_append_lineFeed (first second : String) (file? : Option String) :
    (tokenize (first ++ "\n" ++ second) file?).outcome =
      joinOutcomes (first.utf8ByteSize + 1) (tokenize first file?).outcome
        (tokenize second file?).outcome := by
  obtain ⟨tokens, stop, rest, scans, stuck⟩ :=
    Scans.exists_scans (file?.getD Reader.defaultFile) 0 first.toList
  have whole := scans.append_lineFeed second.toList
  have shape := toList_append_lineFeed first second
  cases rest with
  | cons c rest =>
      rw [scans.tokenize_eq_of_stuck rfl stuck,
        whole.tokenize_eq_of_stuck shape (Lexeme.first?_cons_eq_none stuck _)]
      rfl
  | nil =>
      obtain ⟨others, stop', rest', scans', stuck'⟩ :=
        Scans.exists_scans (file?.getD Reader.defaultFile) 0 second.toList
      have moved := scans'.moved (stop + 1)
      rw [Nat.zero_add] at moved
      have both := whole.trans (.blank rfl moved)
      rw [scans.outcome_tokenize rfl, ← byteLength_toList first, ← scans.stop_eq_byteLength]
      cases rest' with
      | cons c rest' =>
          rw [scans'.tokenize_eq_of_stuck rfl stuck', both.tokenize_eq_of_stuck shape stuck',
            joinOutcomes, Fault.moved, Position.moved_ofByte]
      | nil =>
          rw [scans'.outcome_tokenize rfl, both.outcome_tokenize shape, joinOutcomes,
            List.dropLast_concat, List.map_append, List.map_singleton, Token.moved_endOfInput,
            List.append_assoc]

/--
Two texts of less than `2 ^ 32` bytes with a line feed in between are split as each
of them is on its own. The bytes of the second one are counted from further on.
-/
theorem splits_around_lineFeed {first second : String}
    (short : first.utf8ByteSize + 1 + second.utf8ByteSize < 2 ^ 32) (file? : Option String) :
    (tokenize (first ++ "\n" ++ second) file?).outcome =
      joinOutcomes (first.utf8ByteSize + 1) (tokenize first file?).outcome
        (tokenize second file?).outcome ∧
    (∀ fault, (tokenize second file?).outcome = .error fault →
      (fault.moved (first.utf8ByteSize + 1)).position.offset.toNat =
        fault.position.offset.toNat + (first.utf8ByteSize + 1)) ∧
    ∀ tokens, (tokenize second file?).outcome = .ok tokens → ∀ token ∈ tokens,
      (token.moved (first.utf8ByteSize + 1)).startByte =
          token.startByte + (first.utf8ByteSize + 1) ∧
        (token.moved (first.utf8ByteSize + 1)).stopByte =
          token.stopByte + (first.utf8ByteSize + 1) := by
  refine ⟨outcome_tokenize_append_lineFeed first second file?, fun fault failed => ?_,
    fun tokens split => ?_⟩
  · obtain ⟨_, stop, c, rest, scans, _, rfl⟩ := exists_scans_of_outcome_error failed
    have inside := scans.stop_lt_byteLength
    rw [byteLength_toList] at inside
    rw [Fault.moved, Position.moved_ofByte, Position.toNat_offset_ofByte (by omega),
      Position.toNat_offset_ofByte (by omega)]
  · obtain ⟨words, stop, scans, rfl⟩ := exists_scans_of_outcome_ok split
    have size := scans.stop_eq_byteLength
    rw [byteLength_toList] at size
    refine List.forall_mem_append.mpr ⟨fun word member => ?_, ?_⟩
    · obtain ⟨place, length, span, within⟩ := scans.exists_span word member
      exact Token.bytes_moved (by omega) span
    · exact List.forall_mem_singleton.mpr (Token.bytes_moved (by omega) rfl)

/-- A comment at the end of the first text is over at the line feed. -/
theorem outcome_tokenize_comment_and_sign :
    "a//".utf8ByteSize + 1 + "-1".utf8ByteSize < 2 ^ 32 ∧
      (tokenize ("a//" ++ "\n" ++ "-1") none).outcome =
        .ok [⟨.identifier, "a", .ofBytes "shell" 0 1⟩, ⟨.binaryOperator, "-", .ofBytes "shell" 4 1⟩,
          ⟨.integerLiteral, "1", .ofBytes "shell" 5 1⟩, .endOfInput (.ofBytes "shell" 6 0)] := by
  have short : "a//".utf8ByteSize + 1 + "-1".utf8ByteSize < 2 ^ 32 := by decide
  have cut : Cut.ofText "a//".toList = ⟨[⟨some .identifier, "a"⟩, ⟨none, "//"⟩], []⟩ := by
    decide +kernel
  have cut' : Cut.ofText "-1".toList =
      ⟨[⟨some .binaryOperator, "-"⟩, ⟨some .integerLiteral, "1"⟩], []⟩ := by
    decide +kernel
  refine ⟨short, (splits_around_lineFeed short none).1.trans ?_⟩
  rw [tokenize, tokenize, cut, cut']
  rfl

end ExprLang
