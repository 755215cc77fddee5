import ExprLang.Proofs.Token.Coverage
import ExprLang.Proofs.Token.Scanning

/-!
# Unrecognised characters

A source that is not split to its end blames a character that is no blank and that
no token starts with. The text before it is split on its own, and the fault stays the
same whatever comes after the character. There is one exception: a point right behind
a whole number begins a fraction when a digit comes next.
-/

namespace ExprLang

open Text

/--
Whether a fraction begins at the byte of a source that the rest starts at: the last
token before it is a whole number that ends there, and a point and a digit follow.
-/
def JoinsFraction (tokens : List Token) (byte : Nat) (rest : List Char) : Prop :=
  (∃ token ∈ tokens.getLast?, token.kind = .integerLiteral ∧ token.stopByte = byte) ∧
    Pattern.startsFraction rest = true

/-- What the fault of a source says about the character it blames and the text before it. -/
structure Fault.IsExact (fault : Fault) (source : String) (file? : Option String)
    (front : List Char) (c : Char) (tokens : List Token) : Prop where
  stands : ∃ back, source.toList = front ++ c :: back
  cause : fault.cause = .unrecognisedToken (String.singleton c)
  place : fault.position.offset.toNat = byteLength front
  file : fault.position.file = file?.getD Reader.defaultFile
  dark : isBlank c = false
  foreign : startsToken c = false
  before : (tokenize (String.ofList front) file?).outcome =
    .ok (tokens ++
      [.endOfInput (.ofBytes (file?.getD Reader.defaultFile) (byteLength front) 0)])
  scanned : (tokenize source file?).events = tokens.map .scanned
  again : ∀ back, ¬ JoinsFraction tokens (byteLength front) (c :: back) →
    (tokenize (String.ofList (front ++ c :: back)) file?).outcome = .error fault
  joined : ∀ back, JoinsFraction tokens (byteLength front) (c :: back) →
    byteLength (front ++ c :: back) < 2 ^ 32 →
    (tokenize (String.ofList (front ++ c :: back)) file?).outcome ≠ .error fault

namespace Scans

variable {file : String} {place stop : Nat} {front text rest : List Char} {tokens : List Token}

/-- What is read before a place is read without the rest. -/
theorem cut (scans : Scans file place (front ++ rest) tokens stop rest) :
    Scans file place front tokens stop [] := by
  have replaced : Scans file place (front ++ []) tokens stop [] :=
    scans.replace nofun fun _ _ _ _ => nofun
  rwa [List.append_nil] at replaced

/-- What is read before a character is read whatever comes after the character. -/
theorem replace_behind {c : Char} {back back' : List Char}
    (scans : Scans file place (front ++ c :: back) tokens stop (c :: back)) (short : stop < 2 ^ 32)
    (apart : ¬ JoinsFraction tokens stop (c :: back')) :
    Scans file place (front ++ c :: back') tokens stop (c :: back') := by
  refine scans.replace (fun d member => .inl member) fun token last whole ends starts => ?_
  refine absurd ⟨⟨token, last, whole, ?_⟩, starts⟩ apart
  rw [Token.stopByte, ends]
  exact Position.toNat_offset_ofByte short

/-- A whole number, a point and digits are read as one token, up to a later place. -/
theorem exists_fraction {digits back : List Char}
    (nonempty : digits ≠ []) (all : ∀ digit ∈ digits, digit.isDigit = true)
    (starts : Pattern.startsFraction back = true) :
    ∃ token later rest, Scans file place (digits ++ back) [token] later rest ∧
      place + byteLength digits < later := by
  obtain ⟨d, more, rfl, digit⟩ := Pattern.startsFraction_eq_true_iff.mp starts
  have all' : ∀ digit ∈ d :: more.takeWhile Char.isDigit, digit.isDigit = true :=
    List.forall_mem_cons.mpr ⟨digit, List.all_eq_true.mp List.all_takeWhile⟩
  have shape : digits ++ '.' :: d :: more =
      digits ++ '.' :: d :: more.takeWhile Char.isDigit ++ more.dropWhile Char.isDigit := by
    simp only [List.append_assoc, List.cons_append, List.takeWhile_append_dropWhile]
  rw [shape]
  refine ⟨_, _, _, .token (.fractional nonempty all (List.cons_ne_nil _ _) all')
    (stop_of_dropWhile more) .done, ?_⟩
  rw [byteLength_append]
  have positive := byteLength_pos (List.cons_ne_nil '.' (d :: more.takeWhile Char.isDigit))
  omega

/-- When a fraction begins at a place, the text can be scanned so that the place is inside a token. -/
theorem exists_scans_past {back : List Char}
    (scans : Scans file place (front ++ rest) tokens stop rest) (short : stop < 2 ^ 32)
    (joins : JoinsFraction tokens stop back) :
    ∃ tokens' later rest', Scans file place (front ++ back) tokens' later rest' ∧
      stop < later := by
  obtain ⟨⟨token, last, whole, ends⟩, starts⟩ := joins
  obtain ⟨tokens, rfl⟩ := List.getLast?_eq_some_iff.mp last
  obtain ⟨before, kind, word, more, earlier, rfl, spelled, others⟩ := scans.exists_last
  obtain ⟨_, _, further⟩ := others.exists_front
  have reached : stop = before + byteLength word := by
    rw [← ends]
    exact Position.toNat_offset_ofByte (by omega)
  obtain ⟨-, rfl⟩ := others.eq_nil_of_place reached
  cases whole
  obtain ⟨nonempty, all⟩ : word ≠ [] ∧ ∀ digit ∈ word, digit.isDigit = true := by
    cases spelled with
    | integer nonempty all => exact ⟨nonempty, all⟩
    | fixed same => cases same
  obtain ⟨front', shape, -⟩ := earlier.exists_front
  rw [← List.append_assoc] at shape
  cases List.append_cancel_right shape
  rw [List.append_assoc] at earlier ⊢
  have head : ∀ c ∈ (word ++ back).head?, c ∈ (word ++ more).head? ∨ c = '\n' := by
    intro c member
    rw [List.head?_append_of_ne_nil word nonempty] at member ⊢
    exact .inl member
  have replaced := earlier.replace head fun _ _ _ _ point => by
    obtain ⟨d, behind, same, -⟩ := Pattern.startsFraction_eq_true_iff.mp point
    have first : '.' ∈ word.head? := by
      rw [← List.head?_append_of_ne_nil word nonempty, same]
      rfl
    exact absurd (all '.' (List.mem_of_mem_head? first)) (by decide)
  obtain ⟨fraction, later, rest', scans', past⟩ := exists_fraction nonempty all starts
  exact ⟨_, later, rest', replaced.trans scans', reached ▸ past⟩

theorem stop_eq_of_front (scans : Scans file place (front ++ rest) tokens stop rest) :
    stop = place + byteLength front := by
  obtain ⟨front', same, shift⟩ := scans.exists_front
  rwa [List.append_cancel_right same]

/-- When a fraction begins at a place, no fault is raised there. -/
theorem outcome_ne_of_joins {source : String} {file? : Option String} {back : List Char}
    {cause : Cause}
    (scans : Scans (file?.getD Reader.defaultFile) 0 (front ++ rest) tokens stop rest)
    (written : source.toList = front ++ back) (short : source.utf8ByteSize < 2 ^ 32)
    (joins : JoinsFraction tokens stop back) :
    (tokenize source file?).outcome ≠
      .error ⟨cause, .ofByte (file?.getD Reader.defaultFile) stop⟩ := by
  intro failed
  have size := congrArg byteLength written
  rw [byteLength_toList, byteLength_append] at size
  have place := scans.stop_eq_of_front
  have inside : stop < 2 ^ 32 := by omega
  obtain ⟨_, later, rest', earlier, past⟩ := scans.exists_scans_past inside joins
  obtain ⟨_, last, rest'', further, stuck⟩ :=
    exists_scans (file?.getD Reader.defaultFile) later rest'
  obtain ⟨_, _, shift⟩ := further.exists_front
  have all := earlier.trans further
  cases rest'' with
  | nil =>
      rw [all.outcome_tokenize written] at failed
      cases failed
  | cons c rest'' =>
      have within := all.stop_lt_byteLength
      rw [byteLength_append] at within
      rw [all.tokenize_eq_of_stuck written stuck] at failed
      have same := Position.ofByte_inj (by omega) inside (Fault.mk.inj (Except.error.inj failed)).2
      omega

end Scans

/--
When a source of less than `2 ^ 32` bytes is not split to its end, its fault is
exact: it blames a character that starts no lexeme, and nothing after it matters
unless a fraction begins there.
-/
theorem exists_isExact {source : String} {file? : Option String} {fault : Fault}
    (short : source.utf8ByteSize < 2 ^ 32)
    (failed : (tokenize source file?).outcome = .error fault) :
    ∃ front c tokens, fault.IsExact source file? front c tokens := by
  obtain ⟨tokens, stop, c, back, scans, stuck, rfl⟩ := exists_scans_of_outcome_error failed
  have split := scans.tokenize_eq_of_stuck rfl stuck
  have inside := scans.stop_lt_byteLength
  rw [byteLength_toList] at inside
  have inside := Nat.lt_trans inside short
  obtain ⟨front, whole, rfl⟩ := scans.exists_front
  rw [whole] at scans
  rw [Nat.zero_add] at *
  obtain ⟨dark, foreign⟩ := Lexeme.first?_eq_none_iff.mp stuck
  refine ⟨front, c, tokens, ⟨back, whole⟩, rfl, Position.toNat_offset_ofByte inside, rfl, dark,
    foreign, ?_, congrArg Traced.events split, fun back' apart => ?_, fun back' joins small => ?_⟩
  · exact scans.cut.outcome_tokenize String.toList_ofList
  · have scans' := scans.replace_behind inside apart
    rw [scans'.tokenize_eq_of_stuck String.toList_ofList (Lexeme.first?_cons_eq_none stuck _)]
  · rw [← String.toList_ofList (l := front ++ c :: back'), byteLength_toList] at small
    exact scans.outcome_ne_of_joins String.toList_ofList small joins

/-- A point behind a number is blamed when no digit follows, here at the end of the source. -/
theorem exists_isExact_point :
    "1.".utf8ByteSize < 2 ^ 32 ∧
      (tokenize "1." none).outcome = .error ⟨.unrecognisedToken ".", .ofByte "shell" 1⟩ ∧
      ∃ front c tokens, Fault.IsExact ⟨.unrecognisedToken ".", .ofByte "shell" 1⟩ "1." none front c
        tokens := by
  have cut : Cut.ofText "1.".toList = ⟨[⟨some .integerLiteral, "1"⟩], ['.']⟩ := by
    decide +kernel
  have failed : (tokenize "1." none).outcome =
      .error ⟨.unrecognisedToken ".", .ofByte "shell" 1⟩ := by
    rw [tokenize, cut]
    rfl
  exact ⟨by decide, failed, exists_isExact (by decide) failed⟩

end ExprLang
