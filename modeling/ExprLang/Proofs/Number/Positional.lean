import ExprLang.Number.Numeral
import Mathlib.Algebra.Group.Nat.Defs
import Mathlib.Data.List.Basic

/-!
# Positional numerals

A numeral in positional form is a row of digits, or two of them with a point in
between. Such a numeral is read as its digits without the point, scaled by the
number of those after it. The form of a decimal is positional, and it is read as
the same number in perhaps another scale.
-/

namespace ExprLang

/-! ## Runs -/

section Runs

variable {α : Type} {p : α → Bool} {run rest : List α}

theorem takeWhile_append_of_stop (all : ∀ c ∈ run, p c = true)
    (stop : ∀ c ∈ rest.head?, p c = false) : (run ++ rest).takeWhile p = run := by
  rw [List.takeWhile_append_of_pos all]
  cases rest with
  | nil => exact List.append_nil run
  | cons c rest =>
      rw [List.takeWhile_cons_of_neg (by rw [stop c rfl]; decide), List.append_nil]

theorem dropWhile_append_of_stop (all : ∀ c ∈ run, p c = true)
    (stop : ∀ c ∈ rest.head?, p c = false) : (run ++ rest).dropWhile p = rest := by
  rw [List.dropWhile_append_of_pos all]
  cases rest with
  | nil => rfl
  | cons c rest => rw [List.dropWhile_cons_of_neg (by rw [stop c rfl]; decide)]

theorem stop_of_dropWhile (text : List α) : ∀ c ∈ (text.dropWhile p).head?, p c = false := by
  intro c member
  have head := List.head?_dropWhile_not p text
  rw [member] at head
  exact head

theorem takeWhile_of_all (all : ∀ c ∈ run, p c = true) : run.takeWhile p = run := by
  have stop : ∀ c ∈ ([] : List α).head?, p c = false := nofun
  have whole := takeWhile_append_of_stop all stop
  rwa [List.append_nil] at whole

theorem dropWhile_of_all (all : ∀ c ∈ run, p c = true) : run.dropWhile p = [] := by
  have stop : ∀ c ∈ ([] : List α).head?, p c = false := nofun
  have whole := dropWhile_append_of_stop all stop
  rwa [List.append_nil] at whole

end Runs

namespace Decimal

/-! ## Digits -/

@[simp]
theorem ofDigits_digitsOf (value : Nat) : ofDigits (digitsOf value) = value :=
  Nat.ofDigitChars_ten_toDigits

theorem isDigit_of_mem_digitsOf {value : Nat} {digit : Char} (member : digit ∈ digitsOf value) :
    digit.isDigit = true :=
  Nat.isDigit_of_mem_toDigits (by decide) (by decide) member

theorem digitsOf_ne_nil (value : Nat) : digitsOf value ≠ [] :=
  Nat.toDigits_ne_nil

theorem ofDigits_append (first second : List Char) :
    ofDigits (first ++ second) = ofDigits first * 10 ^ second.length + ofDigits second := by
  have split : ofDigits (first ++ second) = Nat.ofDigitChars 10 second (ofDigits first) :=
    Nat.ofDigitChars_append 0
  rw [split, Nat.ofDigitChars_eq_ofDigitChars_zero, Nat.mul_comm]
  rfl

theorem ofDigits_replicate_zero (count : Nat) : ofDigits (List.replicate count '0') = 0 := by
  have zeros : ofDigits (List.replicate count '0') = 10 ^ count * 0 :=
    Nat.ofDigitChars_replicate_zero
  rw [zeros, Nat.mul_zero]

theorem ofDigits_append_replicate_zero (digits : List Char) (count : Nat) :
    ofDigits (digits ++ List.replicate count '0') = ofDigits digits * 10 ^ count := by
  rw [ofDigits_append, ofDigits_replicate_zero, List.length_replicate, Nat.add_zero]

theorem ofDigits_replicate_zero_append (digits : List Char) (count : Nat) :
    ofDigits (List.replicate count '0' ++ digits) = ofDigits digits := by
  rw [ofDigits_append, ofDigits_replicate_zero, Nat.zero_mul, Nat.zero_add]

theorem toLower_of_isDigit {digit : Char} (isDigit : digit.isDigit = true) :
    digit.toLower = digit := by
  have small : ¬ (digit.val ≥ 'A'.val ∧ digit.val ≤ 'Z'.val) := by
    simp only [Char.isDigit, Bool.and_eq_true, decide_eq_true_eq] at isDigit
    rintro ⟨large, _⟩
    exact absurd (UInt32.le_trans large isDigit.2) (by decide)
  unfold Char.toLower
  rw [dif_neg small]

/-! ## Numerals -/

/-- The same number, written with a finer scale. -/
def refine (decimal : Decimal) (places : Nat) : Decimal :=
  ⟨decimal.coefficient * 10 ^ places, decimal.exponent - places⟩

/-- Whether two decimals are the same number in perhaps different scales. -/
def SameNumber (first second : Decimal) : Prop :=
  ∃ places places', first.refine places = second.refine places'

/-- A text in positional form, and the decimal as which it is read. -/
inductive IsPositional : List Char → Decimal → Prop where
  | whole {digits : List Char} (nonempty : digits ≠ [])
      (all : ∀ digit ∈ digits, digit.isDigit = true) : IsPositional digits ⟨ofDigits digits, 0⟩
  | pointed {digits fraction : List Char} (nonempty : digits ≠ [])
      (all : ∀ digit ∈ digits, digit.isDigit = true) (nonempty' : fraction ≠ [])
      (all' : ∀ digit ∈ fraction, digit.isDigit = true) :
      IsPositional (digits ++ '.' :: fraction) ⟨ofDigits (digits ++ fraction), -fraction.length⟩

namespace IsPositional

variable {text : List Char} {decimal : Decimal}

theorem exists_digit (positional : IsPositional text decimal) :
    ∃ digit rest, text = digit :: rest ∧ digit.isDigit = true := by
  cases positional with
  | whole nonempty all =>
      obtain ⟨digit, rest, rfl⟩ := List.exists_cons_of_ne_nil nonempty
      exact ⟨digit, rest, rfl, all digit (List.mem_cons_self ..)⟩
  | pointed nonempty all _ _ =>
      obtain ⟨digit, rest, rfl⟩ := List.exists_cons_of_ne_nil nonempty
      exact ⟨digit, _, rfl, all digit (List.mem_cons_self ..)⟩

theorem point_or_digit (positional : IsPositional text decimal) {c : Char} (member : c ∈ text) :
    c = '.' ∨ c.isDigit = true := by
  cases positional with
  | whole _ all => exact .inr (all c member)
  | pointed _ all _ all' =>
      rcases List.mem_append.mp member with member | member
      · exact .inr (all c member)
      · rcases List.mem_cons.mp member with point | member
        · exact .inl point
        · exact .inr (all' c member)

theorem unsigned?_eq (positional : IsPositional text decimal) :
    Numeral.unsigned? text = some decimal := by
  cases positional with
  | whole nonempty all =>
      rw [Numeral.unsigned?, takeWhile_of_all all, dropWhile_of_all all]
      simp [Numeral.splitFraction, Numeral.exponent?, nonempty]
  | pointed nonempty all nonempty' all' =>
      have stop : ∀ fraction : List Char, ∀ c ∈ ('.' :: fraction).head?, c.isDigit = false := by
        rintro fraction c ⟨⟩
        rfl
      rw [Numeral.unsigned?, takeWhile_append_of_stop all (stop _),
        dropWhile_append_of_stop all (stop _), Numeral.splitFraction, takeWhile_of_all all',
        dropWhile_of_all all']
      simp [Numeral.exponent?, nonempty]

/-- A numeral in positional form is read as its decimal. -/
theorem parse?_eq (positional : IsPositional text decimal) :
    Numeral.parse? text = some (.decimal false decimal) := by
  have unsigned := positional.unsigned?_eq
  obtain ⟨digit, rest, rfl, isDigit⟩ := positional.exists_digit
  have plain : Numeral.splitSign (digit :: rest) = (false, digit :: rest) := by
    unfold Numeral.splitSign
    split
    · next same =>
        cases same
        cases isDigit
    · next same =>
        cases same
        cases isDigit
    · rfl
  have other : ∀ {word : String} {letter : Char} {letters : List Char},
      word.toList = letter :: letters → letter.isDigit = false →
      String.ofList ((digit :: rest).map Char.toLower) ≠ word := by
    intro word letter letters spelled isLetter same
    rw [← same, String.toList_ofList, List.map_cons, toLower_of_isDigit isDigit] at spelled
    rw [← (List.cons.inj spelled).1, isDigit] at isLetter
    cases isLetter
  have notNan := other (show "nan".toList = ['n', 'a', 'n'] from rfl) rfl
  have notInf := other (show "inf".toList = ['i', 'n', 'f'] from rfl) rfl
  have notInfinity :=
    other (show "infinity".toList = ['i', 'n', 'f', 'i', 'n', 'i', 't', 'y'] from rfl) rfl
  rw [Numeral.parse?, plain]
  dsimp only
  rw [if_neg notNan, decide_eq_false notInf, decide_eq_false notInfinity, unsigned]
  rfl

end IsPositional

/-! ## Positional forms -/

theorem exists_dropTrailingZeros (digits : List Char) :
    ∃ count, digits = dropTrailingZeros digits ++ List.replicate count '0' := by
  have split := List.takeWhile_append_dropWhile (p := (· == '0')) (l := digits.reverse)
  have zeros : digits.reverse.takeWhile (· == '0') =
      List.replicate (digits.reverse.takeWhile (· == '0')).length '0' := by
    refine List.eq_replicate_iff.mpr ⟨rfl, fun c member => ?_⟩
    exact eq_of_beq (List.all_eq_true.mp List.all_takeWhile c member)
  refine ⟨(digits.reverse.takeWhile (· == '0')).length, ?_⟩
  have whole := congrArg List.reverse split
  rw [List.reverse_append, List.reverse_reverse, zeros, List.reverse_replicate] at whole
  exact whole.symm

/-- Zeros at the end of a fraction, and the point of an empty one, change only the scale. -/
theorem isPositional_dropTrailingZeros {whole tail : List Char} (nonempty : whole ≠ [])
    (all : ∀ digit ∈ whole ++ tail, digit.isDigit = true) :
    ∃ read count,
      IsPositional (match dropTrailingZeros tail with
        | [] => whole
        | fraction => whole ++ '.' :: fraction) read ∧
      read.refine count = ⟨ofDigits (whole ++ tail), -tail.length⟩ := by
  obtain ⟨count, zeros⟩ := exists_dropTrailingZeros tail
  have all₁ : ∀ digit ∈ whole, digit.isDigit = true :=
    fun digit member => all digit (List.mem_append_left _ member)
  split
  · next empty =>
      rw [empty, List.nil_append] at zeros
      refine ⟨_, count, .whole nonempty all₁, ?_⟩
      rw [zeros, ofDigits_append_replicate_zero, List.length_replicate]
      simp [refine]
  · next fraction nonempty' =>
      have all₂ : ∀ digit ∈ dropTrailingZeros tail, digit.isDigit = true := by
        intro digit member
        refine all digit (List.mem_append_right _ ?_)
        rw [zeros]
        exact List.mem_append_left _ member
      refine ⟨_, count, .pointed nonempty all₁ nonempty' all₂, ?_⟩
      have lengths := congrArg List.length zeros
      rw [List.length_append, List.length_replicate] at lengths
      have value : ofDigits (whole ++ tail) =
          ofDigits (whole ++ dropTrailingZeros tail) * 10 ^ count := by
        rw [← ofDigits_append_replicate_zero, List.append_assoc, ← zeros]
      rw [value]
      simp only [refine, Decimal.mk.injEq, true_and]
      omega

theorem isPositional_withPoint {digits : List Char}
    (all : ∀ digit ∈ digits, digit.isDigit = true) (places : Nat) :
    ∃ read count, IsPositional (withPoint digits places) read ∧
      read.refine count = ⟨ofDigits digits, -places⟩ := by
  obtain ⟨padded, padding⟩ : ∃ padded,
      List.replicate (places + 1 - digits.length) '0' ++ digits = padded := ⟨_, rfl⟩
  have value : ofDigits padded = ofDigits digits := by
    rw [← padding, ofDigits_replicate_zero_append]
  have room : places < padded.length := by
    rw [← padding, List.length_append, List.length_replicate]
    omega
  have shape := List.take_append_drop (padded.length - places) padded
  have all' : ∀ digit ∈ padded.take (padded.length - places) ++
      padded.drop (padded.length - places), digit.isDigit = true := by
    rw [shape, ← padding]
    intro digit member
    rcases List.mem_append.mp member with member | member
    · rw [List.eq_of_mem_replicate member]
      rfl
    · exact all digit member
  have nonempty : padded.take (padded.length - places) ≠ [] := by
    rw [← List.length_pos_iff, List.length_take]
    omega
  obtain ⟨read, count, positional, same⟩ := isPositional_dropTrailingZeros nonempty all'
  rw [shape, value, List.length_drop, Nat.sub_sub_self (Nat.le_of_lt room)] at same
  refine ⟨read, count, ?_, same⟩
  unfold withPoint
  rw [padding]
  exact positional

/-- The positional form of a decimal is read as the same number. -/
theorem exists_isPositional_text (decimal : Decimal) :
    ∃ read, IsPositional decimal.text read ∧ read.SameNumber decimal := by
  have nonempty := digitsOf_ne_nil decimal.coefficient
  have all : ∀ digit ∈ digitsOf decimal.coefficient, digit.isDigit = true :=
    fun _ => isDigit_of_mem_digitsOf
  unfold text
  dsimp only
  split
  · next natural =>
      refine ⟨_, .whole (List.append_ne_nil_of_left_ne_nil nonempty _) ?_, 0,
        decimal.exponent.toNat, ?_⟩
      · intro digit member
        rcases List.mem_append.mp member with member | member
        · exact all digit member
        · rw [List.eq_of_mem_replicate member]
          rfl
      · rw [ofDigits_append_replicate_zero, ofDigits_digitsOf]
        simp [refine]
        omega
  · next negative =>
      obtain ⟨read, count, positional, same⟩ :=
        isPositional_withPoint all (-decimal.exponent).toNat
      refine ⟨read, positional, count, 0, ?_⟩
      rw [same, ofDigits_digitsOf]
      simp [refine]
      omega

end Decimal

end ExprLang
