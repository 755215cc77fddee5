import ExprLang.Number.Shortest
import ExprLang.Proofs.Number.Positional

/-!
# Numbers read back

The text of a finite number is read as the same number again. Rounding depends
only on the quotient that is rounded, hence not on the scale of a decimal, and
the full expansion of a magnitude is read without any rounding.
-/

namespace ExprLang

/-! ## Rounding -/

theorem roundHalfEven_mul_left {scale : Nat} (positive : 0 < scale)
    (numerator denominator : Nat) :
    roundHalfEven (scale * numerator) (scale * denominator) =
      roundHalfEven numerator denominator := by
  have doubled : 2 * (scale * (numerator % denominator)) =
      scale * (2 * (numerator % denominator)) := Nat.mul_left_comm ..
  unfold roundHalfEven
  simp only [Nat.mul_div_mul_left _ _ positive, Nat.mul_mod_mul_left, doubled,
    Nat.mul_lt_mul_left positive]

theorem roundHalfEven_of_dvd {numerator denominator : Nat} (positive : 0 < denominator)
    (exact : numerator % denominator = 0) :
    roundHalfEven numerator denominator = numerator / denominator := by
  unfold roundHalfEven
  dsimp only
  rw [exact, if_pos (by omega)]

namespace Magnitude

theorem nearestUnits_mul_left {scale : Nat} (positive : 0 < scale) (numerator denominator : Nat) :
    nearestUnits (scale * numerator) (scale * denominator) =
      nearestUnits numerator denominator := by
  unfold nearestUnits
  simp only [Nat.mul_assoc, Nat.mul_div_mul_left _ _ positive, roundHalfEven_mul_left positive]

/-- Equal quotients are rounded to the same magnitude. -/
theorem nearest?_eq {numerator denominator numerator' denominator' : Nat}
    (positive : 0 < denominator) (positive' : 0 < denominator')
    (same : numerator * denominator' = numerator' * denominator) :
    nearest? numerator denominator = nearest? numerator' denominator' := by
  have units : nearestUnits numerator denominator = nearestUnits numerator' denominator' := by
    rw [← nearestUnits_mul_left positive', ← nearestUnits_mul_left positive numerator',
      Nat.mul_comm denominator', same, Nat.mul_comm numerator', Nat.mul_comm denominator']
  unfold nearest?
  simp only [units]

/-! ## Scales -/

theorem length_digitsOf_mul_pow {coefficient : Nat} (positive : 0 < coefficient) (places : Nat) :
    (Decimal.digitsOf (coefficient * 10 ^ places)).length =
      (Decimal.digitsOf coefficient).length + places := by
  induction places with
  | zero => rw [Nat.pow_zero, Nat.mul_one, Nat.add_zero]
  | succ places ih =>
      have larger : 0 < coefficient * 10 ^ places := Nat.mul_pos positive (Nat.pow_pos (by decide))
      have shifted : coefficient * 10 ^ (places + 1) = 10 * (coefficient * 10 ^ places) + 0 := by
        rw [Nat.pow_succ, Nat.add_zero, Nat.mul_comm 10, Nat.mul_assoc]
      rw [shifted, Decimal.digitsOf, ← Nat.toDigits_append_toDigits (by decide) larger (by decide),
        List.length_append]
      rw [Decimal.digitsOf] at ih
      rw [ih]
      rfl

/-- The scale of a decimal does not matter for the magnitude that it is read as. -/
theorem ofDecimal?_refine (decimal : Decimal) (places : Nat) :
    ofDecimal? (decimal.refine places) = ofDecimal? decimal := by
  obtain ⟨coefficient, exponent⟩ := decimal
  rw [Decimal.refine]
  by_cases zero : coefficient = 0
  · rw [ofDecimal?, ofDecimal?, if_pos (by rw [zero, Nat.zero_mul]), if_pos zero]
  · have positive : 0 < coefficient := Nat.pos_of_ne_zero zero
    have nonzero : coefficient * 10 ^ places ≠ 0 :=
      Nat.ne_of_gt (Nat.mul_pos positive (Nat.pow_pos (by decide)))
    have size : ((Decimal.digitsOf (coefficient * 10 ^ places)).length : Int) +
        (exponent - places) = (Decimal.digitsOf coefficient).length + exponent := by
      rw [length_digitsOf_mul_pow positive]
      omega
    rw [ofDecimal?, ofDecimal?, if_neg nonzero, if_neg zero]
    dsimp only
    rw [size]
    split
    · rfl
    · split
      · rfl
      · refine nearest?_eq (Nat.pow_pos (by decide)) (Nat.pow_pos (by decide)) ?_
        have exponents : places + (exponent - places).toNat + (-exponent).toNat =
            exponent.toNat + (-(exponent - places)).toNat := by omega
        simp only [Nat.pow_eq, Nat.mul_assoc, ← Nat.pow_add]
        rw [exponents]

theorem ofDecimal?_eq_of_sameNumber {first second : Decimal} (same : first.SameNumber second) :
    ofDecimal? first = ofDecimal? second := by
  obtain ⟨places, places', same⟩ := same
  rw [← ofDecimal?_refine first places, same, ofDecimal?_refine]

/-! ## Shortest forms -/

theorem pow_pos_of_pos {base : Nat} (positive : 0 < base) (exponent : Nat) :
    0 < Nat.pow base exponent :=
  Nat.pow_pos positive

theorem pow_ten (exponent : Nat) : Nat.pow 10 exponent = Nat.pow 5 exponent * Nat.pow 2 exponent :=
  Nat.mul_pow 5 2 exponent

theorem unitSpacing_pos (units : Nat) : 0 < unitSpacing units :=
  pow_pos_of_pos (by decide) _

theorem exists_nearestUnits_eq :
    ∃ scale, 0 < scale ∧ Nat.pow 2 1074 = scale ∧ ∀ numerator denominator,
      nearestUnits numerator denominator =
        roundHalfEven (numerator * scale)
            (denominator * unitSpacing (numerator * scale / denominator)) *
          unitSpacing (numerator * scale / denominator) := by
  have positive := pow_pos_of_pos (show 0 < 2 by decide) 1074
  unfold nearestUnits
  generalize Nat.pow 2 1074 = scale at positive ⊢
  exact ⟨scale, positive, rfl, fun _ _ => rfl⟩

/-- A magnitude as a quotient of its units needs no rounding. -/
theorem nearest?_units (magnitude : Magnitude) :
    nearest? magnitude.units (Nat.pow 2 1074) = some magnitude := by
  obtain ⟨units, isMagnitude⟩ := magnitude
  obtain ⟨scale, positive, same, rounded⟩ := exists_nearestUnits_eq
  have exact : nearestUnits units scale = units := by
    rw [rounded, Nat.mul_div_cancel _ positive, Nat.mul_comm units,
      roundHalfEven_mul_left positive, roundHalfEven_of_dvd (unitSpacing_pos units) isMagnitude.2]
    exact Nat.div_mul_cancel (Nat.dvd_of_mod_eq_zero isMagnitude.2)
  rw [same]
  unfold nearest?
  simp only [exact]
  exact dif_pos isMagnitude

theorem length_digitsOf_bounds {value low high : Nat} (positive : 0 < low) (least : 10 ^ low ≤ value)
    (most : value < 10 ^ high) (higher : 0 < high) :
    low < (Decimal.digitsOf value).length ∧ (Decimal.digitsOf value).length ≤ high := by
  constructor
  · rw [← Nat.not_le]
    intro short
    exact Nat.not_lt.mpr least ((Nat.length_toDigits_le_iff (by decide) positive).mp short)
  · exact (Nat.length_toDigits_le_iff (by decide) higher).mpr most

/-- What has to be known of the power of five by which magnitudes are expanded. -/
theorem exists_expansion_eq (magnitude : Magnitude) :
    ∃ scale, magnitude.expansion = magnitude.units * scale ∧ 0 < scale ∧ 10 ^ 743 ≤ scale ∧
      Nat.pow 2 2098 * scale ≤ 10 ^ 1384 ∧ Nat.pow 10 1074 = scale * Nat.pow 2 1074 := by
  have positive := pow_pos_of_pos (show 0 < 5 by decide) 1074
  have least : 10 ^ 743 ≤ Nat.pow 5 1074 := by decide +kernel
  have most : Nat.pow 2 2098 * Nat.pow 5 1074 ≤ 10 ^ 1384 := by decide +kernel
  have ten := pow_ten 1074
  unfold expansion
  generalize Nat.pow 5 1074 = scale, Nat.pow 2 1074 = half, Nat.pow 10 1074 = whole at *
  exact ⟨scale, rfl, positive, least, most, ten⟩

/-- The full expansion of a magnitude needs no rounding. -/
theorem ofDecimal?_expansion (magnitude : Magnitude) :
    ofDecimal? ⟨magnitude.expansion, -1074⟩ = some magnitude := by
  obtain ⟨scale, shape, positive, least, most, ten⟩ := magnitude.exists_expansion_eq
  rw [shape]
  by_cases nonzero : magnitude.units = 0
  · rw [ofDecimal?, if_pos (by rw [nonzero, Nat.zero_mul])]
    obtain ⟨units, isMagnitude⟩ := magnitude
    cases nonzero
    rfl
  · have some : 0 < magnitude.units := Nat.pos_of_ne_zero nonzero
    have below : magnitude.units * scale < 10 ^ 1384 :=
      Nat.lt_of_lt_of_le (Nat.mul_lt_mul_of_pos_right magnitude.isMagnitude.1 positive) most
    obtain ⟨longer, shorter⟩ := length_digitsOf_bounds (by decide)
      (Nat.le_trans least (Nat.le_mul_of_pos_left scale some)) below (by decide)
    have scales : (-1074 : Int).toNat = 0 ∧ (-(-1074) : Int).toNat = 1074 := ⟨rfl, rfl⟩
    rw [ofDecimal?, if_neg (Nat.ne_of_gt (Nat.mul_pos some positive))]
    dsimp only
    rw [if_neg (by omega), if_neg (by omega), ← nearest?_units magnitude, scales.1, scales.2]
    refine nearest?_eq (pow_pos_of_pos (by decide) _) (pow_pos_of_pos (by decide) _) ?_
    rw [show Nat.pow 10 0 = 1 from rfl, Nat.mul_one, ten, Nat.mul_assoc]

theorem isReadFrom_expansion (magnitude : Magnitude) :
    magnitude.isReadFrom ⟨magnitude.expansion, -1074⟩ = true := by
  rw [isReadFrom, ofDecimal?_expansion]
  exact beq_self_eq_true _

theorem ofDecimal?_of_isReadFrom {magnitude : Magnitude} {decimal : Decimal}
    (reads : magnitude.isReadFrom decimal = true) : ofDecimal? decimal = some magnitude := by
  rw [isReadFrom] at reads
  exact eq_of_beq reads

theorem isReadFrom_shortest (magnitude : Magnitude) :
    magnitude.isReadFrom magnitude.shortest = true := by
  rw [shortest]
  cases found : magnitude.firstReadBack? with
  | some decimal =>
      obtain ⟨kept, _, rounded⟩ := List.exists_of_findSome?_eq_some found
      exact isReadFrom_of_roundedAt? rounded
  | none => exact magnitude.isReadFrom_expansion

end Magnitude

namespace Binary64

theorem text_finite_false (magnitude : Magnitude) :
    (Binary64.finite false magnitude).text = String.ofList magnitude.shortest.text := by
  rw [text, if_neg Bool.false_ne_true]

/-- The text of a magnitude is positional, and it is read as that magnitude. -/
theorem exists_isPositional_text (magnitude : Magnitude) :
    ∃ decimal, Decimal.IsPositional (Binary64.finite false magnitude).text.toList decimal ∧
      Magnitude.ofDecimal? decimal = some magnitude := by
  obtain ⟨decimal, positional, same⟩ := Decimal.exists_isPositional_text magnitude.shortest
  refine ⟨decimal, ?_, ?_⟩
  · rw [text_finite_false, String.toList_ofList]
    exact positional
  · rw [Magnitude.ofDecimal?_eq_of_sameNumber same]
    exact Magnitude.ofDecimal?_of_isReadFrom magnitude.isReadFrom_shortest

/-- A number that is not negative reads back from its text. -/
theorem read?_text (magnitude : Magnitude) :
    read? (Binary64.finite false magnitude).text = some (.finite false magnitude) := by
  obtain ⟨decimal, positional, same⟩ := exists_isPositional_text magnitude
  rw [read?, positional.parse?_eq, Option.map_some, ofNumeral, same]

/-! ## Texts that tell numbers apart -/

theorem toList_text_finite_true (magnitude : Magnitude) :
    (Binary64.finite true magnitude).text.toList =
      '-' :: (Binary64.finite false magnitude).text.toList := by
  rw [text_finite_false, text, if_pos rfl, String.toList_ofList, String.toList_ofList]

/-- The text of a finite number starts with a minus sign or with a digit. -/
theorem exists_toList_text_finite (negative : Bool) (magnitude : Magnitude) :
    ∃ c rest, (Binary64.finite negative magnitude).text.toList = c :: rest ∧
      (c = '-' ∨ c.isDigit = true) := by
  cases negative with
  | true => exact ⟨'-', _, toList_text_finite_true magnitude, .inl rfl⟩
  | false =>
      obtain ⟨decimal, positional, _⟩ := exists_isPositional_text magnitude
      obtain ⟨digit, rest, shape, isDigit⟩ := positional.exists_digit
      exact ⟨digit, rest, shape, .inr isDigit⟩

theorem mem_toList_text_finite {negative : Bool} {magnitude : Magnitude} {c : Char}
    (member : c ∈ (Binary64.finite negative magnitude).text.toList) :
    c = '-' ∨ c = '.' ∨ c.isDigit = true := by
  obtain ⟨decimal, positional, _⟩ := exists_isPositional_text magnitude
  cases negative with
  | false => exact .inr (positional.point_or_digit member)
  | true =>
      rw [toList_text_finite_true] at member
      rcases List.mem_cons.mp member with minus | member
      · exact .inl minus
      · exact .inr (positional.point_or_digit member)

theorem magnitude_eq_of_text {first second : Magnitude}
    (same : (Binary64.finite false first).text = (Binary64.finite false second).text) :
    first = second := by
  have read := read?_text first
  rw [same, read?_text second] at read
  cases read
  rfl

/-- Finite numbers with the same text are the same, and the two zeros have different texts. -/
theorem finite_eq_of_text {negative negative' : Bool} {first second : Magnitude}
    (same : (Binary64.finite negative first).text = (Binary64.finite negative' second).text) :
    Binary64.finite negative first = .finite negative' second := by
  have unsigned {magnitude other : Magnitude} : (Binary64.finite true magnitude).text ≠
      (Binary64.finite false other).text := by
    intro same
    obtain ⟨decimal, positional, _⟩ := exists_isPositional_text other
    obtain ⟨digit, rest, shape, isDigit⟩ := positional.exists_digit
    rw [← same, toList_text_finite_true] at shape
    cases shape
    cases isDigit
  cases negative with
  | false =>
      cases negative' with
      | false => rw [magnitude_eq_of_text same]
      | true => exact absurd same.symm unsigned
  | true =>
      cases negative' with
      | false => exact absurd same unsigned
      | true =>
          have texts := congrArg String.toList same
          rw [toList_text_finite_true, toList_text_finite_true] at texts
          rw [magnitude_eq_of_text (String.toList_inj.mp (List.cons.inj texts).2)]

end Binary64

end ExprLang
