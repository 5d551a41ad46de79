import CqlDdl.Binary64.Decimal

/-! Whole numbers among the floating-point numbers. Each one up to the limit of exact ones is a
number of its own and is written digit by digit, and counting up from one of them is exact. -/

namespace CqlDdl.Binary64

/-- The natural number that a number stands for. Both zeros stand for 0. -/
structure IsWhole (x : Binary64) (n : Nat) : Prop where
  finite : x.isFinite = true
  signedUnits_eq : x.signedUnits = ((n * unitsPerOne : Nat) : Int)

theorem isNaN_of_isFinite {x : Binary64} (h : x.isFinite = true) : x.isNaN = false := by
  simp_all [isFinite, isNaN]

theorem isInfinite_of_isFinite {x : Binary64} (h : x.isFinite = true) : x.isInfinite = false := by
  simp_all [isFinite, isInfinite]

theorem add_of_isFinite {x y : Binary64} (hx : x.isFinite = true) (hy : y.isFinite = true) :
    x + y =
      if x.signedUnits + y.signedUnits = 0 then pack (x.negative && y.negative) 0 0
      else ofUnits (decide (x.signedUnits + y.signedUnits < 0))
        (x.signedUnits + y.signedUnits).natAbs := by
  change add x y = _
  rw [add, isNaN_of_isFinite hx, isNaN_of_isFinite hy, isInfinite_of_isFinite hx,
    isInfinite_of_isFinite hy]
  rfl

/-! ### Exact magnitudes -/

theorem roundedQuotient_mul (q : Nat) {d : Nat} (hd : 0 < d) : roundedQuotient (q * d) d = q := by
  simp [roundedQuotient, hd]

section

variable {q shift : Nat}

theorem log2_mul_pow (hlow : Nat.pow 2 52 ≤ q) (hhigh : q < Nat.pow 2 53) :
    (q * Nat.pow 2 shift).log2 = 52 + shift := by
  have hpos : 0 < Nat.pow 2 shift := Nat.two_pow_pos shift
  have hq : q ≠ 0 := Nat.ne_of_gt (Nat.lt_of_lt_of_le (by decide) hlow)
  refine (Nat.log2_eq_iff (Nat.mul_ne_zero hq (Nat.ne_of_gt hpos))).mpr ⟨?_, ?_⟩
  · rw [Nat.pow_add]
    exact Nat.mul_le_mul_right _ hlow
  · rw [Nat.add_right_comm, Nat.pow_add]
    exact Nat.mul_lt_mul_of_pos_right hhigh hpos

theorem ofUnits_mul_pow (hlow : Nat.pow 2 52 ≤ q) (hhigh : q < Nat.pow 2 53)
    (hshift : shift + 1 < 2047) :
    ofUnits false (q * Nat.pow 2 shift) = pack false (shift + 1) q := by
  have hlog : (q * Nat.pow 2 shift / 1).log2 - 52 = shift := by
    rw [Nat.div_one, log2_mul_pow hlow hhigh, Nat.add_sub_cancel_left]
  have hquotient : roundedQuotient (q * Nat.pow 2 shift) (1 * Nat.pow 2 shift) = q := by
    rw [Nat.one_mul]
    exact roundedQuotient_mul q (Nat.two_pow_pos shift)
  simp only [ofUnits, ofRatio, hlog, hquotient, if_neg (Nat.not_lt.mpr hlow),
    if_neg (Nat.ne_of_lt hhigh), if_pos hshift]

theorem exponent_pack (hshift : shift + 1 < 2047) :
    (pack false (shift + 1) q).exponent.val = shift + 1 :=
  Nat.mod_eq_of_lt (by omega)

theorem units_pack (hlow : Nat.pow 2 52 ≤ q) (hhigh : q < Nat.pow 2 53)
    (hshift : shift + 1 < 2047) :
    (pack false (shift + 1) q).units = q * Nat.pow 2 shift := by
  have hfraction : (pack false (shift + 1) q).fraction.val = q - Nat.pow 2 52 := by
    change q % 4503599627370496 = _
    have hwidth : Nat.pow 2 52 = 4503599627370496 := rfl
    have hdouble : Nat.pow 2 53 = 2 * 4503599627370496 := rfl
    omega
  rw [units, significand, scale, exponent_pack hshift, hfraction, if_neg (by omega),
    Nat.add_sub_cancel, Nat.add_sub_of_le hlow]

end

/-- Up to the limit, a number times a high power of two has a significand of 53 bits. -/
theorem exists_mul_pow {n : Nat} (hne : n ≠ 0) (h : n ≤ exactLimit) {places : Nat}
    (hplaces : 52 ≤ places) : ∃ q shift, Nat.pow 2 52 ≤ q ∧ q < Nat.pow 2 53 ∧
      shift ≤ places + 1 ∧ n * Nat.pow 2 places = q * Nat.pow 2 shift := by
  have hsum : ∀ {a b c : Nat}, a + b = c → Nat.pow 2 a * Nat.pow 2 b = Nat.pow 2 c := by
    rintro a b c rfl
    exact (Nat.pow_add 2 a b).symm
  by_cases hlimit : n = Nat.pow 2 53
  · -- The limit is a power of two itself, and takes one place from its significand.
    refine ⟨Nat.pow 2 52, places + 1, Nat.le_refl _, by decide, Nat.le_refl _, ?_⟩
    have hone : 53 + places = 52 + (places + 1) := by omega
    rw [hlimit, hsum hone, hsum rfl]
  · have hlt : n < Nat.pow 2 53 := Nat.lt_of_le_of_ne h hlimit
    have hlog : n.log2 < 53 := (Nat.log2_lt hne).mpr hlt
    -- Below it, the significand takes as many places as it is short of 53.
    refine ⟨n * Nat.pow 2 (52 - n.log2), places - (52 - n.log2), ?_, ?_, by omega, ?_⟩
    · have hlow : n.log2 + (52 - n.log2) = 52 := by omega
      rw [← hsum hlow]
      exact Nat.mul_le_mul_right _ (Nat.log2_self_le hne)
    · have hhigh : n.log2 + 1 + (52 - n.log2) = 53 := by omega
      rw [← hsum hhigh]
      exact Nat.mul_lt_mul_of_pos_right Nat.lt_log2_self (Nat.two_pow_pos _)
    · have hall : 52 - n.log2 + (places - (52 - n.log2)) = places := by omega
      rw [Nat.mul_assoc, hsum hall]

/-! ### Whole numbers -/

section

variable {n : Nat}

/-- The units in the number one are a power of two. Its size, with which no step should compute,
only counts where exponents are compared. -/
theorem exists_unitsPerOne_eq : ∃ places, 52 ≤ places ∧ places + 1 < 2046 ∧
    unitsPerOne = Nat.pow 2 places := by
  refine ⟨1074, by decide, by decide, ?_⟩
  unfold unitsPerOne
  exact Eq.refl _

theorem unitsPerOne_pos : 0 < unitsPerOne := by
  obtain ⟨places, -, -, hunits⟩ := exists_unitsPerOne_eq
  exact hunits ▸ Nat.two_pow_pos places

theorem ofNat_eq_ofUnits (n : Nat) : ofNat n = ofUnits false (n * unitsPerOne) := rfl

theorem ofNat_zero : ofNat 0 = pack false 0 0 := by
  rw [ofNat_eq_ofUnits, Nat.zero_mul]
  rfl

theorem exists_pack_eq_ofNat (hne : n ≠ 0) (h : n ≤ exactLimit) : ∃ q shift,
    Nat.pow 2 52 ≤ q ∧ q < Nat.pow 2 53 ∧ shift + 1 < 2047 ∧
      n * unitsPerOne = q * Nat.pow 2 shift ∧ ofNat n = pack false (shift + 1) q := by
  obtain ⟨places, hfew, hmany, hone⟩ := exists_unitsPerOne_eq
  obtain ⟨q, shift, hlow, hhigh, hplaces, hunits⟩ := exists_mul_pow hne h hfew
  rw [← hone] at hunits
  have hshift : shift + 1 < 2047 := by omega
  refine ⟨q, shift, hlow, hhigh, hshift, hunits, ?_⟩
  rw [ofNat_eq_ofUnits, hunits, ofUnits_mul_pow hlow hhigh hshift]

theorem negative_ofNat (h : n ≤ exactLimit) : (ofNat n).negative = false := by
  by_cases hzero : n = 0
  · rw [hzero, ofNat_zero]
    rfl
  · obtain ⟨q, shift, -, -, -, -, hpack⟩ := exists_pack_eq_ofNat hzero h
    rw [hpack]
    rfl

theorem isFinite_ofNat (h : n ≤ exactLimit) : (ofNat n).isFinite = true := by
  by_cases hzero : n = 0
  · rw [hzero, ofNat_zero]
    decide
  · obtain ⟨q, shift, -, -, hshift, -, hpack⟩ := exists_pack_eq_ofNat hzero h
    rw [hpack, isFinite, exponent_pack hshift, bne_iff_ne]
    omega

theorem units_ofNat (h : n ≤ exactLimit) : (ofNat n).units = n * unitsPerOne := by
  by_cases hzero : n = 0
  · rw [hzero, ofNat_zero, Nat.zero_mul]
    decide
  · obtain ⟨q, shift, hlow, hhigh, hshift, hunits, hpack⟩ := exists_pack_eq_ofNat hzero h
    rw [hpack, hunits, units_pack hlow hhigh hshift]

theorem isWhole_ofNat (h : n ≤ exactLimit) : IsWhole (ofNat n) n where
  finite := isFinite_ofNat h
  signedUnits_eq := by
    rw [signedUnits, negative_ofNat h, units_ofNat h]
    rfl

theorem text_ofNat (h : n ≤ exactLimit) : (ofNat n).text = Text.ofNat n := by
  have hfinite := isFinite_ofNat h
  have hmagnitude : (ofNat n).magnitudeText = Text.ofNat n := by
    rw [magnitudeText, units_ofNat h, Nat.mul_div_cancel n unitsPerOne_pos, Nat.mul_mod_left]
    exact if_pos ⟨rfl, h⟩
  rw [text, isNaN_of_isFinite hfinite, isInfinite_of_isFinite hfinite, negative_ofNat h,
    hmagnitude]
  rfl

/-- Counting up from a whole number gives the whole number that is as far above it. -/
theorem IsWhole.add_ofNat {x : Binary64} {m : Nat} (hx : IsWhole x m) (h : n ≤ exactLimit) :
    x + ofNat n = ofNat (m + n) := by
  have hn := isWhole_ofNat h
  have htotal : x.signedUnits + (ofNat n).signedUnits = (((m + n) * unitsPerOne : Nat) : Int) := by
    rw [hx.signedUnits_eq, hn.signedUnits_eq, Nat.add_mul, Int.natCast_add]
  rw [add_of_isFinite hx.finite hn.finite, htotal, negative_ofNat h]
  by_cases hzero : m + n = 0
  · -- The sum of a negative zero and zero is not negative.
    rw [hzero, Nat.zero_mul, Bool.and_false, ofNat_zero]
    exact if_pos rfl
  · have hne : (((m + n) * unitsPerOne : Nat) : Int) ≠ 0 :=
      Int.natCast_ne_zero.mpr (Nat.mul_ne_zero hzero (Nat.ne_of_gt unitsPerOne_pos))
    rw [if_neg hne, Int.natAbs_natCast, decide_eq_false (Int.not_lt.mpr (Int.natCast_nonneg _)),
      ofNat_eq_ofUnits]

end

end CqlDdl.Binary64
