import CqlDdl.Options.Catalogue
import CqlDdl.Proofs.Characters
import CqlDdl.Proofs.WholeNumbers

/-! A value and its text are the same to the key of an option: the key accepts both or rejects both
in the same way, and writes both alike. What has to be shown is that the text of a number has the
form of a number exactly when the number is finite, and that no text of a number, an integer or a
truth value is taken for a value of another type. Main statement: `OptionKey.check_write_text`. -/

namespace CqlDdl

namespace Text

/-! ### The form of numbers -/

/-- The text does not go on with a digit. -/
def EndsDigits (rest : Text) : Prop :=
  ∀ c, rest.head? = some c → c.isDigit = false

theorem endsDigits_nil : EndsDigits [] := by
  intro c hc
  simp at hc

theorem endsDigits_cons {c : Char} (rest : Text) (h : c.isDigit = false) :
    EndsDigits (c :: rest) := by
  intro d hd
  obtain rfl : c = d := Option.some.inj hd
  exact h

theorem takeWhile_isDigit_append {digits rest : Text} (h : ∀ c ∈ digits, c.isDigit = true)
    (hrest : EndsDigits rest) : (digits ++ rest).takeWhile Char.isDigit = digits := by
  rw [List.takeWhile_append_of_pos h]
  cases rest with
  | nil => simp
  | cons c rest => simp [hrest c rfl]

theorem dropWhile_isDigit_append {digits rest : Text} (h : ∀ c ∈ digits, c.isDigit = true)
    (hrest : EndsDigits rest) : (digits ++ rest).dropWhile Char.isDigit = rest := by
  rw [List.dropWhile_append_of_pos h]
  cases rest with
  | nil => rfl
  | cons c rest => simp [hrest c rfl]

theorem forall_isDigit_of_isDigits {text : Text} (h : isDigits text = true) :
    ∀ c ∈ text, c.isDigit = true := by
  simp only [isDigits, Bool.and_eq_true, List.all_eq_true] at h
  exact h.2

theorem exists_cons_of_isDigits {text : Text} (h : isDigits text = true) :
    ∃ c rest, text = c :: rest ∧ c.isDigit = true ∧ ∀ d ∈ rest, d.isDigit = true := by
  have hall := forall_isDigit_of_isDigits h
  cases text with
  | nil => simp [isDigits] at h
  | cons c rest => exact ⟨c, rest, rfl, List.forall_mem_cons.mp hall⟩

/-- A number without a sign: digits, and a fraction or an exponent that may follow them. -/
inductive Magnitude : Text → Prop
  | mk {digits rest : Text} : isDigits digits = true → EndsDigits rest →
    isFraction true rest = true → Magnitude (digits ++ rest)

namespace Magnitude

theorem of_isDigits {digits : Text} (h : isDigits digits = true) : Magnitude digits := by
  have hmk := Magnitude.mk h endsDigits_nil rfl
  rwa [List.append_nil] at hmk

/-- Digits with an exponent after them. -/
theorem of_exponent {digits tail : Text} (h : isDigits digits = true)
    (htail : isExponent tail = true) (hends : EndsDigits tail) : Magnitude (digits ++ tail) := by
  refine .mk h hends ?_
  unfold isFraction
  split
  · exact absurd htail (by simp [isExponent])
  · exact htail

/-- Digits with a point after them, more digits, if any, and an exponent. -/
theorem of_point {digits more : Text} (h : isDigits digits = true)
    (hmore : ∀ c ∈ more, c.isDigit = true) {tail : Text} (htail : isExponent tail = true)
    (hends : EndsDigits tail) : Magnitude (digits ++ '.' :: (more ++ tail)) := by
  refine .mk h (endsDigits_cons _ (by decide)) ?_
  simp only [isFraction, Bool.true_or, Bool.true_and]
  rwa [dropWhile_isDigit_append hmore hends]

/-- Digits with a point after them, and more digits, if any. -/
theorem of_point_digits {digits more : Text} (h : isDigits digits = true)
    (hmore : ∀ c ∈ more, c.isDigit = true) : Magnitude (digits ++ '.' :: more) := by
  have hpoint := of_point h hmore rfl endsDigits_nil
  rwa [List.append_nil] at hpoint

theorem exists_isDigit {text : Text} (h : Magnitude text) : ∃ c ∈ text, c.isDigit = true := by
  obtain ⟨hdigits, -, -⟩ := h
  obtain ⟨c, rest, rfl, hc, -⟩ := exists_cons_of_isDigits hdigits
  exact ⟨c, by simp, hc⟩

/-- With or without a minus sign, a magnitude has the form of a number. -/
theorem isNumber {text : Text} (h : Magnitude text) :
    isNumber text = true ∧ Text.isNumber ('-' :: text) = true := by
  obtain ⟨hdigits, hends, hfraction⟩ := h
  rename_i digits rest
  have hall := forall_isDigit_of_isDigits hdigits
  obtain ⟨c, more, rfl, hc, -⟩ := exists_cons_of_isDigits hdigits
  have hunsigned : unsigned (c :: more ++ rest) = c :: more ++ rest := by
    unfold unsigned
    split
    · rename_i heq
      obtain rfl := (List.cons.inj heq).1
      exact absurd hc (by decide)
    · rename_i heq
      obtain rfl := (List.cons.inj heq).1
      exact absurd hc (by decide)
    · rfl
  have hminus : unsigned ('-' :: (c :: more ++ rest)) = c :: more ++ rest := rfl
  simp only [Text.isNumber, hunsigned, hminus, takeWhile_isDigit_append hall hends,
    dropWhile_isDigit_append hall hends]
  exact ⟨hfraction, hfraction⟩

end Magnitude

/-! ### Truth words -/

theorem toLower_of_isDigit {c : Char} (h : c.isDigit = true) : c.toLower = c := by
  refine dif_neg fun hupper => ?_
  simp only [Char.isDigit, Bool.and_eq_true, decide_eq_true_eq] at h
  exact absurd (UInt32.le_trans hupper.1 h.2) (by decide)

/-- A text with a digit in it is no word for a truth value. -/
theorem isTruthWord_eq_false {text : Text} {c : Char} (hc : c ∈ text) (h : c.isDigit = true) :
    isTruthWord text = false := by
  have hlower : c ∈ lowered text := toLower_of_isDigit h ▸ List.mem_map_of_mem hc
  have hword : ∀ word : Text, word.all (fun d => !d.isDigit) = true →
      (lowered text == word) = false := by
    intro word hletters
    rw [beq_eq_false_iff_ne]
    rintro rfl
    have hletter := List.all_eq_true.mp hletters c hlower
    simp [h] at hletter
  rw [isTruthWord, hword _ (by decide), hword _ (by decide)]
  rfl

/-- A number as it is written: a magnitude, which a minus sign may stand before. -/
def IsDecimal (text : Text) : Prop :=
  ∃ magnitude, Magnitude magnitude ∧ (text = magnitude ∨ text = '-' :: magnitude)

namespace IsDecimal

variable {text : Text}

theorem isNumber (h : IsDecimal text) : Text.isNumber text = true := by
  obtain ⟨magnitude, hmagnitude, rfl | rfl⟩ := h
  · exact hmagnitude.isNumber.1
  · exact hmagnitude.isNumber.2

theorem isTruthWord_eq_false (h : IsDecimal text) : isTruthWord text = false := by
  obtain ⟨magnitude, hmagnitude, htext⟩ := h
  obtain ⟨c, hc, hdigit⟩ := hmagnitude.exists_isDigit
  refine Text.isTruthWord_eq_false ?_ hdigit
  rcases htext with rfl | rfl
  · exact hc
  · exact List.mem_cons_of_mem '-' hc

end IsDecimal

theorem isDecimal_ofInt (n : Int) : IsDecimal (ofInt n) := by
  refine ⟨ofNat n.natAbs, .of_isDigits (isDigits_ofNat _), ?_⟩
  unfold ofInt
  split
  · exact .inr rfl
  · exact .inl rfl

end Text

/-! ### Texts of numbers -/

namespace Decimal

open Text

theorem isExponent_exponentText (e : Int) : isExponent (exponentText e) = true := by
  unfold exponentText
  have hdigits := isDigits_ofNat e.natAbs
  by_cases he : e < 0
  · rw [if_pos he]
    exact hdigits
  · rw [if_neg he]
    exact hdigits

theorem endsDigits_exponentText (e : Int) : EndsDigits (exponentText e) :=
  endsDigits_cons _ (by decide)

theorem forall_isDigit_replicate (n : Nat) : ∀ c ∈ List.replicate n '0', c.isDigit = true := by
  intro c hc
  rw [List.eq_of_mem_replicate hc]
  decide

/-- Whatever its digits are and wherever its point is, a decimal is written as a number. -/
theorem magnitude_text {d : Decimal} (h : isDigits d.digits = true) : Magnitude d.text := by
  have hall := forall_isDigit_of_isDigits h
  obtain ⟨c, rest, hdigits, hc, hrest⟩ := exists_cons_of_isDigits h
  have hone : isDigits [c] = true := by simp [isDigits, hc]
  unfold text
  simp only
  split
  · refine .of_isDigits ?_
    rw [isDigits, List.all_append, Bool.and_eq_true, Bool.and_eq_true, List.all_eq_true,
      List.all_eq_true]
    exact ⟨by simp [hdigits], hall, forall_isDigit_replicate _⟩
  split
  · rename_i hpoint
    obtain ⟨n, hn⟩ : ∃ n, d.point.toNat = n + 1 := ⟨d.point.toNat - 1, by omega⟩
    have hwhole : isDigits (d.digits.take d.point.toNat) = true := by
      rw [isDigits, Bool.and_eq_true, List.all_eq_true]
      exact ⟨by simp [hdigits, hn], fun c hc => hall c (List.mem_of_mem_take hc)⟩
    exact .of_point_digits hwhole fun c hc => hall c (List.mem_of_mem_drop hc)
  split
  · have hzero : isDigits ['0'] = true := rfl
    exact .of_point_digits hzero
      (List.forall_mem_append.mpr ⟨forall_isDigit_replicate _, hall⟩)
  · rw [hdigits]
    cases rest with
    | nil =>
      exact .of_exponent hone (isExponent_exponentText _) (endsDigits_exponentText _)
    | cons e more =>
      exact .of_point hone hrest (isExponent_exponentText _) (endsDigits_exponentText _)

end Decimal

namespace Binary64

open Text

variable (x : Binary64)

theorem magnitude_magnitudeText : Magnitude x.magnitudeText := by
  unfold magnitudeText
  simp only
  split
  · exact .of_isDigits (isDigits_ofNat _)
  · exact Decimal.magnitude_text x.isDigits_shortest

variable {x}

theorem isDecimal_text (h : x.isFinite = true) : IsDecimal x.text := by
  refine ⟨x.magnitudeText, x.magnitude_magnitudeText, ?_⟩
  rw [text, isNaN_of_isFinite h, isInfinite_of_isFinite h]
  simp only [Bool.false_eq_true, if_false, Bool.false_or]
  split
  · exact .inr rfl
  · exact .inl rfl

/-- The values without a decimal text. -/
def words : List Text :=
  ["NaN".toList, "Infinity".toList, "-Infinity".toList]

theorem text_mem_words (h : x.isFinite = false) : x.text ∈ words := by
  have hexponent : x.exponent.val = 2047 := by simpa [isFinite] using h
  unfold text words
  by_cases hfraction : x.fraction.val = 0
  · have hnan : x.isNaN = false := by simp [isNaN, hfraction]
    have hinfinite : x.isInfinite = true := by simp [isInfinite, hexponent, hfraction]
    cases x.negative <;> simp [hnan, hinfinite]
  · have hnan : x.isNaN = true := by simp [isNaN, hexponent, hfraction]
    simp [hnan]

/-- The text of a number has the form of a number exactly when the number is finite. -/
theorem isNumber_text (x : Binary64) : Text.isNumber x.text = x.isFinite := by
  cases h : x.isFinite with
  | true => exact (isDecimal_text h).isNumber
  | false =>
    have hwords : words.all (fun word => !Text.isNumber word) = true := by decide
    simpa using List.all_eq_true.mp hwords _ (text_mem_words h)

/-- No number is written as a truth value is. -/
theorem isTruthWord_text (x : Binary64) : isTruthWord x.text = false := by
  cases h : x.isFinite with
  | true => exact (isDecimal_text h).isTruthWord_eq_false
  | false =>
    have hwords : words.all (fun word => !isTruthWord word) = true := by decide
    simpa using List.all_eq_true.mp hwords _ (text_mem_words h)

end Binary64

/-! ### Single values -/

namespace Scalar

variable (value : Scalar)

/-- The text of a value stands for a number when the value does. -/
theorem isNumeric_text_render : (text value.render).isNumeric = value.isNumeric := by
  cases value with
  | text t => rfl
  | number x => exact x.isNumber_text
  | integer n => exact (Text.isDecimal_ofInt n).isNumber
  | bool b => cases b <;> rfl

/-- The text of a value stands for a truth value when the value does. -/
theorem isLogical_text_render : (text value.render).isLogical = value.isLogical := by
  cases value with
  | text t => rfl
  | number x => exact x.isTruthWord_text
  | integer n => exact (Text.isDecimal_ofInt n).isTruthWord_eq_false
  | bool b => cases b <;> rfl

end Scalar

namespace OptionKey

variable (key : OptionKey) (value : Scalar)

theorem accepts_text_render :
    key.accepts (.scalar (.text value.render)) = key.accepts (.scalar value) := by
  simp only [accepts, Scalar.isNumeric_text_render, Scalar.isLogical_text_render]

theorem check_text_render :
    key.check (.scalar (.text value.render)) = key.check (.scalar value) := by
  unfold check
  rw [accepts_text_render]
  rfl

/-- It makes no difference to the key of an option whether it is given a value or the text of the
value: both pass its check or fail it with one error, and both are written in one way. -/
theorem check_write_text :
    key.check (.scalar (.text value.render)) = key.check (.scalar value) ∧
      key.write (.scalar (.text value.render)) = key.write (.scalar value) := by
  refine ⟨key.check_text_render value, ?_⟩
  rw [write_of_ne_null (by simp), write_of_ne_null (by simp), check_text_render]
  rfl

/-- Infinity is no number of replicas, and neither is the word for it. -/
example : (ReplicationOption.replicationFactor.check
    (.scalar (.number (Binary64.infinity true)))) =
      .error (.invalidSpecification (.valueOfWrongType "replication_factor".toList .number)) ∧
    (Binary64.infinity true).text = "-Infinity".toList :=
  ⟨rfl, rfl⟩

end OptionKey

end CqlDdl
