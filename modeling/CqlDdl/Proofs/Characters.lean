import CqlDdl.DataType
import CqlDdl.Options.Value
import CqlDdl.Proofs.Comments

/-! Which characters texts are made of: bare names, numbers and the words for truth values hold
neither a mark nor a semicolon, and no two hyphens in a row; numbers and words hold no blank and no
comma either, and are not empty. -/

namespace CqlDdl

namespace Text

/-- A class of characters that holds no mark, no semicolon and no hyphen is steady. -/
theorem isSteady_of_class {p : Char → Bool} (ha : p apostrophe = false) (hq : p quotation = false)
    (hs : p ';' = false) (hh : p '-' = false) {c : Char} (hc : p c = true) : isSteady c = true := by
  have hne : ∀ {d : Char}, p d = false → c ≠ d := by
    rintro d hd rfl
    simp [hc] at hd
  simp [isSteady, isPlain, Region.isMark, hne ha, hne hq, hne hs, hne hh]

theorem isSteady_of_isNamePart {c : Char} (h : isNamePart c = true) : isSteady c = true :=
  isSteady_of_class (by decide) (by decide) (by decide) (by decide) h

theorem isNamePart_of_isBareShape {text : Text} (h : isBareShape text = true) :
    ∀ c ∈ text, isNamePart c = true := by
  cases text with
  | nil => simp [isBareShape] at h
  | cons c rest =>
    simp only [isBareShape, Bool.and_eq_true, List.all_eq_true] at h
    intro d hd
    rcases List.mem_cons.mp hd with rfl | hd
    · exact isNamePart_of_isNameStart h.1
    · exact h.2 d hd

theorem isNamePart_or_eq_quotation_of_isQuotedRest {text : Text} (h : isQuotedRest text = true) :
    ∀ c ∈ text, isNamePart c = true ∨ c = quotation := by
  fun_induction isQuotedRest text with
  | case1 => simp
  | case2 rest ih => exact List.forall_mem_cons.mpr ⟨.inr rfl, List.forall_mem_cons.mpr
      ⟨.inr rfl, ih h⟩⟩
  | case3 c rest _ ih =>
    simp only [Bool.and_eq_true] at h
    exact List.forall_mem_cons.mpr ⟨.inl h.1, ih h.2⟩

theorem isNamePart_or_eq_quotation_of_isQuotedShape {text : Text} (h : isQuotedShape text = true) :
    ∀ c ∈ text, isNamePart c = true ∨ c = quotation := by
  cases text with
  | nil => simp [isQuotedShape] at h
  | cons c rest =>
    simp only [isQuotedShape, Bool.and_eq_true] at h
    exact List.forall_mem_cons.mpr ⟨.inl (isNamePart_of_isNameStart h.1),
      isNamePart_or_eq_quotation_of_isQuotedRest h.2⟩

/-! ### Decimal numbers -/

/-- The characters of numbers and of words: ASCII letters and digits, the point and the plus sign.
The hyphen is apart, since two of them start a comment. -/
def isFigure (c : Char) : Bool :=
  c.isAlphanum || c == '.' || c == '+'

theorem isSteady_of_isFigure {c : Char} (h : isFigure c = true) : isSteady c = true :=
  isSteady_of_class (by decide) (by decide) (by decide) (by decide) h

theorem isFigure_of_isDigit {c : Char} (h : c.isDigit = true) : isFigure c = true := by
  simp [isFigure, Char.isAlphanum, h]

theorem isFigure_of_toLower {c : Char} (h : isFigure c.toLower = true) : isFigure c = true := by
  by_cases hupper : c.isUpper = true
  · have halpha : c.isAlpha = (c.isUpper || c.isLower) := rfl
    simp [isFigure, Char.isAlphanum, halpha, hupper]
  · have hsame : c.toLower = c := dif_neg fun hrange => hupper (decide_eq_true hrange)
    rwa [hsame] at h

/-- A text of figures in which one of them comes after each hyphen. -/
inductive Spaced : Text → Prop
  | nil : Spaced []
  | cons {c : Char} {text : Text} : isFigure c = true → Spaced text → Spaced (c :: text)
  | hyphen {c : Char} {text : Text} :
    isFigure c = true → Spaced text → Spaced ('-' :: c :: text)

/-- A spaced text that a hyphen may stand before: one that starts with a figure. -/
def Unsigned (text : Text) : Prop :=
  ∃ c rest, text = c :: rest ∧ isFigure c = true ∧ Spaced rest

theorem Spaced.append {s t : Text} (hs : Spaced s) (ht : Spaced t) : Spaced (s ++ t) := by
  induction hs with
  | nil => exact ht
  | cons hc _ ih => exact .cons hc ih
  | hyphen hc _ ih => exact .hyphen hc ih

theorem Spaced.of_forall {text : Text} (h : ∀ c ∈ text, isFigure c = true) : Spaced text := by
  induction text with
  | nil => exact .nil
  | cons c rest ih => exact .cons (h c (by simp)) (ih fun d hd => h d (by simp [hd]))

theorem Spaced.word {text : Text} (h : text.all isFigure = true) : Spaced text :=
  of_forall (List.all_eq_true.mp h)

/-- Without marks, a spaced text is neutral as it stands. -/
theorem Spaced.neutral {text : Text} (h : Spaced text) : Neutral text := by
  induction h with
  | nil => exact .nil
  | cons hc _ ih => exact .cons (isSteady_of_isFigure hc) ih
  | hyphen hc _ ih => exact .hyphen (isSteady_of_isFigure hc) ih

theorem Spaced.isFigure_or_eq_hyphen {text : Text} (h : Spaced text) :
    ∀ c ∈ text, isFigure c = true ∨ c = '-' := by
  induction h with
  | nil => simp
  | cons hc _ ih => exact List.forall_mem_cons.mpr ⟨.inl hc, ih⟩
  | hyphen hc _ ih =>
    exact List.forall_mem_cons.mpr ⟨.inr rfl, List.forall_mem_cons.mpr ⟨.inl hc, ih⟩⟩

/-- No character but a figure or a hyphen is in a spaced text. -/
theorem Spaced.not_mem {text : Text} (h : Spaced text) {c : Char} (hfigure : isFigure c = false)
    (hhyphen : c ≠ '-') : c ∉ text := fun hc =>
  (h.isFigure_or_eq_hyphen c hc).elim (fun hfig => by simp [hfigure] at hfig) hhyphen

theorem Spaced.apostrophe_not_mem {text : Text} (h : Spaced text) : apostrophe ∉ text :=
  h.not_mem (by decide) (by decide)

namespace Unsigned

theorem ne_nil {text : Text} (h : Unsigned text) : text ≠ [] := by
  obtain ⟨c, rest, rfl, -⟩ := h
  exact List.cons_ne_nil c rest

theorem spaced {text : Text} (h : Unsigned text) : Spaced text := by
  obtain ⟨c, rest, rfl, hc, hrest⟩ := h
  exact .cons hc hrest

theorem negative {text : Text} (h : Unsigned text) : Spaced ('-' :: text) := by
  obtain ⟨c, rest, rfl, hc, hrest⟩ := h
  exact .hyphen hc hrest

theorem append {s t : Text} (hs : Unsigned s) (ht : Spaced t) : Unsigned (s ++ t) := by
  obtain ⟨c, rest, rfl, hc, hrest⟩ := hs
  exact ⟨c, rest ++ t, rfl, hc, hrest.append ht⟩

theorem of_isDigits {text : Text} (h : isDigits text = true) : Unsigned text := by
  cases text with
  | nil => simp [isDigits] at h
  | cons c rest =>
    simp only [isDigits, List.all_cons, Bool.and_eq_true, List.all_eq_true] at h
    exact ⟨c, rest, rfl, isFigure_of_isDigit h.2.1,
      .of_forall fun d hd => isFigure_of_isDigit (h.2.2 d hd)⟩

end Unsigned

theorem Spaced.of_unsigned {text : Text} (h : Unsigned (unsigned text)) : Spaced text := by
  unfold unsigned at h
  split at h
  · exact .cons (by decide) h.spaced
  · exact h.negative
  · exact h.spaced

theorem Spaced.of_dropWhile {text : Text} (h : Spaced (text.dropWhile Char.isDigit)) :
    Spaced text := by
  rw [← List.takeWhile_append_dropWhile (p := Char.isDigit) (l := text)]
  exact .append (.of_forall fun c hc => isFigure_of_isDigit
    (List.all_eq_true.mp List.all_takeWhile c hc)) h

theorem spaced_of_isExponent {text : Text} (h : isExponent text = true) : Spaced text := by
  cases text with
  | nil => exact .nil
  | cons c rest =>
    simp only [isExponent, Bool.and_eq_true, Bool.or_eq_true, beq_iff_eq] at h
    have hrest : Spaced rest := .of_unsigned (.of_isDigits h.2)
    rcases h.1 with rfl | rfl
    · exact .cons (by decide) hrest
    · exact .cons (by decide) hrest

theorem spaced_of_isFraction {whole : Bool} {text : Text} (h : isFraction whole text = true) :
    Spaced text := by
  unfold isFraction at h
  split at h
  · simp only [Bool.and_eq_true] at h
    exact .cons (by decide) (.of_dropWhile (spaced_of_isExponent h.2))
  · simp only [Bool.and_eq_true] at h
    exact spaced_of_isExponent h.2

/-- Where no digits stand before it, a fraction starts with its point. -/
theorem unsigned_of_isFraction {text : Text} (h : isFraction false text = true) :
    Unsigned text := by
  have hspaced := spaced_of_isFraction h
  unfold isFraction at h
  split at h
  · simp only [Bool.and_eq_true] at h
    exact ⟨'.', _, rfl, by decide, .of_dropWhile (spaced_of_isExponent h.2)⟩
  · simp at h

theorem spaced_of_isNumber {text : Text} (h : isNumber text = true) : Spaced text := by
  refine .of_unsigned ?_
  unfold isNumber at h
  simp only at h
  -- the first character after a sign is a digit or the point, so a hyphen may stand before it
  have hparts := List.takeWhile_append_dropWhile (p := Char.isDigit) (l := unsigned text)
  cases hdigits : (unsigned text).takeWhile Char.isDigit with
  | nil =>
    rw [hdigits] at h hparts
    rw [← hparts]
    exact unsigned_of_isFraction h
  | cons c digits =>
    have hall : isDigits ((unsigned text).takeWhile Char.isDigit) = true := by
      simp only [isDigits, List.all_takeWhile, Bool.and_true]
      simp [hdigits]
    rw [← hparts]
    exact (Unsigned.of_isDigits hall).append (spaced_of_isFraction h)

theorem isDigits_ofNat (n : Nat) : isDigits (ofNat n) = true := by
  simp only [isDigits, Bool.and_eq_true, List.all_eq_true, Bool.not_eq_true',
    List.isEmpty_eq_false_iff]
  exact ⟨Nat.toDigits_ne_nil, fun _ hc => Nat.isDigit_of_mem_toDigits (by decide) (by decide) hc⟩

theorem unsigned_ofNat (n : Nat) : Unsigned (ofNat n) :=
  .of_isDigits (isDigits_ofNat n)

theorem spaced_ofInt (n : Int) : Spaced (ofInt n) := by
  unfold ofInt
  split
  · exact (unsigned_ofNat _).negative
  · exact (unsigned_ofNat _).spaced

theorem spaced_replicate_zero (n : Nat) : Spaced (List.replicate n '0') :=
  .of_forall fun c hc => by
    rw [(List.mem_replicate.mp hc).2]
    decide

end Text

namespace Decimal

open Text

theorem unsigned_mantissa {digits : Text} (h : isDigits digits = true) :
    Unsigned (mantissa digits) := by
  have hdigits := Unsigned.of_isDigits h
  unfold mantissa
  split
  · exact hdigits
  · exact hdigits
  · obtain ⟨c, rest, heq, hc, hrest⟩ := hdigits
    obtain ⟨rfl, rfl⟩ := List.cons.inj heq
    exact ⟨_, _, rfl, hc, .cons (by decide) hrest⟩

theorem spaced_exponentText (e : Int) : Spaced (exponentText e) := by
  unfold exponentText
  refine .cons (by decide) ?_
  split
  · exact (unsigned_ofNat _).negative
  · exact .cons (by decide) (unsigned_ofNat _).spaced

theorem unsigned_text {d : Decimal} (h : isDigits d.digits = true) : Unsigned d.text := by
  have hdigits := Unsigned.of_isDigits h
  have hfigure : ∀ c ∈ d.digits, isFigure c = true := by
    simp only [isDigits, Bool.and_eq_true, List.all_eq_true] at h
    exact fun c hc => isFigure_of_isDigit (h.2 c hc)
  unfold text
  simp only
  split
  · exact hdigits.append (spaced_replicate_zero _)
  split
  · rename_i hpoint
    obtain ⟨c, rest, hcons, hc, hrest⟩ := hdigits
    obtain ⟨n, hn⟩ : ∃ n, d.point.toNat = n + 1 := ⟨d.point.toNat - 1, by omega⟩
    rw [hcons] at hfigure
    rw [hcons, hn]
    exact ⟨c, rest.take n ++ '.' :: rest.drop n, rfl, hc,
      .append (.of_forall fun c hc => hfigure c (List.mem_cons_of_mem _ (List.mem_of_mem_take hc)))
        (.cons (by decide) (.of_forall fun c hc =>
          hfigure c (List.mem_cons_of_mem _ (List.mem_of_mem_drop hc))))⟩
  split
  · exact ⟨'0', _, rfl, by decide, .cons (by decide) (.append (spaced_replicate_zero _)
      hdigits.spaced)⟩
  · exact (unsigned_mantissa h).append (spaced_exponentText _)

theorem isDigits_ofScaled (n : Nat) (place : Int) : isDigits (ofScaled n place).digits = true := by
  have h := isDigits_ofNat n
  simp only [isDigits, Bool.and_eq_true, List.all_eq_true] at h
  cases hdigits : Text.ofNat n with
  | nil => simp [hdigits] at h
  | cons d rest =>
    simp only [hdigits, List.mem_cons, forall_eq_or_imp] at h
    simp only [ofScaled, hdigits, isDigits, List.headD_cons, List.tail_cons, List.isEmpty_cons,
      Bool.not_false, Bool.true_and, List.all_cons, Bool.and_eq_true, List.all_eq_true]
    refine ⟨h.2.1, fun c hc => h.2.2 c ?_⟩
    rw [List.mem_reverse] at hc
    exact List.mem_reverse.mp ((List.dropWhile_sublist _).mem hc)

end Decimal

namespace Binary64

open Text

theorem isDigits_shortest (x : Binary64) : isDigits x.shortest.digits = true := by
  unfold shortest
  simp only
  cases h : (List.range mostDigits).findSome? fun (n : Nat) =>
      (x.onGrid (x.firstPlace - n)).map (Decimal.ofScaled · (x.firstPlace - n)) with
  | none => exact Decimal.isDigits_ofScaled _ _
  | some d =>
    obtain ⟨n, -, hn⟩ := List.exists_of_findSome?_eq_some h
    obtain ⟨m, -, rfl⟩ := Option.map_eq_some_iff.mp hn
    exact Decimal.isDigits_ofScaled _ _

theorem unsigned_shortest (x : Binary64) : Unsigned x.shortest.text :=
  Decimal.unsigned_text x.isDigits_shortest

theorem unsigned_magnitudeText (x : Binary64) : Unsigned x.magnitudeText := by
  unfold magnitudeText
  simp only
  split
  · exact unsigned_ofNat _
  · exact unsigned_shortest x

/-- The text of a number is one of the words `NaN` and `Infinity` or a decimal, with or without a
minus sign. -/
theorem exists_unsigned_text (x : Binary64) :
    ∃ magnitude, Unsigned magnitude ∧ (x.text = magnitude ∨ x.text = '-' :: magnitude) := by
  have hmagnitude : Unsigned (if x.isInfinite then "Infinity".toList else x.magnitudeText) := by
    split
    · exact ⟨'I', _, rfl, by decide, .word (by decide)⟩
    · exact unsigned_magnitudeText x
  unfold text
  split
  · exact ⟨_, ⟨'N', _, rfl, by decide, .word (by decide)⟩, .inl rfl⟩
  · simp only
    split
    · exact ⟨_, hmagnitude, .inr rfl⟩
    · exact ⟨_, hmagnitude, .inl rfl⟩

theorem spaced_text (x : Binary64) : Spaced x.text := by
  obtain ⟨magnitude, hmagnitude, htext | htext⟩ := x.exists_unsigned_text
  · exact htext ▸ hmagnitude.spaced
  · exact htext ▸ hmagnitude.negative

theorem text_ne_nil (x : Binary64) : x.text ≠ [] := by
  obtain ⟨magnitude, hmagnitude, htext | htext⟩ := x.exists_unsigned_text
  · exact htext ▸ hmagnitude.ne_nil
  · exact htext ▸ List.cons_ne_nil '-' magnitude

end Binary64

namespace Scalar

open Text

theorem spaced_ofBool (b : Bool) : Spaced (ofBool b) :=
  .word (by cases b <;> decide)

theorem spaced_of_isNumeric {value : Scalar} (h : value.isNumeric = true) :
    Spaced value.render := by
  cases value with
  | text t => exact spaced_of_isNumber h
  | number x => exact Binary64.spaced_text x
  | integer n => exact spaced_ofInt n
  | bool b => exact spaced_ofBool b

theorem spaced_of_isTruthWord {t : Text} (h : isTruthWord t = true) : Spaced t := by
  have hletters : (lowered t).all isFigure = true := by
    simp only [isTruthWord, Bool.or_eq_true, beq_iff_eq] at h
    rcases h with h | h <;> rw [h] <;> decide
  refine .of_forall fun c hc => isFigure_of_toLower ?_
  exact List.all_eq_true.mp hletters _ (List.mem_map_of_mem hc)

theorem ne_nil_of_isTruthWord {t : Text} (h : isTruthWord t = true) : t ≠ [] := by
  rintro rfl
  exact absurd h (by decide)

theorem spaced_of_isLogical {value : Scalar} (h : value.isLogical = true) :
    Spaced value.render := by
  cases value with
  | text t => exact spaced_of_isTruthWord h
  | number x => exact Binary64.spaced_text x
  | integer n => exact spaced_ofInt n
  | bool b => exact spaced_ofBool b

theorem render_ne_nil_of_isNumeric {value : Scalar} (h : value.isNumeric = true) :
    value.render ≠ [] := by
  cases value with
  | text t =>
    rintro rfl
    exact absurd h (by decide)
  | number x => exact x.text_ne_nil
  | integer n =>
    change ofInt n ≠ []
    unfold ofInt
    split
    · exact List.cons_ne_nil _ _
    · exact (unsigned_ofNat _).ne_nil
  | bool b => simp [isNumeric] at h

theorem render_ne_nil_of_isLogical {value : Scalar} (h : value.isLogical = true) :
    value.render ≠ [] := by
  cases value with
  | text t => exact ne_nil_of_isTruthWord h
  | number x => simp [isLogical] at h
  | integer n => simp [isLogical] at h
  | bool b => cases b <;> decide

end Scalar

end CqlDdl
