import CqlDdl.Text

/-! Patterns in which a star stands for any characters. `fits` decides whether a pattern fits a text
in one pass over the text for each character of the pattern, whatever stars there are; `fits_iff`
says that this is what a star means. -/

namespace CqlDdl.Pattern

/-- A pattern fits a text when the text is made of its characters in order, with any characters in
the place of each star. -/
inductive Fits : Text → Text → Prop
  | nil : Fits [] []
  | star (skipped : Text) {pattern text : Text} :
      Fits pattern text → Fits ('*' :: pattern) (skipped ++ text)
  | char {c : Char} {pattern text : Text} :
      c ≠ '*' → Fits pattern text → Fits (c :: pattern) (c :: text)

/-- For each place, whether a flag is set there or at a later one. -/
def orLater : List Bool → List Bool
  | [] => []
  | flag :: rest =>
    let later := orLater rest
    (flag || later.headD false) :: later

/-- For each place in a text, from its start to its end, whether a pattern fits all that stands from
there on. -/
def fitsFrom : Text → Text → List Bool
  | [], text => text.map (fun _ => false) ++ [true]
  | p :: pattern, text =>
    let flags := fitsFrom pattern text
    if p = '*' then orLater flags
    else List.zipWith (fun c flag => c == p && flag) text flags.tail ++ [false]

/-- Whether a pattern fits a text. -/
def fits (pattern text : Text) : Bool :=
  (fitsFrom pattern text).headD false

theorem length_orLater (flags : List Bool) : (orLater flags).length = flags.length := by
  induction flags with
  | nil => rfl
  | cons flag rest ih => simp [orLater, ih]

theorem length_fitsFrom (pattern text : Text) :
    (fitsFrom pattern text).length = text.length + 1 := by
  induction pattern with
  | nil => simp [fitsFrom]
  | cons p pattern ih =>
    by_cases h : p = '*'
    · simp [fitsFrom, h, length_orLater, ih]
    · simp [fitsFrom, h, ih]

/-- From the second place on, a text is fitted like the rest of it. -/
theorem fitsFrom_cons (pattern : Text) (c : Char) (text : Text) :
    fitsFrom pattern (c :: text) = fits pattern (c :: text) :: fitsFrom pattern text := by
  suffices h : (fitsFrom pattern (c :: text)).tail = fitsFrom pattern text by
    have hl := length_fitsFrom pattern (c :: text)
    unfold fits
    cases hf : fitsFrom pattern (c :: text) with
    | nil => simp [hf] at hl
    | cons flag rest => simpa [hf] using h
  induction pattern generalizing c text with
  | nil => simp [fitsFrom]
  | cons p pattern ih =>
    have hl := length_fitsFrom pattern (c :: text)
    cases hf : fitsFrom pattern (c :: text) with
    | nil => simp [hf] at hl
    | cons flag rest =>
      have hr : rest = fitsFrom pattern text := by simpa [hf] using ih c text
      by_cases h : p = '*'
      · simp [fitsFrom, h, hf, hr, orLater]
      · cases text with
        | nil =>
          have := length_fitsFrom pattern []
          cases hn : fitsFrom pattern [] with
          | nil => simp [hn] at this
          | cons flag rest' => simp [fitsFrom, h, hf, hr, hn]
        | cons d text =>
          have := ih d text
          cases hn : fitsFrom pattern (d :: text) with
          | nil => simpa [hn] using length_fitsFrom pattern (d :: text)
          | cons flag rest' => simp [fitsFrom, h, hf, hr, hn]

@[simp] theorem fits_nil (text : Text) : fits [] text = text.isEmpty := by
  cases text <;> simp [fits, fitsFrom]

@[simp] theorem fits_star_nil (pattern : Text) : fits ('*' :: pattern) [] = fits pattern [] := by
  have := length_fitsFrom pattern []
  unfold fits
  cases hn : fitsFrom pattern [] with
  | nil => simp [hn] at this
  | cons flag rest =>
    cases rest with
    | nil => simp [fitsFrom, hn, orLater]
    | cons _ _ => simp [hn] at this

@[simp] theorem fits_star_cons (pattern : Text) (c : Char) (text : Text) :
    fits ('*' :: pattern) (c :: text) =
      (fits pattern (c :: text) || fits ('*' :: pattern) text) := by
  have h : fitsFrom ('*' :: pattern) (c :: text) = orLater (fitsFrom pattern (c :: text)) := by
    simp [fitsFrom]
  rw [fits, h, fitsFrom_cons]
  simp [fits, fitsFrom, orLater]

theorem fits_char_nil {p : Char} (h : p ≠ '*') (pattern : Text) :
    fits (p :: pattern) [] = false := by
  simp [fits, fitsFrom, h]

theorem fits_char_cons {p : Char} (h : p ≠ '*') (pattern : Text) (c : Char) (text : Text) :
    fits (p :: pattern) (c :: text) = (c == p && fits pattern text) := by
  have hf : fitsFrom (p :: pattern) (c :: text) =
      List.zipWith (fun c flag => c == p && flag) (c :: text) (fitsFrom pattern (c :: text)).tail ++
        [false] := by simp [fitsFrom, h]
  have := length_fitsFrom pattern text
  rw [fits, hf, fitsFrom_cons]
  cases hn : fitsFrom pattern text with
  | nil => simp [hn] at this
  | cons flag rest => simp [hn, fits.eq_def pattern text]

/-- A star fits all that the rest of the pattern fits a suffix of. -/
theorem fits_star_append {pattern text : Text} (h : fits pattern text = true) (skipped : Text) :
    fits ('*' :: pattern) (skipped ++ text) = true := by
  induction skipped with
  | nil => cases text <;> simp [h]
  | cons c skipped ih => simp [ih]

/-- The decision is what fitting means. -/
theorem fits_iff (pattern text : Text) : fits pattern text = true ↔ Fits pattern text := by
  constructor
  · intro h
    induction pattern generalizing text with
    | nil => cases text with
      | nil => exact .nil
      | cons c text => simp at h
    | cons p pattern ih =>
      by_cases hp : p = '*'
      · subst hp
        induction text with
        | nil => exact .star [] (ih [] (by simpa using h))
        | cons c text iht =>
          simp only [fits_star_cons, Bool.or_eq_true] at h
          rcases h with h | h
          · exact .star [] (ih _ h)
          · generalize hq : '*' :: pattern = q at iht h ⊢
            cases iht h with
            | nil => simp at hq
            | char hne _ => simp only [List.cons.injEq] at hq; exact absurd hq.1.symm hne
            | star skipped hfits => exact .star (c :: skipped) hfits
      · cases text with
        | nil => simp [fits_char_nil hp] at h
        | cons c text =>
          simp only [fits_char_cons hp, Bool.and_eq_true, beq_iff_eq] at h
          rw [h.1]
          exact .char hp (ih text h.2)
  · intro h
    induction h with
    | nil => rfl
    | star skipped _ ih => exact fits_star_append ih skipped
    | char hne _ ih => simp [fits_char_cons hne, ih]

end CqlDdl.Pattern
