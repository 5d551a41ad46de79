import CqlDdl.Options.Catalogue
import CqlDdl.Options.Value
import CqlDdl.Proofs.Separation

/-! Reading string literals. A reader takes the literal that a text starts with, and gives its
content and what follows it; it accepts exactly what is written as a literal. A value that is
written between apostrophes reads back as its own text only if the apostrophes in it are doubled, or
if it has none. Main statement: `OptionKey.writesLiteral_iff`. -/

namespace CqlDdl

namespace Text

/-- What stands in a string literal, after the apostrophe that opens it, and what follows the one
that closes it. Two apostrophes in a row stand for one. -/
def literalBody? : Text → Option (Text × Text)
  | [] => none
  | [c] => if c = apostrophe then some ([], []) else none
  | c :: d :: rest =>
    if c = apostrophe then
      if d = apostrophe then (literalBody? rest).map (Prod.map (apostrophe :: ·) id)
      else some ([], d :: rest)
    else (literalBody? (d :: rest)).map (Prod.map (c :: ·) id)

/-- The content of the string literal that a text starts with, and what follows the literal. -/
def literal? : Text → Option (Text × Text)
  | [] => none
  | c :: rest => if c = apostrophe then literalBody? rest else none

theorem literalBody?_cons_of_ne {c : Char} (h : c ≠ apostrophe) (rest : Text) :
    literalBody? (c :: rest) = (literalBody? rest).map (Prod.map (c :: ·) id) := by
  cases rest with
  | nil => simp [literalBody?, h]
  | cons d rest => simp [literalBody?, h]

theorem literalBody?_pair (rest : Text) :
    literalBody? (apostrophe :: apostrophe :: rest) =
      (literalBody? rest).map (Prod.map (apostrophe :: ·) id) := by
  simp [literalBody?]

theorem literalBody?_close {rest : Text} (h : EndsLiteral rest) :
    literalBody? (apostrophe :: rest) = some ([], rest) := by
  cases rest with
  | nil => simp [literalBody?]
  | cons d rest =>
    have hd : d ≠ apostrophe := fun heq => h (congrArg some heq)
    simp [literalBody?, hd]

theorem literalBody?_doubled (content : Text) {rest : Text} (h : EndsLiteral rest) :
    literalBody? (doubled apostrophe content ++ apostrophe :: rest) = some (content, rest) := by
  induction content with
  | nil => exact literalBody?_close h
  | cons c content ih =>
    by_cases hc : c = apostrophe
    · subst hc
      simp [doubled, literalBody?_pair, ih]
    · simp [doubled, hc, literalBody?_cons_of_ne hc, ih]

theorem eq_of_literalBody? {text content rest : Text}
    (h : literalBody? text = some (content, rest)) :
    text = doubled apostrophe content ++ apostrophe :: rest ∧ EndsLiteral rest := by
  fun_induction literalBody? text generalizing content with
  | case1 => simp at h
  | case2 =>
    obtain ⟨rfl, rfl⟩ := Prod.mk.inj (Option.some.inj h)
    exact ⟨rfl, by simp [EndsLiteral]⟩
  | case3 => simp at h
  | case4 more ih =>
    obtain ⟨⟨inner, after⟩, hinner, heq⟩ := Option.map_eq_some_iff.mp h
    obtain ⟨rfl, rfl⟩ := Prod.mk.inj heq
    obtain ⟨rfl, hends⟩ := ih hinner
    exact ⟨by simp [doubled], hends⟩
  | case5 d more hd =>
    obtain ⟨rfl, rfl⟩ := Prod.mk.inj (Option.some.inj h)
    exact ⟨rfl, endsLiteral_cons more hd⟩
  | case6 c d more hc ih =>
    obtain ⟨⟨inner, after⟩, hinner, heq⟩ := Option.map_eq_some_iff.mp h
    obtain ⟨rfl, rfl⟩ := Prod.mk.inj heq
    obtain ⟨hmore, hends⟩ := ih hinner
    exact ⟨by simp [doubled, hc, hmore], hends⟩

/-- A text starts with a literal exactly when it is one, written with its content, and then a text
that does not go on with it. -/
theorem literal?_eq_some_iff {text content rest : Text} :
    literal? text = some (content, rest) ↔ text = literal content ++ rest ∧ EndsLiteral rest := by
  constructor
  · intro h
    cases text with
    | nil => simp [literal?] at h
    | cons c more =>
      by_cases hc : c = apostrophe
      · rw [literal?, if_pos hc] at h
        obtain ⟨rfl, hends⟩ := eq_of_literalBody? h
        exact ⟨by simp [hc, literal, enclosed], hends⟩
      · simp [literal?, hc] at h
  · rintro ⟨rfl, hends⟩
    have hbody : literal content ++ rest =
        apostrophe :: (doubled apostrophe content ++ apostrophe :: rest) := by
      simp [literal, enclosed]
    rw [hbody, literal?, if_pos rfl, literalBody?_doubled content hends]

theorem length_doubled (mark : Char) (text : Text) :
    (doubled mark text).length = text.length + text.count mark := by
  induction text with
  | nil => rfl
  | cons c rest ih =>
    by_cases hc : c = mark
    · rw [doubled, if_pos hc, hc, List.count_cons_self]
      simp only [List.length_cons, ih]
      omega
    · rw [doubled, if_neg hc, List.count_cons_of_ne hc]
      simp only [List.length_cons, ih]
      omega

/-- Only a text without the mark is the same with its marks doubled. -/
theorem doubled_eq_self_iff {mark : Char} {text : Text} :
    doubled mark text = text ↔ mark ∉ text := by
  refine ⟨fun h => ?_, doubled_of_not_mem⟩
  have hlength := length_doubled mark text
  rw [h] at hlength
  exact List.count_eq_zero.mp (by omega)

end Text

namespace OptionKey

variable {key : OptionKey} {value : Scalar}

/-- A value is written as one string literal, whose content is the text of the value. -/
def WritesLiteral (key : OptionKey) (value : Scalar) : Prop :=
  ∃ text, key.write (.scalar value) = .ok text ∧ Text.literal? text = some (value.render, [])

theorem mark_eq_literal_iff (hquotes : key.quotesValue = true) {text : Text} :
    key.mark text = Text.literal text ↔
      key.escapesValue = true ∨ Text.apostrophe ∉ text := by
  refine ⟨fun h => ?_, mark_eq_literal hquotes⟩
  by_cases hescapes : key.escapesValue = true
  · exact .inl hescapes
  · refine .inr (Text.doubled_eq_self_iff.mp ?_)
    rw [mark, if_neg hescapes, if_pos hquotes] at h
    simpa [Text.literal, Text.enclosed] using h.symm

theorem writesLiteral_iff_mark (hcheck : key.check (.scalar value) = .ok ()) :
    key.WritesLiteral value ↔ key.mark value.render = Text.literal value.render := by
  have hwrite : key.write (.scalar value) = .ok (key.mark value.render) := by
    rw [write_of_ne_null (by simp), hcheck]
    rfl
  simp only [WritesLiteral, hwrite, Except.ok.injEq, exists_eq_left', Text.literal?_eq_some_iff,
    List.append_nil]
  exact and_iff_left (by simp [Text.EndsLiteral])

theorem check_of_string (hstring : key.type = .string) (value : Scalar) :
    key.check (.scalar value) = .ok () :=
  (check_of_isGiven rfl).mpr (by simp [takesValue, accepts, hstring])

/-- A value that is written between apostrophes reads back as one literal of its own text exactly
when the key doubles the apostrophes in it, or when there are none. Comments, speculative retries
and read repairs may therefore hold any text. -/
theorem writesLiteral_iff :
    (∀ (key : OptionKey) (value : Scalar), key.quotesValue = true →
      key.check (.scalar value) = .ok () →
        (key.WritesLiteral value ↔
          key.escapesValue = true ∨ Text.apostrophe ∉ value.render)) ∧
    ∀ key ∈ [TableOption.comment, TableOption.speculativeRetry, TableOption.readRepair],
      ∀ value : Scalar, key.check (.scalar value) = .ok () ∧ key.WritesLiteral value := by
  have hiff : ∀ (key : OptionKey) (value : Scalar), key.quotesValue = true →
      key.check (.scalar value) = .ok () →
        (key.WritesLiteral value ↔
          key.escapesValue = true ∨ Text.apostrophe ∉ value.render) := by
    intro key value hquotes hcheck
    rw [writesLiteral_iff_mark hcheck, mark_eq_literal_iff hquotes]
  have hstring : ∀ key : OptionKey, key.type = .string → key.quotesValue = true →
      key.escapesValue = true → ∀ value : Scalar,
        key.check (.scalar value) = .ok () ∧ key.WritesLiteral value := by
    intro key htype hquotes hescapes value
    have hcheck := check_of_string htype value
    exact ⟨hcheck, (hiff key value hquotes hcheck).mpr (.inl hescapes)⟩
  refine ⟨hiff, ?_⟩
  simp only [List.forall_mem_cons]
  exact ⟨hstring _ rfl rfl rfl, hstring _ rfl rfl rfl, hstring _ rfl rfl rfl, by simp⟩

/-- Where the key does not double them, two apostrophes in a row still make one literal, but its
content is another text. -/
theorem not_writesLiteral_pair :
    let key := CachingOption.keys
    let value := Scalar.text "it''s".toList
    key.quotesValue = true ∧ key.check (.scalar value) = .ok () ∧
      key.write (.scalar value) = .ok "'it''s'".toList ∧
      Text.literal? "'it''s'".toList = some ("it's".toList, []) ∧ ¬ key.WritesLiteral value := by
  intro key value
  have hquotes : key.quotesValue = true := rfl
  have hcheck : key.check (.scalar value) = .ok () := rfl
  refine ⟨hquotes, hcheck, rfl, by decide, fun h => ?_⟩
  have hmark := (writesLiteral_iff.1 key value hquotes hcheck).mp h
  exact absurd hmark (by decide)

end OptionKey

end CqlDdl
