import CqlDdl.Identifier.Reading
import CqlDdl.Proofs.Characters

/-! Identifiers and their written forms. An identifier is read back from its written form; a text
that can be read is written again as it was, or as the quoted form of the name that it is; and a
text that cannot be read is what the failure tells. Main statement:
`Identifier.ofWritten_inverts_render`. -/

namespace CqlDdl

namespace Text

/-- A text has a quotation mark of its own at each end. -/
def IsWrapped (text : Text) : Prop :=
  ∃ inner, text = enclosed quotation inner

theorem undoubled_cons_of_ne {mark c : Char} (h : c ≠ mark) (rest : Text) :
    undoubled mark (c :: rest) = c :: undoubled mark rest := by
  cases rest with
  | nil => rfl
  | cons d rest => simp [undoubled, h]

/-- Where quotation marks stand in pairs only, writing them twice undoes reading them once. -/
theorem doubled_undoubled_of_isQuotedRest {text : Text} (h : isQuotedRest text = true) :
    doubled quotation (undoubled quotation text) = text := by
  fun_induction isQuotedRest text with
  | case1 => rfl
  | case2 rest ih =>
    have hrest := ih h
    simp only [quotation] at hrest
    simp [undoubled, doubled, quotation, hrest]
  | case3 c rest _ ih =>
    simp only [Bool.and_eq_true] at h
    have hc := isNamePart_ne_quotation h.1
    rw [undoubled_cons_of_ne hc, doubled, if_neg hc, ih h.2]

theorem doubled_undoubled_of_isQuotedShape {text : Text} (h : isQuotedShape text = true) :
    doubled quotation (undoubled quotation text) = text := by
  cases text with
  | nil => simp [isQuotedShape] at h
  | cons c rest =>
    simp only [isQuotedShape, Bool.and_eq_true] at h
    have hc := isNamePart_ne_quotation (isNamePart_of_isNameStart h.1)
    rw [undoubled_cons_of_ne hc, doubled, if_neg hc, doubled_undoubled_of_isQuotedRest h.2]

/-- A name that can stand between quotation marks, and has none in it, has the shape of a bare
one. -/
theorem isBareShape_of_isQuotedShape {text : Text} (h : isQuotedShape text = true)
    (hmark : quotation ∉ text) : isBareShape text = true := by
  have hparts : ∀ c ∈ text, isNamePart c = true := fun c hc =>
    (isNamePart_or_eq_quotation_of_isQuotedShape h c hc).resolve_right fun e => hmark (e ▸ hc)
  cases text with
  | nil => simp [isQuotedShape] at h
  | cons c rest =>
    simp only [isQuotedShape, Bool.and_eq_true] at h
    simp only [isBareShape, Bool.and_eq_true, List.all_eq_true]
    exact ⟨h.1, (List.forall_mem_cons.mp hparts).2⟩

theorem isQuotedRest_cons_of_ne {c : Char} (h : c ≠ quotation) (rest : Text) :
    isQuotedRest (c :: rest) = (isNamePart c && isQuotedRest rest) := by
  conv => lhs; unfold isQuotedRest
  split
  · rename_i heq
    simp at heq
  · rename_i heq
    exact absurd (List.cons.inj heq).1 h
  · rename_i heq
    obtain ⟨rfl, rfl⟩ := List.cons.inj heq
    rfl

theorem isQuotedRest_doubled_iff {text : Text} : isQuotedRest (doubled quotation text) = true ↔
    ∀ c ∈ text, isNamePart c = true ∨ c = quotation := by
  induction text with
  | nil => simp [isQuotedRest]
  | cons c rest ih =>
    rw [List.forall_mem_cons, ← ih]
    by_cases hc : c = quotation
    · have hpair : isQuotedRest (quotation :: quotation :: doubled quotation rest) =
          isQuotedRest (doubled quotation rest) := rfl
      simp [doubled, hc, hpair]
    · simp [doubled, hc, isQuotedRest_cons_of_ne hc]

end Text

namespace Identifier

/-- A legal name: an ASCII letter or an underscore, and then ASCII letters, digits, underscores and
quotation marks. -/
def IsLegal (name : Text) : Prop :=
  ∃ first rest, name = first :: rest ∧ Text.isNameStart first = true ∧
    ∀ c ∈ rest, Text.isNamePart c = true ∨ c = Text.quotation

theorem isQuotableName_iff {name : Text} : isQuotableName name = true ↔ IsLegal name := by
  cases name with
  | nil => simp [isQuotableName, Text.isQuotedShape, IsLegal]
  | cons first rest =>
    have hshape : isQuotableName (first :: rest) = true ↔ Text.isNameStart first = true ∧
        Text.isQuotedRest (Text.doubled Text.quotation rest) = true := by
      by_cases hfirst : first = Text.quotation
      · have hstart : Text.isNameStart Text.quotation = false := by decide
        simp [isQuotableName, Text.doubled, Text.isQuotedShape, hfirst, hstart]
      · simp [isQuotableName, Text.doubled, Text.isQuotedShape, hfirst]
    rw [hshape, Text.isQuotedRest_doubled_iff]
    constructor
    · exact fun h => ⟨first, rest, rfl, h⟩
    · rintro ⟨_, _, hname, h⟩
      obtain ⟨rfl, rfl⟩ := List.cons.inj hname
      exact h

/-! ### Names -/

theorem exists_ofName {name : Text} (h : isQuotableName name = true) (forceQuote : Bool) :
    ∃ i, ofName name forceQuote = .ok i ∧ i.name = name ∧
      i.quoted = (forceQuote || !isBareName name) := by
  unfold ofName
  by_cases hbare : isBareName name = true
  · rw [dif_pos hbare]
    exact ⟨_, rfl, rfl, by simp [hbare]⟩
  · rw [dif_neg hbare, dif_pos h]
    exact ⟨_, rfl, rfl, by simp [hbare]⟩

theorem ofName_of_not_isQuotableName {name : Text} (h : isQuotableName name ≠ true)
    (forceQuote : Bool) : ofName name forceQuote = .error (.invalidIdentifier name) := by
  unfold ofName
  rw [dif_neg fun hbare => h (isQuotableName_of_isBareName hbare), dif_neg h]

theorem exists_ofName_iff {name : Text} {forceQuote : Bool} :
    (∃ i, ofName name forceQuote = .ok i) ↔ IsLegal name := by
  rw [← isQuotableName_iff]
  constructor
  · rintro ⟨i, hi⟩
    by_cases hname : isQuotableName name = true
    · exact hname
    · simp [ofName_of_not_isQuotableName hname] at hi
  · intro hname
    obtain ⟨i, hi, -⟩ := exists_ofName hname forceQuote
    exact ⟨i, hi⟩

/-- The identifier of a name is the one with that name, quoted where that is asked for or needed. -/
theorem ofName_eq_ok_iff {name : Text} {forceQuote : Bool} {i : Identifier} :
    ofName name forceQuote = .ok i ↔
      i.name = name ∧ i.quoted = (forceQuote || !isBareName name) := by
  constructor
  · intro h
    by_cases hname : isQuotableName name = true
    · obtain ⟨j, hj, hparts⟩ := exists_ofName hname forceQuote
      obtain rfl : j = i := Except.ok.inj (hj.symm.trans h)
      exact hparts
    · simp [ofName_of_not_isQuotableName hname] at h
  · rintro ⟨rfl, hquoted⟩
    obtain ⟨j, hj, hname, hjquoted⟩ := exists_ofName i.quotable forceQuote
    rw [hj, eq_iff.mpr ⟨hname, hjquoted.trans hquoted.symm⟩]

theorem eq_invalidIdentifier_of_ofName {name : Text} {forceQuote : Bool} {e : Error}
    (h : ofName name forceQuote = .error e) : e = .invalidIdentifier name := by
  by_cases hname : isQuotableName name = true
  · obtain ⟨i, hi, -⟩ := exists_ofName hname forceQuote
    simp [hi] at h
  · rw [ofName_of_not_isQuotableName hname] at h
    exact (Except.error.inj h).symm

/-- Every identifier is the one of its name, quoted as it is. -/
theorem ofName_name (i : Identifier) : ofName i.name i.quoted = .ok i := by
  refine ofName_eq_ok_iff.mpr ⟨rfl, ?_⟩
  cases h : i.quoted with
  | true => rfl
  | false => simp [i.bare h]

/-! ### Texts with and without quotation marks around them -/

theorem inner?_eq_some_iff {text inner : Text} :
    inner? text = some inner ↔ text = Text.enclosed Text.quotation inner := by
  constructor
  · intro h
    unfold inner? at h
    split at h
    · rename_i c rest
      split at h
      · rename_i hlast
        obtain ⟨init, hinit⟩ := List.getLast?_eq_some_iff.mp hlast
        rw [hinit, List.dropLast_concat] at h
        obtain rfl := Option.some.inj h
        rw [Text.enclosed, ← hinit]
        rfl
      · simp at h
    · simp at h
  · rintro rfl
    cases inner with
    | nil => rfl
    | cons c rest =>
      have hlast : (c :: rest ++ [Text.quotation]).getLast? = some Text.quotation :=
        List.getLast?_concat
      have hinit : (c :: rest ++ [Text.quotation]).dropLast = c :: rest := List.dropLast_concat
      calc inner? (Text.enclosed Text.quotation (c :: rest))
          = if (c :: rest ++ [Text.quotation]).getLast? = some Text.quotation then
              some (c :: rest ++ [Text.quotation]).dropLast else none := rfl
        _ = some (c :: rest) := by rw [if_pos hlast, hinit]

theorem inner?_eq_none {text : Text} (h : ¬ text.IsWrapped) : inner? text = none := by
  cases hinner : inner? text with
  | none => rfl
  | some inner => exact absurd ⟨inner, inner?_eq_some_iff.mp hinner⟩ h

theorem ofWritten_of_not_isWrapped {text : Text} (h : ¬ text.IsWrapped) :
    ofWritten text = ofName text false := by
  simp [ofWritten, inner?_eq_none h]

/-- What stands between quotation marks is a name whose marks are doubled, or no name at all. -/
theorem ofWritten_enclosed (inner : Text) :
    ofWritten (Text.enclosed Text.quotation inner) =
      if Text.isQuotedShape inner then ofName (Text.undoubled Text.quotation inner) true
      else .error (.invalidIdentifier (Text.enclosed Text.quotation inner)) := by
  simp [ofWritten, inner?_eq_some_iff.mpr rfl]

/-- The name read from between marks can be written there again. -/
theorem isQuotableName_undoubled {inner : Text} (h : Text.isQuotedShape inner = true) :
    isQuotableName (Text.undoubled Text.quotation inner) = true := by
  rw [isQuotableName, Text.doubled_undoubled_of_isQuotedShape h, h]

theorem not_isWrapped_of_isBareName {text : Text} (h : isBareName text = true) :
    ¬ text.IsWrapped := by
  rintro ⟨inner, rfl⟩
  simp only [isBareName, Text.enclosed, Text.isBareShape, Bool.and_eq_true] at h
  exact absurd h.1.1 (by decide)

theorem ofWritten_render (i : Identifier) : ofWritten i.render = .ok i := by
  unfold render
  cases h : i.quoted with
  | true =>
    have hshape : Text.isQuotedShape (Text.doubled Text.quotation i.name) = true := i.quotable
    rw [if_pos rfl, ofWritten_enclosed, if_pos hshape, Text.undoubled_doubled, ← h, ofName_name]
  | false =>
    rw [if_neg (by decide), ofWritten_of_not_isWrapped (not_isWrapped_of_isBareName (i.bare h)),
      ← h, ofName_name]

theorem render_of_isWrapped {text : Text} {i : Identifier} (h : ofWritten text = .ok i)
    (hwrapped : text.IsWrapped) : i.render = text := by
  obtain ⟨inner, rfl⟩ := hwrapped
  rw [ofWritten_enclosed] at h
  split at h
  · rename_i hshape
    obtain ⟨hname, hquoted⟩ := ofName_eq_ok_iff.mp h
    rw [Bool.true_or] at hquoted
    rw [render, if_pos hquoted, hname, Text.doubled_undoubled_of_isQuotedShape hshape]
  · simp at h

theorem render_of_isBareName {text : Text} {i : Identifier} (h : ofWritten text = .ok i)
    (hbare : isBareName text = true) : i.render = text := by
  rw [ofWritten_of_not_isWrapped (not_isWrapped_of_isBareName hbare)] at h
  obtain ⟨hname, hquoted⟩ := ofName_eq_ok_iff.mp h
  rw [hbare, Bool.not_true, Bool.or_self] at hquoted
  rw [render, hquoted, if_neg Bool.false_ne_true, hname]

/-- A name that is no bare one is a reserved word, or it has a mark in it. -/
theorem isReserved_or_mem_of_isQuotableName {text : Text} (h : isQuotableName text = true)
    (hbare : isBareName text = false) :
    (Text.isBareShape text = true ∧ Keyword.isReserved text = true) ∨ Text.quotation ∈ text := by
  by_cases hmark : Text.quotation ∈ text
  · exact .inr hmark
  · rw [isQuotableName, Text.doubled_of_not_mem hmark] at h
    have hshape := Text.isBareShape_of_isQuotedShape h hmark
    exact .inl ⟨hshape, by simpa [isBareName, hshape] using hbare⟩

theorem render_of_not_isWrapped {text : Text} {i : Identifier} (h : ofWritten text = .ok i)
    (hwrapped : ¬ text.IsWrapped) (hbare : isBareName text = false) :
    ((Text.isBareShape text = true ∧ Keyword.isReserved text = true) ∨ Text.quotation ∈ text) ∧
      i.render = Text.enclosed Text.quotation (Text.doubled Text.quotation text) := by
  rw [ofWritten_of_not_isWrapped hwrapped] at h
  obtain ⟨hname, hquoted⟩ := ofName_eq_ok_iff.mp h
  rw [hbare, Bool.not_false, Bool.or_true] at hquoted
  refine ⟨isReserved_or_mem_of_isQuotableName (hname ▸ i.quotable) hbare, ?_⟩
  rw [render, if_pos hquoted, hname]

/-- Reading fails with the text that is read, never with a part of it. -/
theorem eq_invalidIdentifier_of_ofWritten {text : Text} {e : Error}
    (h : ofWritten text = .error e) : e = .invalidIdentifier text := by
  by_cases hwrapped : text.IsWrapped
  · obtain ⟨inner, rfl⟩ := hwrapped
    rw [ofWritten_enclosed] at h
    split at h
    · rename_i hshape
      obtain ⟨i, hi, -⟩ := exists_ofName (isQuotableName_undoubled hshape) true
      simp [hi] at h
    · exact (Except.error.inj h).symm
  · rw [ofWritten_of_not_isWrapped hwrapped] at h
    exact eq_invalidIdentifier_of_ofName h

/-- Every identifier, which is the one of its name and its form, is read back from its written form.
A text that can be read is written again as it was if it is wrapped or a bare name. Any other one is
a reserved word or has a mark in it, and is written between marks, with those in it doubled. A text
that cannot be read is what the failure tells. -/
theorem ofWritten_inverts_render :
    (∀ i : Identifier, ofName i.name i.quoted = .ok i ∧ ofWritten i.render = .ok i) ∧
      (∀ (text : Text) (i : Identifier), ofWritten text = .ok i →
        (text.IsWrapped ∨ isBareName text = true → i.render = text) ∧
          (¬ text.IsWrapped → isBareName text = false →
            ((Text.isBareShape text = true ∧ Keyword.isReserved text = true) ∨
                Text.quotation ∈ text) ∧
              i.render = Text.enclosed Text.quotation (Text.doubled Text.quotation text))) ∧
      ∀ (text : Text) (e : Error), ofWritten text = .error e → e = .invalidIdentifier text := by
  refine ⟨fun i => ⟨ofName_name i, ofWritten_render i⟩, fun text i h => ⟨?_, ?_⟩, ?_⟩
  · rintro (hwrapped | hbare)
    · exact render_of_isWrapped h hwrapped
    · exact render_of_isBareName h hbare
  · exact render_of_not_isWrapped h
  · exact fun text e => eq_invalidIdentifier_of_ofWritten

/-- A name that ends in two marks, written next to the mark around it; a reserved word; and a text
with a single mark between those around it. -/
theorem ofWritten_marks :
    (∃ i, ofWritten "\"a\"\"\"\"\"".toList = .ok i ∧ i.name = "a\"\"".toList ∧
        i.render = "\"a\"\"\"\"\"".toList ∧ ofWritten i.render = .ok i) ∧
      (∃ i, ofWritten "Table".toList = .ok i ∧ i.render = "\"Table\"".toList) ∧
      ∃ e, ofWritten "\"a\"b\"".toList = .error e ∧
        e = .invalidIdentifier "\"a\"b\"".toList := by
  have hbare : ¬ Text.IsWrapped "Table".toList := fun ⟨inner, h⟩ =>
    absurd (List.cons.inj h).1 (by decide)
  refine ⟨⟨⟨"a\"\"".toList, true, by decide, by decide⟩, rfl, rfl, ?_, ?_⟩,
    ⟨⟨"Table".toList, true, by decide, by decide⟩, rfl, ?_⟩, ⟨_, rfl, ?_⟩⟩
  · exact (ofWritten_inverts_render.2.1 _ _ rfl).1 (.inl ⟨"a\"\"\"\"".toList, rfl⟩)
  · exact (ofWritten_inverts_render.1 _).2
  · exact ((ofWritten_inverts_render.2.1 "Table".toList _ rfl).2 hbare (by decide)).2
  · exact ofWritten_inverts_render.2.2 "\"a\"b\"".toList _ rfl

end Identifier

end CqlDdl
