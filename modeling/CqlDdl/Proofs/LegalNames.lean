import CqlDdl.Proofs.Separation
import CqlDdl.Proofs.WrittenNames
import Mathlib

/-! Which names are identifiers, and which of those are quoted. One grammar decides whether a name
is accepted, whether or not quotation marks are asked for. The test for keywords folds the case of
more scripts than one, but the names that follow the grammar are ASCII, where it folds the case of
letters only. Main statement: `Identifier.ofName_accepts_legal_names`. -/

namespace CqlDdl

namespace Text

/-- Every character is one of the 128 of ASCII. -/
def IsAscii (text : Text) : Prop :=
  ∀ c ∈ text, c.toNat < 128

theorem toNat_lt_of_isNamePart {c : Char} (h : isNamePart c = true) : c.toNat < 128 := by
  simp only [isNamePart, Char.isAlphanum, Char.isAlpha, Char.isUpper, Char.isLower, Char.isDigit,
    Bool.or_eq_true, Bool.and_eq_true, decide_eq_true_eq, beq_iff_eq, UInt32.le_iff_toNat_le] at h
  rcases h with (((⟨-, h⟩ | ⟨-, h⟩) | ⟨-, h⟩) | rfl)
  · exact Nat.lt_of_le_of_lt h (by decide)
  · exact Nat.lt_of_le_of_lt h (by decide)
  · exact Nat.lt_of_le_of_lt h (by decide)
  · decide

/-- Every upper case that is more than that of a letter belongs to a character beyond ASCII. -/
theorem upperChar_of_lt {c : Char} (h : c.toNat < 128) : upperChar c = [c.toUpper] := by
  unfold upperChar
  split
  case h_11 => rfl
  all_goals omega

theorem uppered_of_isAscii {text : Text} (h : text.IsAscii) :
    uppered text = text.map Char.toUpper := by
  induction text with
  | nil => rfl
  | cons c rest ih =>
    obtain ⟨hc, hrest⟩ := List.forall_mem_cons.mp h
    have htail : rest.flatMap upperChar = rest.map Char.toUpper := ih hrest
    rw [uppered, List.flatMap_cons, upperChar_of_lt hc, htail]
    rfl

end Text

namespace Keyword

/-- A text is a reserved word in some case of its ASCII letters. -/
def IsWord (text : Text) : Prop :=
  ∃ word ∈ reserved, Text.lowered text = Text.lowered word

/-- The reserved words are kept in upper case. -/
theorem map_toUpper_lowered {word : Text} (h : word ∈ reserved) :
    (Text.lowered word).map Char.toUpper = word := by
  revert word
  decide

theorem isReserved_iff_isWord {text : Text} (h : text.IsAscii) :
    isReserved text = true ↔ IsWord text := by
  rw [isReserved, List.contains_iff_mem, Text.uppered_of_isAscii h]
  constructor
  · intro hmem
    refine ⟨_, hmem, ?_⟩
    rw [Text.lowered, Text.lowered, List.map_map]
    exact List.map_congr_left fun c _ => (Char.toLower_toUpper_eq_toLower c).symm
  · rintro ⟨word, hword, hlowered⟩
    have hupper : text.map Char.toUpper = (Text.lowered text).map Char.toUpper := by
      rw [Text.lowered, List.map_map]
      exact List.map_congr_left fun c _ => (Char.toUpper_toLower_eq_toUpper c).symm
    rw [hupper, hlowered, map_toUpper_lowered hword]
    exact hword

end Keyword

namespace Identifier

theorem IsLegal.isAscii {name : Text} (h : IsLegal name) : name.IsAscii := by
  obtain ⟨first, rest, rfl, hfirst, hrest⟩ := h
  refine List.forall_mem_cons.mpr
    ⟨Text.toNat_lt_of_isNamePart (Text.isNamePart_of_isNameStart hfirst), fun c hc => ?_⟩
  rcases hrest c hc with hpart | rfl
  · exact Text.toNat_lt_of_isNamePart hpart
  · decide

/-- A legal name that cannot stand bare has a mark in it or is a keyword. -/
theorem isBareName_eq_false_iff {name : Text} (h : IsLegal name) :
    isBareName name = false ↔ Text.quotation ∈ name ∨ Keyword.IsWord name := by
  rw [← Keyword.isReserved_iff_isWord h.isAscii]
  constructor
  · intro hbare
    rcases isReserved_or_mem_of_isQuotableName (isQuotableName_iff.mpr h) hbare with
      ⟨-, hreserved⟩ | hmark
    · exact .inr hreserved
    · exact .inl hmark
  · intro hneeds
    refine Bool.eq_false_iff.mpr fun hbare => ?_
    simp only [isBareName, Bool.and_eq_true, Bool.not_eq_true'] at hbare
    rcases hneeds with hmark | hreserved
    · exact Text.isNamePart_ne_quotation (Text.isNamePart_of_isBareShape hbare.1 _ hmark) rfl
    · simp [hreserved] at hbare

/-- A name is accepted exactly when it is legal, whether or not quotation marks are asked for. It
stays as it is, and is quoted where that is asked for, where a mark stands in it, and where it is a
keyword in some case. So no bare form is a keyword. -/
theorem ofName_accepts_legal_names (name : Text) (forceQuote : Bool) :
    ((∃ i, ofName name forceQuote = .ok i) ↔ IsLegal name) ∧
      ∀ i, ofName name forceQuote = .ok i →
        i.name = name ∧
          (i.quoted = true ↔
            forceQuote = true ∨ Text.quotation ∈ name ∨ Keyword.IsWord name) ∧
          (i.quoted = false → i.render = name ∧ ¬ Keyword.IsWord i.render) := by
  refine ⟨exists_ofName_iff, fun i h => ?_⟩
  have hlegal : IsLegal name := exists_ofName_iff.mp ⟨i, h⟩
  obtain ⟨rfl, hquoted⟩ := ofName_eq_ok_iff.mp h
  have hneeds : i.quoted = true ↔
      forceQuote = true ∨ Text.quotation ∈ i.name ∨ Keyword.IsWord i.name := by
    rw [hquoted, Bool.or_eq_true, Bool.not_eq_true', isBareName_eq_false_iff hlegal]
  refine ⟨rfl, hneeds, fun hbare => ⟨render_of_bare hbare, fun hword => ?_⟩⟩
  rw [render_of_bare hbare] at hword
  simp [hneeds.mpr (.inr (.inr hword))] at hbare

/-- A keyword in mixed case is quoted; its look-alike with a dotless letter, whose upper case is
that of the keyword, is no name; and a name that goes on after a keyword stands bare. -/
theorem ofName_keywords :
    (∃ i, ofName "iNdEx".toList false = .ok i ∧ i.quoted = true) ∧
      Keyword.isReserved "ındex".toList = true ∧
      (¬ ∃ i, ofName "ındex".toList true = .ok i) ∧
      ∃ i, ofName "index_".toList false = .ok i ∧ i.render = "index_".toList ∧
        ¬ Keyword.IsWord i.render := by
  have hdotless : ¬ IsLegal "ındex".toList := by
    rintro ⟨first, rest, hname, hfirst, -⟩
    obtain ⟨rfl, rfl⟩ := List.cons.inj hname
    exact absurd hfirst (by decide)
  refine ⟨⟨⟨"iNdEx".toList, true, by decide, by decide⟩, rfl, ?_⟩, by decide, ?_,
    ⟨⟨"index_".toList, false, by decide, by decide⟩, rfl, ?_⟩⟩
  · exact ((ofName_accepts_legal_names "iNdEx".toList false).2 _ rfl).2.1.mpr
      (.inr (.inr ⟨"INDEX".toList, by decide, rfl⟩))
  · exact fun h => hdotless ((ofName_accepts_legal_names "ındex".toList true).1.mp h)
  · exact ((ofName_accepts_legal_names "index_".toList false).2 _ rfl).2.2 rfl

end Identifier

end CqlDdl
