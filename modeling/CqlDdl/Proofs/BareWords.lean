import CqlDdl.Proofs.SingleStatement
import CqlDdl.Proofs.Words

/-! The words of a statement outside its string literals. Whatever a literal holds, it adds no word;
a name is one word, and none that is reserved. -/

namespace CqlDdl

namespace Region

open Text (apostrophe)

/-- The characters of a text that stand in no string literal, the marks around literals left out
like what they enclose. -/
def bare : Region → Text → Text
  | _, [] => []
  | region, c :: rest =>
    if region = within apostrophe ∨ region.next c = within apostrophe then bare (region.next c) rest
    else c :: bare (region.next c) rest

@[simp] theorem bare_nil (region : Region) : region.bare [] = [] := by
  cases region <;> rfl

theorem bare_within_cons (c : Char) (rest : Text) :
    (within apostrophe).bare (c :: rest) = ((within apostrophe).next c).bare rest := by
  rw [bare, if_pos (.inl rfl)]

theorem bare_apostrophe_cons (rest : Text) :
    outside.bare (apostrophe :: rest) = (within apostrophe).bare rest := by
  rw [bare, if_pos (.inr rfl)]
  rfl

theorem bare_append (region : Region) (s t : Text) :
    region.bare (s ++ t) = region.bare s ++ (region.after s).bare t := by
  induction s generalizing region with
  | nil => simp
  | cons c rest ih =>
    rw [List.cons_append, bare, bare, ih, after_cons]
    split <;> rfl

theorem bare_of_not_mem {region : Region} {text : Text} (hregion : region ≠ within apostrophe)
    (h : apostrophe ∉ text) : region.bare text = text := by
  induction text generalizing region with
  | nil => simp
  | cons c rest ih =>
    obtain ⟨hc, hrest⟩ := not_or.mp fun hm => h (List.mem_cons.mpr hm)
    have hnext : region.next c ≠ within apostrophe := by
      cases region with
      | outside => by_cases hm : isMark c = true <;> simp [next, hm, Ne.symm hc]
      | within mark => by_cases hm : c = mark <;> simp_all [next]
    rw [bare, if_neg (not_or.mpr ⟨hregion, hnext⟩), ih hnext hrest]

/-- A text in which every apostrophe stands twice goes on with the literal that it stands in. -/
theorem bare_within_doubled (text rest : Text) :
    (within apostrophe).bare (Text.doubled apostrophe text ++ rest) =
      (within apostrophe).bare rest := by
  induction text with
  | nil => rfl
  | cons c text ih =>
    by_cases hc : c = apostrophe
    · rw [hc, Text.doubled, if_pos rfl, List.cons_append, List.cons_append, bare_within_cons,
        next_within_self, bare_apostrophe_cons, ih]
    · have hnext : (within apostrophe).next c = within apostrophe := by simp [next, hc]
      rw [Text.doubled, if_neg hc, List.cons_append, bare_within_cons, hnext, ih]

theorem bare_literal (text : Text) : outside.bare (Text.literal text) = [] := by
  rw [Text.literal, Text.enclosed, bare_apostrophe_cons, bare_within_doubled, bare_within_cons,
    bare_nil]

end Region

namespace Text

/-- The words of a text outside its string literals. -/
def bareWords (text : Text) : List Text :=
  words (Region.outside.bare text)

@[simp] theorem bareWords_nil : bareWords [] = [] := rfl

theorem bareWords_of_not_mem {text : Text} (h : apostrophe ∉ text) :
    bareWords text = words text := by
  rw [bareWords, Region.bare_of_not_mem (by simp) h]

@[simp] theorem bareWords_literal (text : Text) : bareWords (literal text) = [] := by
  rw [bareWords, Region.bare_literal, words_nil]

/-- The characters that stand between words: those of no word that open no literal either. -/
def isGap (c : Char) : Bool :=
  !isWordChar c && c != apostrophe

theorem isWordChar_of_isGap {c : Char} (h : isGap c = true) : isWordChar c = false := by
  simpa using (Bool.and_eq_true_iff.mp h).1

theorem isMark_of_isGap {c : Char} (h : isGap c = true) : Region.isMark c = false := by
  have hword := isWordChar_of_isGap h
  simp only [isGap, Bool.and_eq_true, bne_iff_ne] at h
  simp only [isWordChar, Bool.or_eq_false_iff, beq_eq_false_iff_ne] at hword
  simp [Region.isMark, h.2, hword.2]

theorem bareWords_append_cons {s : Text} (hs : Inert s) {c : Char} (hc : isGap c = true)
    (t : Text) : bareWords (s ++ c :: t) = bareWords s ++ bareWords t := by
  have hnext : Region.outside.next c = .outside := by simp [Region.next, isMark_of_isGap hc]
  have hbare : Region.outside.bare (c :: t) = c :: Region.outside.bare t := by
    rw [Region.bare, hnext, if_neg (by simp)]
  rw [bareWords, Region.bare_append, hs.after, hbare, words_append_cons (isWordChar_of_isGap hc)]
  rfl

theorem bareWords_cons {c : Char} (hc : isGap c = true) (t : Text) :
    bareWords (c :: t) = bareWords t :=
  bareWords_append_cons .nil hc t

theorem bareWords_append_gap {s gap : Text} (hs : Inert s) (hne : gap ≠ [])
    (hgap : gap.all isGap = true) (t : Text) :
    bareWords (s ++ (gap ++ t)) = bareWords s ++ bareWords t := by
  obtain ⟨c, gap, rfl⟩ := List.exists_cons_of_ne_nil hne
  simp only [List.all_cons, Bool.and_eq_true] at hgap
  have hrest : bareWords (gap ++ t) = bareWords t := by
    clear hne
    induction gap with
    | nil => rfl
    | cons d gap ih =>
      simp only [List.all_cons, Bool.and_eq_true] at hgap
      rw [List.cons_append, bareWords_cons hgap.2.1, ih ⟨hgap.1, hgap.2.2⟩]
  rw [List.cons_append, bareWords_append_cons hs hgap.1, hrest]

theorem bareWords_joined {separator : Text} (hne : separator ≠ [])
    (hgap : separator.all isGap = true) {parts : List Text} (h : ∀ part ∈ parts, Inert part) :
    bareWords (joined separator parts) = parts.flatMap bareWords := by
  cases parts with
  | nil => rfl
  | cons part rest =>
    rw [joined_cons]
    induction rest generalizing part with
    | nil => simp
    | cons next more ih =>
      obtain ⟨hpart, hrest⟩ := List.forall_mem_cons.mp h
      rw [List.flatMap_cons, List.append_assoc, bareWords_append_gap hpart hne hgap, ih next hrest]
      rfl

end Text

namespace Identifier

theorem apostrophe_not_mem_render (i : Identifier) : Text.apostrophe ∉ i.render := fun h =>
  absurd (isInner_of_mem_render _ h) (by decide)

theorem bareWords_render (i : Identifier) : Text.bareWords i.render = [i.render] := by
  rw [Text.bareWords_of_not_mem i.apostrophe_not_mem_render, i.words_render]

end Identifier

theorem QualifiedName.bareWords_render (n : QualifiedName) :
    Text.bareWords n.render = (n.keyspace.map Identifier.render).toList ++ [n.name.render] := by
  unfold QualifiedName.render
  cases n.keyspace with
  | none => exact n.name.bareWords_render
  | some keyspace =>
    simp only
    rw [Text.bareWords_append_cons keyspace.neutral_render.toInert (by decide),
      keyspace.bareWords_render, n.name.bareWords_render]
    rfl

end CqlDdl
