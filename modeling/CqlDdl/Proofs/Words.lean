import CqlDdl.Proofs.Separation
import CqlDdl.Text.Parts

/-! The words of a text: its runs of the characters that names are written with. A text around
another character has the words of what stands before it and of what stands after it, and the
written form of a name is one word. -/

namespace CqlDdl

namespace Text

/-- The characters of names, and the marks around them. -/
def isWordChar (c : Char) : Bool :=
  isNamePart c || c == quotation

/-- The words of a text, with the marks around quoted ones. -/
def words (text : Text) : List Text :=
  parts (fun c => !isWordChar c) text

theorem split_eq_splitOnP (isSeparator : Char → Bool) (text : Text) :
    split isSeparator text = text.splitOnP isSeparator := by
  induction text with
  | nil => simp [split, List.splitOnP_nil]
  | cons c rest ih =>
    obtain ⟨part, more, hparts⟩ :=
      List.exists_cons_of_ne_nil (List.splitOnP_ne_nil isSeparator rest)
    simp [split, ih, List.splitOnP_cons_eq_if_modifyHead, hparts]

theorem words_eq (text : Text) :
    words text = (text.splitOnP (!isWordChar ·)).filter (!·.isEmpty) := by
  rw [words, parts, split_eq_splitOnP]

@[simp] theorem words_nil : words [] = [] := rfl

theorem words_append_cons {c : Char} (hc : isWordChar c = false) (s t : Text) :
    words (s ++ c :: t) = words s ++ words t := by
  rw [words_eq, List.splitOnP_append_cons s t (by simp [hc]), List.filter_append, ← words_eq,
    ← words_eq]

theorem words_append_blank (s t : Text) : words (s ++ ' ' :: t) = words s ++ words t :=
  words_append_cons (by decide) s t

theorem not_mem_words_append_cons {word : Text} {c : Char} (hc : isWordChar c = false)
    {s t : Text} : word ∉ words (s ++ c :: t) ↔ word ∉ words s ∧ word ∉ words t := by
  rw [words_append_cons hc, List.mem_append, not_or]

theorem not_mem_words_append_blank {word s t : Text} :
    word ∉ words (s ++ ' ' :: t) ↔ word ∉ words s ∧ word ∉ words t :=
  not_mem_words_append_cons (by decide)

theorem words_of_forall {text : Text} (h : ∀ c ∈ text, isWordChar c = true)
    (hne : text ≠ []) : words text = [text] := by
  rw [words_eq, List.splitOnP_eq_singleton fun c hc => by simp [h c hc]]
  simp [hne]

theorem words_append_flatMap {c : Char} (hc : isWordChar c = false) (part : Text)
    (rest : List Text) :
    words (part ++ rest.flatMap (c :: ·)) = words part ++ rest.flatMap words := by
  induction rest generalizing part with
  | nil => simp
  | cons next more ih =>
    rw [List.flatMap_cons, List.cons_append, words_append_cons hc, ih, List.flatMap_cons]

theorem words_joined_blank (parts : List Text) :
    words (joined [' '] parts) = parts.flatMap words := by
  cases parts with
  | nil => rfl
  | cons part rest =>
    rw [joined_cons, List.flatMap_cons]
    exact words_append_flatMap (by decide) part rest

/-- A word that is in no part, and not between them, is not in the joined text. -/
theorem not_mem_words_joined {word : Text} (between : Text) {c d : Char}
    (hc : isWordChar c = false) (hd : isWordChar d = false) (hbetween : word ∉ words between)
    {parts : List Text} (h : ∀ part ∈ parts, word ∉ words part) :
    word ∉ words (joined (c :: (between ++ [d])) parts) := by
  cases parts with
  | nil => simp [joined]
  | cons part rest =>
    obtain ⟨hpart, hrest⟩ := List.forall_mem_cons.mp h
    have hafter : rest.flatMap (c :: (between ++ [d]) ++ ·) =
        (rest.map (between ++ d :: ·)).flatMap (c :: ·) := by simp [List.flatMap_map]
    rw [joined_cons, hafter, words_append_flatMap hc, List.mem_append, List.mem_flatMap]
    rintro (hmem | ⟨next, hnext, hmem⟩)
    · exact hpart hmem
    · obtain ⟨p, hp, rfl⟩ := List.mem_map.mp hnext
      exact (not_mem_words_append_cons hd).mpr ⟨hbetween, hrest p hp⟩ hmem

end Text

theorem Identifier.words_render (i : Identifier) : Text.words i.render = [i.render] := by
  refine Text.words_of_forall (fun c hc => ?_) ?_
  · cases hi : i.quoted with
    | true =>
      rw [render_of_quoted hi, List.mem_cons, List.mem_append, List.mem_singleton] at hc
      rcases hc with rfl | hc | rfl
      · decide
      · rcases Text.isNamePart_or_eq_quotation_of_isQuotedShape i.quotable c hc with hc | rfl
        · simp [Text.isWordChar, hc]
        · decide
      · decide
    | false =>
      rw [render_of_bare hi] at hc
      simp [Text.isWordChar, forall_isNamePart_of_quoted_eq_false hi c hc]
  · obtain ⟨c, rest, hrender, -⟩ := i.exists_render_eq_cons
    simp [hrender]

/-- A reserved word is not the written form of a name. -/
theorem Identifier.reserved_ne_render {word : Text} (hword : Keyword.isReserved word = true)
    (hparts : word.all Text.isNamePart = true) (i : Identifier) : word ≠ i.render := by
  have hends : Text.EndsName [] := by simp [Text.EndsName]
  have hne : word ++ [] ≠ i.render ++ [] := reserved_append_ne hword hparts hends hends
  simpa using hne

end CqlDdl
