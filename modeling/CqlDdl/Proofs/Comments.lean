import CqlDdl.Proofs.Quotation

/-! Removing the comments of a text. Outside quotes two hyphens open a comment, which runs up to the
next line break; in a comment no mark opens quotes. A text is `Neutral` when it leaves a scan
outside quotes, shows it no semicolon, and keeps all its characters whatever follows it. -/

namespace CqlDdl

/-- What a text is read in: code outside or within quotes, or a comment. -/
inductive Passage
  | code (region : Region)
  | comment
deriving DecidableEq, Repr

namespace Passage

/-- A text without its comments, read on in a passage. The line break that ends a comment stays. A
mark written twice within quotes closes them and opens them again, with nothing between. -/
def strip : Passage → Text → Text
  | _, [] => []
  | comment, c :: rest =>
    if c = '\n' then c :: strip (code .outside) rest else strip comment rest
  | code region, c :: rest =>
    if region = .outside ∧ c = '-' ∧ rest.head? = some '-' then strip comment rest
    else c :: strip (code (region.next c)) rest

theorem strip_code_cons {region : Region} {c : Char} (h : region = .outside → c ≠ '-')
    (rest : Text) :
    (code region).strip (c :: rest) = c :: (code (region.next c)).strip rest := by
  rw [strip, if_neg fun hopen => h hopen.1 hopen.2.1]

theorem strip_comment_append {line : Text} (h : '\n' ∉ line) (rest : Text) :
    comment.strip (line ++ rest) = comment.strip rest := by
  induction line with
  | nil => rfl
  | cons c line ih =>
    obtain ⟨hc, hline⟩ := not_or.mp fun hm => h (List.mem_cons.mpr hm)
    rw [List.cons_append, strip, if_neg (Ne.symm hc), ih hline]

/-- Within quotes everything stays, and the marks that are doubled there do not end them. -/
theorem strip_doubled {mark : Char} (hm : Region.isMark mark = true) (text rest : Text) :
    (code (.within mark)).strip (Text.doubled mark text ++ rest) =
      Text.doubled mark text ++ (code (.within mark)).strip rest := by
  induction text with
  | nil => rfl
  | cons c text ih =>
    by_cases hc : c = mark
    · subst hc
      -- between the two marks the text is outside quotes, where only a hyphen would matter
      simp only [Text.doubled, if_true, List.cons_append]
      rw [strip_code_cons (by simp), Region.next_within_self,
        strip_code_cons fun _ => Region.isMark_ne_hyphen hm, Region.next_outside_of_isMark hm, ih]
    · have hnext : Region.next (.within mark) c = .within mark := by simp [Region.next, hc]
      simp only [Text.doubled, hc, if_false, List.cons_append]
      rw [strip_code_cons (by simp), hnext, ih]

end Passage

namespace Text

/-- A text without its comments. -/
def withoutComments (text : Text) : Text :=
  (Passage.code .outside).strip text

theorem withoutComments_cons {c : Char} (hm : Region.isMark c = false) (hc : c ≠ '-')
    (rest : Text) : withoutComments (c :: rest) = c :: withoutComments rest := by
  rw [withoutComments, Passage.strip_code_cons fun _ => hc]
  simp [withoutComments, Region.next, hm]

/-- A single hyphen opens no comment. -/
theorem withoutComments_hyphen {c : Char} (hc : c ≠ '-') (rest : Text) :
    withoutComments ('-' :: c :: rest) = '-' :: withoutComments (c :: rest) := by
  have hnext : Region.outside.next '-' = .outside := by decide
  simp [withoutComments, Passage.strip, hc, hnext]

theorem withoutComments_enclosed {mark : Char} (hm : Region.isMark mark = true)
    (text rest : Text) :
    withoutComments (enclosed mark (doubled mark text) ++ rest) =
      enclosed mark (doubled mark text) ++ withoutComments rest := by
  simp only [withoutComments, enclosed, List.cons_append, List.append_assoc, List.nil_append]
  rw [Passage.strip_code_cons fun _ => Region.isMark_ne_hyphen hm,
    Region.next_outside_of_isMark hm, Passage.strip_doubled hm, Passage.strip_code_cons (by simp),
    Region.next_within_self]

/-- A comment goes up to the line break or the end that follows it. -/
theorem withoutComments_comment {line rest : Text} (hline : '\n' ∉ line)
    (hrest : rest.head?.all (· == '\n') = true) :
    withoutComments ("--".toList ++ line ++ rest) = withoutComments rest := by
  have hopen : withoutComments ("--".toList ++ line ++ rest) =
      Passage.comment.strip ('-' :: (line ++ rest)) := by
    simp [withoutComments, Passage.strip]
  rw [hopen, Passage.strip, if_neg (by decide), Passage.strip_comment_append hline]
  cases rest with
  | nil => rfl
  | cons c rest =>
    obtain rfl : c = '\n' := by simpa using hrest
    rw [withoutComments_cons (by decide) (by decide), Passage.strip, if_pos rfl, withoutComments]

example : withoutComments "a '--' -- it's\nb".toList = "a '--' \nb".toList := by decide

/-- An inert text that keeps all its characters when comments are removed, whatever follows it. -/
structure Neutral (text : Text) : Prop extends Inert text where
  kept : ∀ rest, withoutComments (text ++ rest) = text ++ withoutComments rest

/-- The plain characters other than the hyphen: those without a meaning outside quotes. -/
def isSteady (c : Char) : Bool :=
  isPlain c && c != '-'

theorem isPlain_of_isSteady {c : Char} (h : isSteady c = true) : isPlain c = true :=
  (Bool.and_eq_true_iff.mp h).1

theorem isMark_eq_false_of_isPlain {c : Char} (h : isPlain c = true) :
    Region.isMark c = false := by
  simpa using (Bool.and_eq_true_iff.mp h).1

theorem ne_hyphen_of_isSteady {c : Char} (h : isSteady c = true) : c ≠ '-' :=
  bne_iff_ne.mp (Bool.and_eq_true_iff.mp h).2

namespace Neutral

@[simp] theorem nil : Neutral [] where
  toInert := .nil
  kept _ := rfl

theorem append {s t : Text} (hs : Neutral s) (ht : Neutral t) : Neutral (s ++ t) where
  toInert := hs.toInert.append ht.toInert
  kept rest := by rw [List.append_assoc, hs.kept, ht.kept, List.append_assoc]

theorem cons {c : Char} {text : Text} (hc : isSteady c = true) (h : Neutral text) :
    Neutral (c :: text) where
  toInert := .cons (isPlain_of_isSteady hc) h.toInert
  kept rest := by
    rw [List.cons_append, withoutComments_cons
      (isMark_eq_false_of_isPlain (isPlain_of_isSteady hc)) (ne_hyphen_of_isSteady hc), h.kept,
      List.cons_append]

/-- A hyphen may stand before a steady character. -/
theorem hyphen {c : Char} {text : Text} (hc : isSteady c = true) (h : Neutral text) :
    Neutral ('-' :: c :: text) where
  toInert := .cons (by decide) (cons hc h).toInert
  kept rest := by
    have hkept := (cons hc h).kept rest
    simp only [List.cons_append] at hkept ⊢
    rw [withoutComments_hyphen (ne_hyphen_of_isSteady hc), hkept]

theorem of_forall {text : Text} (h : ∀ c ∈ text, isSteady c = true) : Neutral text := by
  induction text with
  | nil => exact nil
  | cons c rest ih => exact cons (h c (by simp)) (ih fun d hd => h d (by simp [hd]))

theorem word {text : Text} (h : text.all isSteady = true) : Neutral text :=
  of_forall (List.all_eq_true.mp h)

theorem word_append {s t : Text} (hs : s.all isSteady = true) (ht : Neutral t) : Neutral (s ++ t) :=
  (word hs).append ht

theorem append_word {s t : Text} (hs : Neutral s) (ht : t.all isSteady = true) : Neutral (s ++ t) :=
  hs.append (word ht)

theorem enclosed {mark : Char} (hm : Region.isMark mark = true) (text : Text) :
    Neutral (enclosed mark (doubled mark text)) where
  toInert := .enclosed hm (.doubled hm text)
  kept := withoutComments_enclosed hm text

theorem literal (text : Text) : Neutral (literal text) :=
  enclosed (by decide) text

theorem joined {separator : Text} (hs : Neutral separator) {parts : List Text}
    (h : ∀ part ∈ parts, Neutral part) : Neutral (joined separator parts) := by
  induction parts with
  | nil => exact nil
  | cons part rest ih =>
    have hpart := h part (by simp)
    have hrest := ih fun p hp => h p (by simp [hp])
    cases rest with
    | nil => simpa [Text.joined] using hpart
    | cons q more =>
      have := hpart.append (hs.append hrest)
      simpa [Text.joined, List.intercalate] using this

end Neutral

/-- A neutral text with a semicolon after it. -/
def IsTerminated (text : Text) : Prop :=
  ∃ body, Neutral body ∧ text = body ++ [';']

theorem Neutral.isTerminated {text : Text} (h : Neutral text) : IsTerminated (text ++ [';']) :=
  ⟨text, h, rfl⟩

theorem IsTerminated.isSingle {text : Text} (h : IsTerminated text) : IsSingle text := by
  obtain ⟨body, hbody, rfl⟩ := h
  exact hbody.toInert.isSingle

theorem IsTerminated.kept {text : Text} (h : IsTerminated text) (rest : Text) :
    withoutComments (text ++ rest) = text ++ withoutComments rest := by
  obtain ⟨body, hbody, rfl⟩ := h
  rw [List.append_assoc, hbody.kept, List.singleton_append,
    withoutComments_cons (by decide) (by decide), List.append_assoc, List.singleton_append]

end Text

end CqlDdl
