import CqlDdl.Text

/-! Scanning the text of a statement for quotes. A mark outside quotes opens a region that ends at
the next single one; a mark written twice in it is an escape. A scan that turns at every mark finds
the same regions and semicolons, and it can be made piece by piece: texts that are `Inert` leave it
outside quotes and show it no semicolon. A statement is `Single` when its last character is the only
semicolon outside quotes. -/

namespace CqlDdl

/-- Where a scan of a statement stands: outside quotes, or after the mark that opened them. -/
inductive Region
  | outside
  | within (mark : Char)
deriving DecidableEq, Repr

namespace Region

/-- The characters that open quotes: those around string literals and around quoted names. -/
def isMark (c : Char) : Bool :=
  c == Text.apostrophe || c == Text.quotation

/-- A scan of a text from a region: where it ends, and the places of the semicolons outside quotes,
the first character having the place `place`. Inside quotes the mark that opened them is an escape
where it stands twice, and closes them where it does not. -/
def scan : Region → Nat → Text → Region × List Nat
  | region, _, [] => (region, [])
  | outside, place, c :: rest =>
    if isMark c then scan (within c) (place + 1) rest
    else
      let (region, semicolons) := scan outside (place + 1) rest
      (region, if c = ';' then place :: semicolons else semicolons)
  | within mark, _, [c] => (if c = mark then outside else within mark, [])
  | within mark, place, c :: d :: rest =>
    if c = mark then
      if d = mark then scan (within mark) (place + 2) rest else scan outside (place + 1) (d :: rest)
    else scan (within mark) (place + 1) (d :: rest)

/-- The region after one character, when every mark opens or closes. -/
def next : Region → Char → Region
  | outside, c => if isMark c then within c else outside
  | within mark, c => if c = mark then outside else within mark

/-- The region after a text, when every mark opens or closes. -/
def after (region : Region) (text : Text) : Region :=
  text.foldl next region

/-- The places of the semicolons outside quotes, when every mark opens or closes. -/
def semicolons : Region → Nat → Text → List Nat
  | _, _, [] => []
  | region, place, c :: rest =>
    if region = outside ∧ c = ';' then place :: semicolons (region.next c) (place + 1) rest
    else semicolons (region.next c) (place + 1) rest

@[simp] theorem isMark_semicolon : isMark ';' = false := by decide

@[simp] theorem next_within_self (mark : Char) : next (within mark) mark = outside := by
  simp [next]

theorem next_outside_of_isMark {c : Char} (h : isMark c = true) : next outside c = within c := by
  simp [next, h]

theorem isMark_ne_semicolon {c : Char} (h : isMark c = true) : c ≠ ';' := by
  rintro rfl
  simp at h

theorem isMark_ne_hyphen {c : Char} (h : isMark c = true) : c ≠ '-' := by
  rintro rfl
  exact absurd h (by decide)

/-- A mark written twice inside quotes closes them and opens them again, with nothing between. So a
scan that turns at every mark ends in the same region and finds the same semicolons. -/
theorem scan_eq (region : Region) (place : Nat) (text : Text)
    (h : ∀ mark, region = within mark → isMark mark = true) :
    region.scan place text = (region.after text, region.semicolons place text) := by
  fun_induction scan region place text with
  | case1 region place => simp [after, semicolons]
  | case2 place c rest hc ih =>
    rw [ih (by rintro _ ⟨⟩; exact hc)]
    simp [after, semicolons, next_outside_of_isMark hc, isMark_ne_semicolon hc]
  | case3 place c rest hc region found heq ih =>
    rw [heq] at ih
    obtain ⟨rfl, rfl⟩ := Prod.mk.inj (ih (by simp))
    by_cases hs : c = ';'
    · subst hs
      simp [after, semicolons, next]
    · simp [after, semicolons, next, hc, hs]
  | case4 mark place c => by_cases hc : c = mark <;> simp [after, semicolons, next, hc]
  | case5 place mark rest ih =>
    have hm := h mark rfl
    rw [ih h]
    simp [after, semicolons, next_outside_of_isMark hm, isMark_ne_semicolon hm, Nat.add_assoc]
  | case6 place mark d rest hd ih =>
    rw [ih (by simp)]
    simp [after, semicolons]
  | case7 mark place c d rest hc ih =>
    rw [ih h]
    simp [after, semicolons, next, hc]

@[simp] theorem after_nil (region : Region) : region.after [] = region := rfl

@[simp] theorem after_cons (region : Region) (c : Char) (text : Text) :
    region.after (c :: text) = (region.next c).after text := rfl

@[simp] theorem after_append (region : Region) (s t : Text) :
    region.after (s ++ t) = (region.after s).after t := by
  simp [after]

theorem semicolons_append (region : Region) (place : Nat) (s t : Text) :
    region.semicolons place (s ++ t) =
      region.semicolons place s ++ (region.after s).semicolons (place + s.length) t := by
  induction s generalizing region place with
  | nil => simp [semicolons]
  | cons c rest ih =>
    have hplace : place + (rest.length + 1) = place + 1 + rest.length := by omega
    by_cases h : region = outside ∧ c = ';' <;> simp [semicolons, h, ih, hplace]

/-- A text that stays within the quotes that a mark has opened. -/
structure Hides (mark : Char) (text : Text) : Prop where
  after : (within mark).after text = within mark
  semicolons : ∀ place, (within mark).semicolons place text = []

/-- A text may hold the mark and stay within its quotes, as long as each one stands twice. -/
theorem Hides.doubled {mark : Char} (hm : isMark mark = true) (text : Text) :
    Hides mark (Text.doubled mark text) := by
  induction text with
  | nil => exact ⟨rfl, fun _ => rfl⟩
  | cons c rest ih =>
    by_cases hc : c = mark
    · subst hc
      have hopen := next_outside_of_isMark hm
      exact ⟨by simpa [Text.doubled, hopen] using ih.after,
        fun place => by
          simpa [Text.doubled, Region.semicolons, hopen, isMark_ne_semicolon hm] using
            ih.semicolons (place + 2)⟩
    · exact ⟨by simpa [Text.doubled, next, hc] using ih.after,
        fun place => by
          simpa [Text.doubled, Region.semicolons, next, hc] using ih.semicolons (place + 1)⟩

end Region

namespace Text

/-- A text is one statement when a scan of it ends outside quotes, and the only semicolon outside
quotes is its last character. -/
def IsSingle (text : Text) : Prop :=
  Region.scan .outside 0 text = (.outside, [text.length - 1])

/-- A text that leaves a scan outside quotes and shows it no semicolon there. -/
structure Inert (text : Text) : Prop where
  after : Region.outside.after text = .outside
  semicolons : ∀ place, Region.outside.semicolons place text = []

/-- The characters without a meaning for a scan that stands outside quotes. -/
def isPlain (c : Char) : Bool :=
  !Region.isMark c && c != ';'

namespace Inert

@[simp] theorem nil : Inert [] := ⟨rfl, fun _ => rfl⟩

theorem append {s t : Text} (hs : Inert s) (ht : Inert t) : Inert (s ++ t) where
  after := by rw [Region.after_append, hs.after, ht.after]
  semicolons place := by
    rw [Region.semicolons_append, hs.semicolons, hs.after, ht.semicolons, List.append_nil]

theorem cons {c : Char} {text : Text} (hc : isPlain c = true) (h : Inert text) :
    Inert (c :: text) := by
  simp only [isPlain, Bool.and_eq_true, Bool.not_eq_true', bne_iff_ne, ne_eq] at hc
  have hnext : Region.outside.next c = .outside := by simp [Region.next, hc.1]
  exact ⟨by rw [Region.after_cons, hnext, h.after],
    fun place => by simp [Region.semicolons, hc.2, hnext, h.semicolons]⟩

theorem enclosed {mark : Char} (hm : Region.isMark mark = true) {text : Text}
    (h : Region.Hides mark text) : Inert (enclosed mark text) := by
  have hopen := Region.next_outside_of_isMark hm
  refine ⟨by simp [Text.enclosed, hopen, h.after], fun place => ?_⟩
  simp [Text.enclosed, Region.semicolons, Region.semicolons_append, hopen, h.semicolons,
    Region.isMark_ne_semicolon hm]

/-- An inert text with a semicolon after it is one statement. -/
theorem isSingle {text : Text} (h : Inert text) : IsSingle (text ++ [';']) := by
  rw [IsSingle, Region.scan_eq _ _ _ (by simp), Region.after_append, Region.semicolons_append,
    h.after, h.semicolons]
  simp [Region.next, Region.semicolons]

end Inert

end Text

end CqlDdl
