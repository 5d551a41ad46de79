import CqlDdl.DataType
import CqlDdl.Guard
import CqlDdl.Proofs.Characters

/-! Where the parts of a text end. A name, or a list of parts with a separator between them, can be
told from the text that follows it, if that text starts with a character that ends the part:
two texts that agree agree on the part and on what follows it. -/

namespace CqlDdl

namespace Text

/-- Parts that are written by `render` can be told from what follows them, if that is a text that
`Ends` them: the text determines what is `seen` of the part, and the rest. -/
def Separates {α β : Type} (render : α → Text) (seen : α → β) (Ends : Text → Prop) : Prop :=
  ∀ {a b : α} {r s : Text}, Ends r → Ends s → render a ++ r = render b ++ s →
    seen a = seen b ∧ r = s

/-- One part can be told from what follows it, and from every other part. -/
def SeparatesAt {α β : Type} (render : α → Text) (seen : α → β) (Ends : Text → Prop) (a : α) :
    Prop :=
  ∀ {b : α} {r s : Text}, Ends r → Ends s → render a ++ r = render b ++ s →
    seen a = seen b ∧ r = s

/-- No part of a name: the text starts with no name character, and with no quotation mark. -/
def EndsName (rest : Text) : Prop :=
  ∀ c, rest.head? = some c → isNamePart c = false ∧ c ≠ quotation

theorem forall_head?_cons {p : Char → Prop} {c : Char} (h : p c) (rest : Text) :
    ∀ d, (c :: rest).head? = some d → p d := by
  intro d hd
  obtain rfl : c = d := by simpa using hd
  exact h

theorem endsName_cons {c : Char} (rest : Text) (h : isNamePart c = false ∧ c ≠ quotation) :
    EndsName (c :: rest) :=
  forall_head?_cons h rest

theorem endsName_comma (rest : Text) : EndsName (", ".toList ++ rest) :=
  endsName_cons (' ' :: rest) (by decide)

theorem endsName_parenthesis (rest : Text) : EndsName (')' :: rest) :=
  endsName_cons rest (by decide)

theorem endsName_blank (rest : Text) : EndsName (' ' :: rest) :=
  endsName_cons rest (by decide)

/-- Two runs of characters of a class, each followed by one of another class, are the same. -/
theorem append_inj_of_forall {p : Char → Bool} {a b r s : Text} (ha : ∀ c ∈ a, p c = true)
    (hb : ∀ c ∈ b, p c = true) (hr : ∀ c, r.head? = some c → p c = false)
    (hs : ∀ c, s.head? = some c → p c = false) (h : a ++ r = b ++ s) : a = b ∧ r = s := by
  induction a generalizing b with
  | nil =>
    cases b with
    | nil => exact ⟨rfl, h⟩
    | cons d b =>
      have := hr d (by simp [show r = _ from h])
      simp [hb d (by simp)] at this
  | cons c a ih =>
    cases b with
    | nil =>
      have := hs c (by simp [show s = _ from h.symm])
      simp [ha c (by simp)] at this
    | cons d b =>
      simp only [List.cons_append, List.cons.injEq] at h
      obtain ⟨rfl, h⟩ := h
      obtain ⟨rfl, rfl⟩ := ih (fun e he => ha e (by simp [he])) (fun e he => hb e (by simp [he])) h
      exact ⟨rfl, rfl⟩

/-- A single mark ends a text in which every mark stands twice. -/
theorem doubled_append_inj {mark : Char} {a b r s : Text} (hr : r.head? ≠ some mark)
    (hs : s.head? ≠ some mark)
    (h : doubled mark a ++ mark :: r = doubled mark b ++ mark :: s) : a = b ∧ r = s := by
  induction a generalizing b with
  | nil =>
    cases b with
    | nil => exact ⟨rfl, (List.cons.inj h).2⟩
    | cons d b => by_cases hd : d = mark <;> simp_all [doubled, eq_comm]
  | cons c a ih =>
    cases b with
    | nil => by_cases hc : c = mark <;> simp_all [doubled, eq_comm]
    | cons d b =>
      have hcd : c = d ∧ doubled mark a ++ mark :: r = doubled mark b ++ mark :: s := by
        by_cases hc : c = mark <;> by_cases hd : d = mark <;> simp_all [doubled, eq_comm]
      obtain ⟨rfl, rfl⟩ := ih hcd.2
      exact ⟨by rw [hcd.1], rfl⟩

/-- What ends a string literal: a text that does not go on with an apostrophe. -/
def EndsLiteral (rest : Text) : Prop :=
  rest.head? ≠ some apostrophe

theorem endsLiteral_cons {c : Char} (rest : Text) (h : c ≠ apostrophe) :
    EndsLiteral (c :: rest) := by
  simpa [EndsLiteral] using h

theorem separates_literal : Separates literal id EndsLiteral := by
  intro a b r s hr hs h
  simp only [literal, enclosed, List.cons_append, List.append_assoc, List.nil_append,
    List.cons.injEq, true_and] at h
  exact doubled_append_inj hr hs h

/-- Parts with a separator between them are the first one, and every other one after a separator. -/
theorem joined_cons (separator part : Text) (parts : List Text) :
    joined separator (part :: parts) = part ++ parts.flatMap (separator ++ ·) := by
  induction parts generalizing part with
  | nil => simp [joined]
  | cons next rest ih =>
    simp only [joined] at ih
    simp [joined, List.intercalate_cons_cons, ih]

/-- Around any one part, the parts before it have their separators after them. -/
theorem joined_append_cons (separator : Text) (above : List Text) (part : Text)
    (below : List Text) : joined separator (above ++ part :: below) =
      above.flatMap (· ++ separator) ++ part ++ below.flatMap (separator ++ ·) := by
  induction above with
  | nil => exact joined_cons separator part below
  | cons first rest ih =>
    have hne : rest ++ part :: below ≠ [] := by simp
    simp only [joined] at ih
    simp [joined, List.intercalate_cons_of_ne_nil hne, ih]

section

variable {α β : Type} {render : α → Text} {seen : α → β} {Ends : Text → Prop}

/-- Parts that can each be told from what follows can be told from one another, each after a
separator. -/
theorem flatMap_append_inj {separator : Text} (hends : ∀ rest, Ends (separator ++ rest))
    {xs ys : List α} (h : ∀ x ∈ xs, SeparatesAt render seen Ends x) {r s : Text} (hr : Ends r)
    (hs : Ends s) (hrs : ∀ t, r ≠ separator ++ t) (hss : ∀ t, s ≠ separator ++ t)
    (heq : xs.flatMap (separator ++ render ·) ++ r = ys.flatMap (separator ++ render ·) ++ s) :
    xs.map seen = ys.map seen ∧ r = s := by
  have hrest : ∀ (zs : List α) {t : Text}, Ends t →
      Ends (zs.flatMap (separator ++ render ·) ++ t) := by
    intro zs t ht
    cases zs with
    | nil => exact ht
    | cons z zs =>
      rw [List.flatMap_cons, List.append_assoc, List.append_assoc]
      exact hends _
  induction xs generalizing ys with
  | nil =>
    cases ys with
    | nil => exact ⟨rfl, heq⟩
    | cons y ys =>
      rw [List.flatMap_nil, List.flatMap_cons, List.append_assoc, List.append_assoc] at heq
      exact absurd heq (hrs _)
  | cons x xs ih =>
    cases ys with
    | nil =>
      rw [List.flatMap_nil, List.flatMap_cons, List.append_assoc, List.append_assoc] at heq
      exact absurd heq.symm (hss _)
    | cons y ys =>
      simp only [List.flatMap_cons, List.append_assoc] at heq
      obtain ⟨hx, hxs⟩ := List.forall_mem_cons.mp h
      obtain ⟨hxy, htail⟩ := hx (hrest xs hr) (hrest ys hs) (List.append_cancel_left heq)
      obtain ⟨hmap, rfl⟩ := ih hxs htail
      exact ⟨by rw [List.map_cons, hxy, hmap, List.map_cons], rfl⟩

/-- Parts that can each be told from what follows can be told from one another between
separators. -/
theorem joined_append_inj {separator : Text} (hends : ∀ rest, Ends (separator ++ rest))
    {xs ys : List α} (h : ∀ x ∈ xs, SeparatesAt render seen Ends x) (hxs : xs ≠ []) (hys : ys ≠ [])
    {r s : Text} (hr : Ends r) (hs : Ends s) (hrs : ∀ t, r ≠ separator ++ t)
    (hss : ∀ t, s ≠ separator ++ t)
    (heq : joined separator (xs.map render) ++ r = joined separator (ys.map render) ++ s) :
    xs.map seen = ys.map seen ∧ r = s := by
  obtain ⟨x, xs, rfl⟩ := List.exists_cons_of_ne_nil hxs
  obtain ⟨y, ys, rfl⟩ := List.exists_cons_of_ne_nil hys
  refine flatMap_append_inj hends h hr hs hrs hss ?_
  simp only [List.map_cons, joined_cons, List.flatMap_map] at heq
  simp only [List.flatMap_cons, List.append_assoc] at heq ⊢
  exact congrArg (separator ++ ·) heq

theorem Separates.flatMap (h : Separates render seen Ends) {separator : Text}
    (hends : ∀ rest, Ends (separator ++ rest)) {xs ys : List α} {r s : Text} (hr : Ends r)
    (hs : Ends s) (hrs : ∀ t, r ≠ separator ++ t) (hss : ∀ t, s ≠ separator ++ t)
    (heq : xs.flatMap (separator ++ render ·) ++ r = ys.flatMap (separator ++ render ·) ++ s) :
    xs.map seen = ys.map seen ∧ r = s :=
  flatMap_append_inj hends (fun _ _ => h) hr hs hrs hss heq

theorem Separates.joined (h : Separates render seen Ends) {separator : Text}
    (hends : ∀ rest, Ends (separator ++ rest)) {xs ys : List α} (hxs : xs ≠ []) (hys : ys ≠ [])
    {r s : Text} (hr : Ends r) (hs : Ends s) (hrs : ∀ t, r ≠ separator ++ t)
    (hss : ∀ t, s ≠ separator ++ t)
    (heq : joined separator (xs.map render) ++ r = joined separator (ys.map render) ++ s) :
    xs.map seen = ys.map seen ∧ r = s :=
  joined_append_inj hends (fun _ _ => h) hxs hys hr hs hrs hss heq

end

end Text

/-- The words that let a statement do nothing are there or not as the text tells, where nothing else
in it starts with them. -/
theorem Guard.ifNotExists_append_inj {f g : Bool} {r s : Text}
    (hr : ∀ t, "IF NOT EXISTS ".toList ++ t ≠ r) (hs : ∀ t, "IF NOT EXISTS ".toList ++ t ≠ s)
    (h : ifNotExists f ++ r = ifNotExists g ++ s) : f = g ∧ r = s := by
  cases f with
  | true =>
    cases g with
    | true => exact ⟨rfl, List.append_cancel_left h⟩
    | false => exact absurd h (hs r)
  | false =>
    cases g with
    | true => exact absurd h.symm (hr s)
    | false => exact ⟨rfl, h⟩

/-! ### Names -/

namespace Identifier

theorem forall_isNamePart_of_quoted_eq_false {i : Identifier} (h : i.quoted = false) :
    ∀ c ∈ i.name, Text.isNamePart c = true := by
  have hbare := i.bare h
  simp only [isBareName, Bool.and_eq_true] at hbare
  exact Text.isNamePart_of_isBareShape hbare.1

theorem render_of_quoted {i : Identifier} (h : i.quoted = true) :
    i.render = Text.quotation :: (Text.doubled Text.quotation i.name ++ [Text.quotation]) := by
  simp [render, h, Text.enclosed]

theorem render_of_bare {i : Identifier} (h : i.quoted = false) : i.render = i.name := by
  simp [render, h]

/-- The written form of a name starts with a mark or with a name character, as it is quoted or
not. -/
theorem exists_render_eq_cons (i : Identifier) : ∃ c rest, i.render = c :: rest ∧
    (i.quoted = true ∧ c = Text.quotation ∨ i.quoted = false ∧ Text.isNamePart c = true) := by
  cases h : i.quoted with
  | true => exact ⟨_, _, render_of_quoted h, .inl ⟨rfl, rfl⟩⟩
  | false =>
    have hbare := i.bare h
    have hparts := forall_isNamePart_of_quoted_eq_false h
    rw [render_of_bare h]
    cases hname : i.name with
    | nil => simp [isBareName, Text.isBareShape, hname] at hbare
    | cons c rest => exact ⟨c, rest, rfl, .inr ⟨rfl, hparts c (by simp [hname])⟩⟩

theorem quoted_eq_of_render_append_eq {i j : Identifier} {r s : Text}
    (h : i.render ++ r = j.render ++ s) : i.quoted = j.quoted := by
  obtain ⟨c, a, hi, hc⟩ := i.exists_render_eq_cons
  obtain ⟨d, b, hj, hd⟩ := j.exists_render_eq_cons
  rw [hi, hj] at h
  obtain rfl : c = d := (List.cons.inj h).1
  rcases hc with ⟨hiq, rfl⟩ | ⟨hiq, hc⟩ <;> rcases hd with ⟨hjq, hd⟩ | ⟨hjq, hd⟩
  · rw [hiq, hjq]
  · exact absurd rfl (Text.isNamePart_ne_quotation hd)
  · exact absurd hd (Text.isNamePart_ne_quotation hc)
  · rw [hiq, hjq]

theorem separates_render : Text.Separates render id Text.EndsName := by
  intro i j r s hr hs h
  have hquoted := quoted_eq_of_render_append_eq h
  suffices hname : i.name = j.name ∧ r = s from ⟨eq_iff.mpr ⟨hname.1, hquoted⟩, hname.2⟩
  cases hi : i.quoted with
  | true =>
    rw [render_of_quoted hi, render_of_quoted (hquoted ▸ hi)] at h
    simp only [List.cons_append, List.append_assoc, List.nil_append, List.cons.injEq,
      true_and] at h
    exact Text.doubled_append_inj (fun e => (hr _ e).2 rfl) (fun e => (hs _ e).2 rfl) h
  | false =>
    have hj : j.quoted = false := hquoted ▸ hi
    rw [render_of_bare hi, render_of_bare hj] at h
    exact Text.append_inj_of_forall (forall_isNamePart_of_quoted_eq_false hi)
      (forall_isNamePart_of_quoted_eq_false hj) (fun c hc => (hr c hc).1)
      (fun c hc => (hs c hc).1) h

/-- No name is written as a reserved word: its bare form is none, and its quoted one has a mark. -/
theorem reserved_append_ne {i : Identifier} {word r s : Text}
    (hword : Keyword.isReserved word = true) (hparts : word.all Text.isNamePart = true)
    (hr : Text.EndsName r) (hs : Text.EndsName s) : word ++ r ≠ i.render ++ s := by
  intro h
  rw [List.all_eq_true] at hparts
  cases hi : i.quoted with
  | true =>
    rw [render_of_quoted hi] at h
    cases word with
    | nil => exact (hr Text.quotation (by simp [show r = _ from h])).2 rfl
    | cons c word =>
      obtain rfl := (List.cons.inj h).1
      exact absurd (hparts Text.quotation (by simp)) (by decide)
  | false =>
    rw [render_of_bare hi] at h
    obtain ⟨hname, -⟩ := Text.append_inj_of_forall hparts
      (forall_isNamePart_of_quoted_eq_false hi) (fun c hc => (hr c hc).1)
      (fun c hc => (hs c hc).1) h
    have hbare := i.bare hi
    simp [isBareName, ← hname, hword] at hbare

/-- No name goes on like the words that let a statement do nothing, of which the first is
reserved. -/
theorem ifNotExists_append_ne (i : Identifier) {r s : Text} (hs : Text.EndsName s) :
    "IF NOT EXISTS ".toList ++ r ≠ i.render ++ s := by
  have hword : "IF NOT EXISTS ".toList = "IF".toList ++ ' ' :: "NOT EXISTS ".toList := rfl
  rw [hword, List.append_assoc, List.cons_append]
  exact reserved_append_ne (by decide) (by decide) (Text.endsName_blank _) hs

end Identifier

namespace QualifiedName

/-- What ends a name that may have a keyspace before it: what ends a name, and no point. -/
def Ends (rest : Text) : Prop :=
  Text.EndsName rest ∧ rest.head? ≠ some '.'

theorem ends_nil : Ends [] :=
  ⟨fun _ h => by simp at h, by simp⟩

theorem endsName_point (rest : Text) : Text.EndsName ('.' :: rest) :=
  Text.endsName_cons rest (by decide)

/-- The first identifier of a name is the keyspace, if there is one. -/
theorem exists_render_append_eq (n : QualifiedName) {r : Text} (hr : Ends r) :
    ∃ (first : Identifier) (rest : Text), Text.EndsName rest ∧
      n.render ++ r = first.render ++ rest := by
  cases hk : n.keyspace with
  | none => exact ⟨n.name, r, hr.1, by simp [render, hk]⟩
  | some keyspace =>
    exact ⟨keyspace, '.' :: (n.name.render ++ r), endsName_point _, by simp [render, hk]⟩

theorem separates_render : Text.Separates render id Ends := by
  intro n m r s hr hs h
  obtain ⟨nk, n⟩ := n
  obtain ⟨mk, m⟩ := m
  cases nk with
  | none =>
    cases mk with
    | none =>
      obtain ⟨hname, rfl⟩ := Identifier.separates_render hr.1 hs.1 h
      exact ⟨by simpa using hname, rfl⟩
    | some k =>
      simp only [render, List.append_assoc, List.cons_append] at h
      obtain ⟨-, hrest⟩ := Identifier.separates_render hr.1 (endsName_point _) h
      exact absurd (by simp [hrest]) hr.2
  | some k =>
    cases mk with
    | none =>
      simp only [render, List.append_assoc, List.cons_append] at h
      obtain ⟨-, hrest⟩ := Identifier.separates_render (endsName_point _) hs.1 h
      exact absurd (by simp [← hrest]) hs.2
    | some l =>
      simp only [render, List.append_assoc, List.cons_append] at h
      obtain ⟨hkl, hrest⟩ := Identifier.separates_render (endsName_point _) (endsName_point _) h
      obtain ⟨hname, rfl⟩ := Identifier.separates_render hr.1 hs.1 (List.cons.inj hrest).2
      simp only [id_eq] at hkl hname
      exact ⟨by rw [hkl, hname], rfl⟩

theorem ifNotExists_append_ne (n : QualifiedName) {r s : Text} (hs : Ends s) :
    "IF NOT EXISTS ".toList ++ r ≠ n.render ++ s := by
  obtain ⟨first, rest, hrest, heq⟩ := n.exists_render_append_eq hs
  rw [heq]
  exact first.ifNotExists_append_ne hrest

end QualifiedName

/-! ### The characters of types -/

namespace DataType

/-- The characters of names and of the points between them, of which a type without parameters is a
run. -/
def isInner (c : Char) : Bool :=
  Text.isNamePart c || c == Text.quotation || c == '.'

theorem isInner_word (type : NativeType) : ∀ c ∈ type.word, isInner c = true :=
  List.all_eq_true.mp (by cases type <;> decide)

end DataType

theorem Text.isInner_of_isQuotedShape {text : Text} (h : isQuotedShape text = true) :
    ∀ c ∈ text, DataType.isInner c = true := by
  intro c hc
  rcases isNamePart_or_eq_quotation_of_isQuotedShape h c hc with hpart | rfl
  · simp [DataType.isInner, hpart]
  · decide

theorem Identifier.isInner_of_mem_render {i : Identifier} :
    ∀ c ∈ i.render, DataType.isInner c = true := by
  cases h : i.quoted with
  | true =>
    have hq : DataType.isInner Text.quotation = true := by decide
    rw [render_of_quoted h]
    exact List.forall_mem_cons.mpr ⟨hq, List.forall_mem_append.mpr
      ⟨Text.isInner_of_isQuotedShape i.quotable, List.forall_mem_singleton.mpr hq⟩⟩
  | false =>
    rw [render_of_bare h]
    exact fun c hc => by
      simp [DataType.isInner, forall_isNamePart_of_quoted_eq_false h c hc]

theorem QualifiedName.isInner_of_mem_render {n : QualifiedName} :
    ∀ c ∈ n.render, DataType.isInner c = true := by
  unfold render
  split
  · exact List.forall_mem_append.mpr
      ⟨Identifier.isInner_of_mem_render, List.forall_mem_cons.mpr
        ⟨by decide, Identifier.isInner_of_mem_render⟩⟩
  · exact Identifier.isInner_of_mem_render

end CqlDdl
