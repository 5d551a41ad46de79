import CqlDdl.Proofs.Separation
import CqlDdl.Proofs.SingleStatement

/-! The text of a map that is itself the value of an option determines the map: the names in order,
which of them have no value, and the texts of the values that the others have. An entry is read off
from the left. Its name is a string literal. Its value is a literal as well, or stands bare and
holds neither a comma nor a brace, so that it ends at the first of these. Main statement:
`OptionMap.shown_eq_of_render_eq`. -/

namespace CqlDdl

open Text (EndsLiteral endsLiteral_cons separates_literal apostrophe)

/-- The text of a value, if there is one. -/
def OptionValue.text? : OptionValue → Option Text
  | .null => none
  | value => some value.render

/-- What the text of a map shows: the names in order, and the texts of their values. -/
def OptionMap.shown (options : OptionMap) : List (Text × Option Text) :=
  options.map fun entry => (entry.1.name, entry.2.text?)

theorem OptionMap.length_shown (options : OptionMap) : options.shown.length = options.length :=
  List.length_map _

theorem OptionValue.text?_of_ne_null {value : OptionValue} (h : value ≠ .null) :
    value.text? = some value.render := by
  cases value with
  | null => exact absurd rfl h
  | absent | scalar _ | map _ => rfl

/-! ### Written values -/

/-- The characters that end a value without marks around it. -/
def Text.isValueEnd (c : Char) : Bool :=
  c == ',' || c == '\x7d'

def Text.isBareValueChar (c : Char) : Bool :=
  !isValueEnd c && c != apostrophe

/-- A value as it stands in a map, bare or as a string literal. -/
inductive WrittenValue
  | bare (text : Text) (chars : ∀ c ∈ text, Text.isBareValueChar c = true)
  | literal (text : Text)

namespace WrittenValue

def render : WrittenValue → Text
  | bare text _ => text
  | literal text => Text.literal text

/-- What is read back from a value: nothing, if nothing stands in its place. -/
def read : WrittenValue → Option Text
  | bare text _ => if text.isEmpty then none else some text
  | literal text => some text

/-- What ends a value: the comma before the next entry, or the closing brace after a blank. -/
inductive Ends : Text → Prop
  | comma (rest : Text) : Ends (',' :: rest)
  | brace (rest : Text) : Ends (' ' :: '\x7d' :: rest)

theorem Ends.endsLiteral {rest : Text} (h : Ends rest) : EndsLiteral rest := by
  cases h with
  | comma rest => exact endsLiteral_cons _ (by decide)
  | brace rest => exact endsLiteral_cons _ (by decide)

theorem append_inj_of_isValueEnd {a b r s : Text} {c d : Char}
    (ha : ∀ e ∈ a, Text.isValueEnd e = false) (hb : ∀ e ∈ b, Text.isValueEnd e = false)
    (hc : Text.isValueEnd c = true) (hd : Text.isValueEnd d = true)
    (h : a ++ c :: r = b ++ d :: s) : a = b ∧ c = d ∧ r = s := by
  obtain ⟨hsame, hrest⟩ := Text.append_inj_of_forall (p := (!Text.isValueEnd ·))
    (fun e he => by simp [ha e he]) (fun e he => by simp [hb e he])
    (Text.forall_head?_cons (by simp [hc]) r) (Text.forall_head?_cons (by simp [hd]) s) h
  exact ⟨hsame, List.cons.inj hrest⟩

/-- A bare value ends at the first comma or brace, without the blank before a brace. -/
theorem bare_append_inj {a b r s : Text} (ha : ∀ c ∈ a, Text.isBareValueChar c = true)
    (hb : ∀ c ∈ b, Text.isBareValueChar c = true) (hr : Ends r) (hs : Ends s)
    (h : a ++ r = b ++ s) : a = b ∧ r = s := by
  have hends : ∀ {t : Text}, (∀ c ∈ t, Text.isBareValueChar c = true) →
      (∀ c ∈ t, Text.isValueEnd c = false) ∧ ∀ c ∈ t ++ [' '], Text.isValueEnd c = false := by
    intro t ht
    have hpart : ∀ c ∈ t, Text.isValueEnd c = false := fun c hc => by
      simpa using (Bool.and_eq_true_iff.mp (ht c hc)).1
    exact ⟨hpart, List.forall_mem_append.mpr ⟨hpart, List.forall_mem_singleton.mpr (by decide)⟩⟩
  -- With the blank taken to it, a value before a brace ends where the brace is.
  have hblank : ∀ t rest : Text, t ++ ' ' :: '\x7d' :: rest = t ++ [' '] ++ '\x7d' :: rest :=
    fun t rest => by simp
  cases hr with
  | comma more =>
    cases hs with
    | comma rest =>
      obtain ⟨hsame, -, hrest⟩ :=
        append_inj_of_isValueEnd (hends ha).1 (hends hb).1 (by decide) (by decide) h
      exact ⟨hsame, by rw [hrest]⟩
    | brace rest =>
      rw [hblank] at h
      have hchar :=
        (append_inj_of_isValueEnd (hends ha).1 (hends hb).2 (by decide) (by decide) h).2.1
      exact absurd hchar (by decide)
  | brace more =>
    rw [hblank] at h
    cases hs with
    | comma rest =>
      have hchar :=
        (append_inj_of_isValueEnd (hends ha).2 (hends hb).1 (by decide) (by decide) h).2.1
      exact absurd hchar (by decide)
    | brace rest =>
      rw [hblank] at h
      obtain ⟨hsame, -, hrest⟩ :=
        append_inj_of_isValueEnd (hends ha).2 (hends hb).2 (by decide) (by decide) h
      exact ⟨List.append_cancel_right hsame, by rw [hrest]⟩

theorem literal_append_ne_bare {t a r s : Text} (ha : ∀ c ∈ a, Text.isBareValueChar c = true)
    (hs : Ends s) : Text.literal t ++ r ≠ a ++ s := by
  intro h
  have hhead : (a ++ s).head? = some apostrophe := by
    rw [← h]
    rfl
  cases a with
  | nil => exact hs.endsLiteral hhead
  | cons c a =>
    obtain rfl : c = apostrophe := Option.some.inj hhead
    exact absurd (ha apostrophe List.mem_cons_self) (by decide)

theorem separates_read : Text.Separates render read Ends := by
  intro a b r s hr hs h
  cases a with
  | bare a ha =>
    cases b with
    | bare b hb =>
      obtain ⟨rfl, hrest⟩ := bare_append_inj ha hb hr hs h
      exact ⟨rfl, hrest⟩
    | literal t => exact absurd h.symm (literal_append_ne_bare ha hr)
  | literal t =>
    cases b with
    | bare b hb => exact absurd h (literal_append_ne_bare hb hs)
    | literal u =>
      obtain ⟨htext, hrest⟩ := separates_literal hr.endsLiteral hs.endsLiteral h
      exact ⟨congrArg some htext, hrest⟩

end WrittenValue

/-! ### How values are written -/

theorem Text.all_isBareValueChar_of_spaced {text : Text} (h : Spaced text) :
    text.all isBareValueChar = true := by
  refine List.all_eq_true.mpr fun c hc => ?_
  have hcomma : c ≠ ',' := fun e => h.not_mem (by decide) (by decide) (e ▸ hc)
  have hbrace : c ≠ '\x7d' := fun e => h.not_mem (by decide) (by decide) (e ▸ hc)
  have hmark : c ≠ apostrophe := fun e => h.apostrophe_not_mem (e ▸ hc)
  simp [isBareValueChar, isValueEnd, hcomma, hbrace, hmark]

namespace OptionKey

variable {key : OptionKey} {value : OptionValue}

theorem exists_written_of_check (hguards : key.Guards value) (hcheck : key.check value = .ok ())
    (hnull : value ≠ .null) :
    ∃ w : WrittenValue, key.mark value.render = w.render ∧ w.read = some value.render := by
  rcases mark_of_guards hguards hcheck with hmark | ⟨hmark, hbare⟩
  · exact ⟨.literal value.render, hmark, rfl⟩
  · have hall : value.render.all Text.isBareValueChar = true := by
      rcases hbare.form with hspaced | hmap
      · exact Text.all_isBareValueChar_of_spaced hspaced
      · rw [hmap]
        decide
    exact ⟨.bare value.render (List.all_eq_true.mp hall), hmark,
      if_neg (by simpa using hbare.nonempty hnull)⟩

theorem exists_written {text : Text} (hguards : key.Guards value)
    (h : key.write value = .ok text) :
    ∃ w : WrittenValue, text = w.render ∧ w.read = value.text? := by
  by_cases hnull : value = .null
  · subst hnull
    obtain rfl : [] = text := Except.ok.inj h
    exact ⟨.bare [] (by simp), rfl, rfl⟩
  · rw [write_of_ne_null hnull] at h
    obtain ⟨⟨⟩, hcheck, rfl⟩ := Outcome.map_eq_ok_iff.mp h
    rw [OptionValue.text?_of_ne_null hnull]
    exact exists_written_of_check hguards hcheck hnull

end OptionKey

/-! ### Entries and maps -/

namespace OptionMap

def entryText (entry : Text × WrittenValue) : Text :=
  Text.literal entry.1 ++ " : ".toList ++ entry.2.render

theorem separates_entryText :
    Text.Separates entryText (fun entry => (entry.1, entry.2.read)) WrittenValue.Ends := by
  intro a b r s hr hs h
  have hblank : ∀ rest : Text, EndsLiteral (" : ".toList ++ rest) := fun rest =>
    endsLiteral_cons _ (by decide)
  simp only [entryText, List.append_assoc] at h
  obtain ⟨hname, htail⟩ := separates_literal (hblank _) (hblank _) h
  obtain ⟨hvalue, hrest⟩ := WrittenValue.separates_read hr hs (List.append_cancel_left htail)
  exact ⟨Prod.ext hname hvalue, hrest⟩

theorem exists_written_of_traverse {options : OptionMap}
    (hguards : ∀ entry ∈ options, entry.1.Guards entry.2) {parts : List Text}
    (h : Entries.traverse renderEntry options = .ok parts) :
    ∃ written : List (Text × WrittenValue), parts = written.map entryText ∧
      written.map (fun entry => (entry.1, entry.2.read)) = options.shown := by
  rw [Entries.traverse_eq_ok_iff] at h
  induction options generalizing parts with
  | nil =>
    obtain rfl : parts = [] := by simpa using h.symm
    exact ⟨[], rfl, rfl⟩
  | cons entry rest ih =>
    obtain ⟨hentry, hrest⟩ := List.forall_mem_cons.mp hguards
    cases parts with
    | nil => simp at h
    | cons part parts =>
      obtain ⟨hpart, hparts⟩ := List.cons.inj h
      obtain ⟨written, rfl, hshown⟩ := ih hrest hparts
      obtain ⟨text, htext, rfl⟩ := Outcome.map_eq_ok_iff.mp hpart
      obtain ⟨value, rfl, hvalue⟩ := OptionKey.exists_written hentry htext
      refine ⟨(entry.1.name, value) :: written, rfl, ?_⟩
      rw [List.map_cons, hshown, hvalue]
      rfl

theorem exists_written_of_render {options : OptionMap}
    (hguards : ∀ entry ∈ options, entry.1.Guards entry.2) {text : Text}
    (h : options.render = .ok text) :
    options = [] ∧ text = [] ∨ ∃ written : List (Text × WrittenValue), written ≠ [] ∧
      text = "\x7b ".toList ++
        (Text.joined ", ".toList (written.map entryText) ++ " \x7d".toList) ∧
      written.map (fun entry => (entry.1, entry.2.read)) = options.shown := by
  unfold render at h
  split at h
  · rename_i hempty
    exact .inl ⟨List.isEmpty_iff.mp hempty, (Except.ok.inj h).symm⟩
  · rename_i hempty
    obtain ⟨parts, hparts, rfl⟩ := Outcome.map_eq_ok_iff.mp h
    obtain ⟨written, rfl, hshown⟩ := exists_written_of_traverse hguards hparts
    refine .inr ⟨written, ?_, List.append_assoc _ _ _, hshown⟩
    rintro rfl
    have hlength := length_shown options
    rw [← hshown] at hlength
    exact hempty (List.isEmpty_iff.mpr (List.eq_nil_of_length_eq_zero hlength.symm))

/-- Two maps with one text show the same: as many options, of the same names in the same order, the
same of them without a value, and the others with values of the same text. Their keys may differ in
type and in flags, as long as each text among the values has marks around it, and the apostrophes in
it doubled unless there are none. -/
theorem shown_eq_of_render_eq {a b : OptionMap} {text : Text}
    (ha : ∀ entry ∈ a, entry.1.Guards entry.2) (hb : ∀ entry ∈ b, entry.1.Guards entry.2)
    (hatext : a.render = .ok text) (hbtext : b.render = .ok text) : a.shown = b.shown := by
  rcases exists_written_of_render ha hatext with ⟨rfl, rfl⟩ | ⟨ws, hws, rfl, hshown⟩ <;>
    rcases exists_written_of_render hb hbtext with ⟨rfl, htext⟩ | ⟨vs, hvs, htext, hother⟩
  · rfl
  · exact absurd htext (by simp)
  · exact absurd htext (by simp)
  · have hbrace : ∀ t : Text, " \x7d".toList ≠ ", ".toList ++ t := fun t => by simp
    rw [← hshown, ← hother]
    exact (separates_entryText.joined (fun _ => .comma _) hws hvs (.brace [])
      (.brace []) hbrace hbrace (List.append_cancel_left htext)).1

/-- A number, a text and an option without a value, under names and with a text that look like
entries of their own. -/
def lookalikes (size : Scalar) (type : ValueType) : OptionMap :=
  [({ name := "x : 1, 'y".toList, type := .number, named := by decide }, .scalar size),
    ({ name := "it's".toList, type := .string, escapesValue := true, quotesValue := true,
       named := by decide }, .scalar (.text "5 \x7d, 'z' : ".toList)),
    ({ name := "last".toList, type, named := by decide }, .null)]

/-- A number that is given as an integer or as its digits has one text, and the type of an option
without a value has none, so that two maps have one text. -/
theorem shown_lookalikes :
    let a := lookalikes (.integer 5) .string
    let b := lookalikes (.text "5".toList) .boolean
    let text := "\x7b 'x : 1, ''y' : 5, 'it''s' : '5 \x7d, ''z'' : ', 'last' :  \x7d".toList
    a.render = .ok text ∧ b.render = .ok text ∧ a.shown = b.shown := by
  intro a b text
  have hguards : ∀ size type, ∀ entry ∈ lookalikes size type, entry.1.Guards entry.2 := by
    simp [lookalikes, OptionKey.Guards]
  have ha : a.render = .ok text := rfl
  have hb : b.render = .ok text := rfl
  exact ⟨ha, hb, shown_eq_of_render_eq (hguards _ _) (hguards _ _) ha hb⟩

end OptionMap

end CqlDdl
