import Mathlib.Data.List.Nodup
import CqlDdl.Proofs.BareWords

/-! What a statement assigns, read off its text: the words that stand before equals signs. Where the
options are guarded, no value holds an equals sign outside string literals, so that each option with
a value assigns its name once, and nothing else assigns anything. Main statement:
`CreateKeyspace.assigned_of_render`. -/

namespace CqlDdl

open Text (apostrophe)

namespace Text

/-- The words that a text assigns: the last one before each equals sign outside string literals. -/
def assigned (text : Text) : List Text :=
  (split (· == '=') (Region.outside.bare text)).dropLast.filterMap fun piece =>
    (words piece).getLast?

example : assigned "a = 'b = c' AND x d = 1 AND e".toList = ["a".toList, "d".toList] := by decide

theorem words_ne_nil {text : Text} {c : Char} (hc : c ∈ text) (hword : isWordChar c = true) :
    words text ≠ [] := by
  induction text with
  | nil => simp at hc
  | cons d rest ih =>
    cases hd : isWordChar d with
    | true =>
      rw [words, parts, split, if_neg (by simp [hd])]
      cases split (fun c => !isWordChar c) rest <;> simp
    | false =>
      have hne : c ≠ d := by
        rintro rfl
        simp [hd] at hword
      have hrest : c ∈ rest := (List.mem_cons.mp hc).resolve_left hne
      have hwords : words (d :: rest) = words rest := words_append_cons hd [] rest
      exact hwords ▸ ih hrest

/-- A text that leaves a scan outside quotes and assigns nothing. -/
structure Silent (text : Text) : Prop where
  after : Region.outside.after text = .outside
  equals_not_mem : '=' ∉ Region.outside.bare text

namespace Silent

variable {s t text : Text}

theorem nil : Silent [] := ⟨rfl, by simp⟩

theorem append (hs : Silent s) (ht : Silent t) : Silent (s ++ t) where
  after := by rw [Region.after_append, hs.after, ht.after]
  equals_not_mem := by
    rw [Region.bare_append, hs.after, List.mem_append, not_or]
    exact ⟨hs.equals_not_mem, ht.equals_not_mem⟩

theorem of_neutral (h : Neutral text) (hmark : apostrophe ∉ text) (hequals : '=' ∉ text) :
    Silent text := by
  refine ⟨h.after, ?_⟩
  rwa [Region.bare_of_not_mem (by simp) hmark]

/-- The characters that say nothing: those without a meaning outside quotes, but for one. -/
def isQuiet (c : Char) : Bool :=
  isSteady c && c != '='

theorem of_forall (h : ∀ c ∈ text, isQuiet c = true) : Silent text := by
  have hne : ∀ d, isQuiet d = false → d ∉ text := fun d hd hmem => by
    simp [h d hmem] at hd
  exact of_neutral (.of_forall fun c hc => (Bool.and_eq_true_iff.mp (h c hc)).1)
    (hne apostrophe (by decide)) (hne '=' (by decide))

theorem word (h : text.all isQuiet = true) : Silent text :=
  of_forall (List.all_eq_true.mp h)

theorem literal (text : Text) : Silent (literal text) :=
  ⟨(Neutral.literal text).after, by simp [Region.bare_literal]⟩

theorem joined {separator : Text} (hs : Silent separator) {parts : List Text}
    (h : ∀ part ∈ parts, Silent part) : Silent (joined separator parts) := by
  cases parts with
  | nil => exact nil
  | cons part rest =>
    obtain ⟨hpart, hrest⟩ := List.forall_mem_cons.mp h
    rw [joined_cons]
    refine hpart.append ?_
    clear h
    induction rest with
    | nil => exact nil
    | cons next more ih =>
      obtain ⟨hnext, hmore⟩ := List.forall_mem_cons.mp hrest
      exact (hs.append hnext).append (ih hmore)

end Silent

/-- A name between blanks brings its own words. -/
theorem Silent.bareWords_append_name {before name : Text} (h : Silent before)
    (hmark : apostrophe ∉ name) :
    bareWords (before ++ ' ' :: (name ++ [' '])) = bareWords before ++ words name := by
  have hblanks : apostrophe ∉ ' ' :: (name ++ [' ']) := by
    simp only [List.mem_cons, List.mem_append, List.not_mem_nil, or_false, not_or]
    exact ⟨by decide, hmark, by decide⟩
  rw [bareWords, Region.bare_append, h.after, Region.bare_of_not_mem (by simp) hblanks,
    words_append_blank, words_append_blank, words_nil, List.append_nil]
  rfl

theorem assigned_of_silent {text : Text} (h : Silent text) : assigned text = [] := by
  have hnone : ∀ c ∈ Region.outside.bare text, (c == '=') = false := fun c hc =>
    beq_eq_false_iff_ne.mpr fun e => h.equals_not_mem (e ▸ hc)
  rw [assigned, split_eq_splitOnP, List.splitOnP_eq_singleton hnone]
  rfl

/-- The text before the first equals sign gives its last word. -/
theorem assigned_append_equals {s : Text} (hs : Silent s) (t : Text) :
    assigned (s ++ '=' :: t) = (bareWords s).getLast?.toList ++ assigned t := by
  have hnone : ∀ c ∈ Region.outside.bare s, (c == '=') = false := fun c hc =>
    beq_eq_false_iff_ne.mpr fun e => hs.equals_not_mem (e ▸ hc)
  have hbare : Region.outside.bare (s ++ '=' :: t) =
      Region.outside.bare s ++ '=' :: Region.outside.bare t := by
    rw [Region.bare_append, hs.after]
    rfl
  rw [assigned, split_eq_splitOnP, hbare, List.splitOnP_append_cons _ _ rfl,
    List.splitOnP_eq_singleton hnone, List.singleton_append,
    List.dropLast_cons_of_ne_nil (List.splitOnP_ne_nil _ _), List.filterMap_cons,
    ← split_eq_splitOnP]
  cases h : (words (Region.outside.bare s)).getLast? <;> simp [assigned, bareWords, h]

end Text

open Text (Silent assigned bareWords)

/-! ### Options -/

theorem OptionKey.silent_mark {key : OptionKey} {value : OptionValue} (hguards : key.Guards value)
    (hcheck : key.check value = .ok ()) : Silent (key.mark value.render) := by
  rcases mark_of_guards hguards hcheck with hmark | ⟨hmark, hspaced | hmap, -⟩
  · rw [hmark]
    exact .literal _
  · rw [hmark]
    exact .of_neutral hspaced.neutral hspaced.apostrophe_not_mem
      (hspaced.not_mem (by decide) (by decide))
  · rw [hmark, hmap]
    exact .of_neutral (.word (by decide)) (by decide) (by decide)

theorem OptionKey.silent_of_write {key : OptionKey} {value : OptionValue} {text : Text}
    (hguards : key.Guards value) (h : key.write value = .ok text) : Silent text := by
  by_cases hnull : value = .null
  · subst hnull
    obtain rfl : [] = text := Except.ok.inj h
    exact .nil
  · rw [write_of_ne_null hnull] at h
    obtain ⟨⟨⟩, hcheck, rfl⟩ := Outcome.map_eq_ok_iff.mp h
    exact silent_mark hguards hcheck

theorem OptionKey.silent_name {key : OptionKey}
    (h : key.name.all Text.isOptionNamePart = true) : Silent key.name :=
  .of_forall fun c hc => by
    have hpart := List.all_eq_true.mp h c hc
    have hsteady := Text.isSteady_of_class (by decide) (by decide) (by decide) (by decide) hpart
    have hne : c ≠ '=' := fun e => by
      rw [e] at hpart
      exact absurd hpart (by decide)
    simp [Silent.isQuiet, hsteady, hne]

/-- A name of letters, digits, underscores and blanks has a word, since it is not blank. -/
theorem OptionKey.words_name_ne_nil {key : OptionKey}
    (h : key.name.all Text.isOptionNamePart = true) : Text.words key.name ≠ [] := by
  obtain ⟨c, hc, hblank⟩ := List.all_eq_false.mp key.named
  have hpart := List.all_eq_true.mp h c hc
  have hne : c ≠ ' ' := fun e => hblank (e ▸ by decide)
  refine Text.words_ne_nil hc ?_
  simp only [Text.isOptionNamePart, beq_eq_false_iff_ne.mpr hne, Bool.or_false] at hpart
  simp [Text.isWordChar, hpart]

namespace OptionMap

theorem silent_of_render {entries : OptionMap} {text : Text}
    (hguards : ∀ entry ∈ entries, entry.1.Guards entry.2) (h : render entries = .ok text) :
    Silent text := by
  unfold render at h
  split at h
  · obtain rfl : [] = text := Except.ok.inj h
    exact .nil
  · obtain ⟨parts, hparts, rfl⟩ := Outcome.map_eq_ok_iff.mp h
    refine ((Silent.word (by decide)).append (.joined (.word (by decide)) ?_)).append
      (.word (by decide))
    intro part hpart
    obtain ⟨entry, hentry, hrender⟩ := Entries.exists_of_mem_traverse hparts hpart
    obtain ⟨value, hvalue, rfl⟩ := Outcome.map_eq_ok_iff.mp hrender
    exact ((Silent.literal _).append (.word (by decide))).append
      (OptionKey.silent_of_write (hguards entry hentry) hvalue)

/-- The word that an option assigns: the last one of its name, if it has a value. -/
def assigned? (entry : OptionKey × OptionValue) : Option Text :=
  match entry.2 with
  | .null => none
  | .absent | .scalar _ | .map _ => (Text.words entry.1.name).getLast?

/-- A clause is the bare name, which assigns nothing, or the name before an equals sign and a value
that assigns nothing by itself. -/
theorem clause_cases {entry : OptionKey × OptionValue} {text : Text}
    (hguards : entry.1.Guards entry.2) (hnested : ∀ e ∈ entry.2.entries, e.1.Guards e.2)
    (h : clause entry = .ok text) :
    text = entry.1.name ∧ assigned? entry = none ∨
      assigned? entry = (Text.words entry.1.name).getLast? ∧
        ∃ value, Silent value ∧ text = entry.1.name ++ " = ".toList ++ value := by
  obtain ⟨key, value⟩ := entry
  cases value with
  | null => exact .inl ⟨(Except.ok.inj h).symm, rfl⟩
  | absent | scalar =>
    obtain ⟨value, hvalue, rfl⟩ := Outcome.map_eq_ok_iff.mp h
    exact .inr ⟨rfl, value, OptionKey.silent_of_write hguards hvalue, rfl⟩
  | map entries =>
    simp only [clause] at h
    split at h
    · simp at h
    · obtain ⟨value, hvalue, rfl⟩ := Outcome.map_eq_ok_iff.mp h
      exact .inr ⟨rfl, value, silent_of_render hnested hvalue, rfl⟩

/-- The clause of one option, after any text that assigns nothing and before any text at all. -/
theorem assigned_clause {entry : OptionKey × OptionValue} {text : Text}
    (hname : entry.1.name.all Text.isOptionNamePart = true) (hguards : entry.1.Guards entry.2)
    (hnested : ∀ e ∈ entry.2.entries, e.1.Guards e.2) (h : clause entry = .ok text)
    {before : Text} (hbefore : Silent before) :
    ∃ after, Silent after ∧ ∀ rest, assigned (before ++ ' ' :: (text ++ rest)) =
      (assigned? entry).toList ++ assigned (after ++ rest) := by
  have hbare : Silent (before ++ ' ' :: entry.1.name) :=
    hbefore.append (.append (s := [' ']) (.word (by decide)) (OptionKey.silent_name hname))
  rcases clause_cases hguards hnested h with ⟨rfl, hassigned⟩ | ⟨hassigned, value, hvalue, rfl⟩
  · refine ⟨before ++ ' ' :: entry.1.name, hbare, fun rest => ?_⟩
    rw [hassigned, List.append_assoc]
    rfl
  · have hpiece : Silent (before ++ ' ' :: (entry.1.name ++ [' '])) := by
      rw [← List.cons_append, ← List.append_assoc]
      exact hbare.append (.word (by decide))
    have hmark : apostrophe ∉ entry.1.name := fun hmem =>
      absurd (List.all_eq_true.mp hname apostrophe hmem) (by decide)
    refine ⟨' ' :: value, .append (s := [' ']) (.word (by decide)) hvalue, fun rest => ?_⟩
    have htext : before ++ ' ' :: (entry.1.name ++ " = ".toList ++ value ++ rest) =
        before ++ ' ' :: (entry.1.name ++ [' ']) ++ '=' :: (' ' :: value ++ rest) := by simp
    rw [htext, Text.assigned_append_equals hpiece, hbefore.bareWords_append_name hmark,
      List.getLast?_append, hassigned,
      List.getLast?_eq_some_getLast (OptionKey.words_name_ne_nil hname)]
    rfl

/-- Clauses one after another assign what their options assign, and nothing else. -/
theorem assigned_joined_clauses {options : OptionMap} {clauses : List Text}
    (hnames : ∀ entry ∈ options, entry.1.name.all Text.isOptionNamePart = true)
    (hguards : ∀ entry ∈ options, entry.1.Guards entry.2 ∧
      ∀ e ∈ entry.2.entries, e.1.Guards e.2)
    (h : options.clauses = .ok clauses) {before : Text} (hbefore : Silent before) :
    assigned (before ++ ' ' :: (Text.joined " AND ".toList clauses ++ [';'])) =
      options.filterMap assigned? := by
  -- With each clause the text before the next one changes, and it assigns nothing as before.
  rw [OptionMap.clauses, Entries.traverse_eq_ok_iff] at h
  induction options generalizing clauses before with
  | nil =>
    obtain rfl : clauses = [] := by simpa using h.symm
    exact Text.assigned_of_silent (hbefore.append ⟨by decide, by decide⟩)
  | cons entry rest ih =>
    cases clauses with
    | nil => simp at h
    | cons clause clauses =>
      obtain ⟨hclause, hclauses⟩ := List.cons.inj h
      obtain ⟨hname, hnames⟩ := List.forall_mem_cons.mp hnames
      obtain ⟨⟨hentry, hnested⟩, hguards⟩ := List.forall_mem_cons.mp hguards
      obtain ⟨after, hafter, hassigned⟩ := assigned_clause hname hentry hnested hclause hbefore
      have hrest : assigned (after ++ (clauses.flatMap (" AND ".toList ++ ·) ++ [';'])) =
          rest.filterMap assigned? := by
        cases clauses with
        | nil =>
          obtain rfl : rest = [] := by simpa using hclauses
          exact Text.assigned_of_silent (hafter.append ⟨by decide, by decide⟩)
        | cons next more =>
          have hand : Silent (after ++ " AND".toList) := hafter.append (.word (by decide))
          rw [← ih hnames hguards hclauses hand, Text.joined_cons]
          simp
      rw [Text.joined_cons, List.append_assoc, hassigned, hrest, List.filterMap_cons]
      cases assigned? entry <;> rfl

theorem assigned_withClauses {options : OptionMap} {clauses : List Text}
    (hguarded : options.Guarded) (h : options.clauses = .ok clauses) {before : Text}
    (hbefore : Silent before) :
    assigned (before ++ withClauses clauses ++ [';']) = options.filterMap assigned? := by
  have hwith : Silent (before ++ " WITH".toList) := hbefore.append (.word (by decide))
  rw [← assigned_joined_clauses hguarded.names (fun _ => hguarded.guards) h hwith]
  cases clauses with
  | nil =>
    have hnil : assigned (before ++ withClauses [] ++ [';']) = [] :=
      Text.assigned_of_silent ((hbefore.append .nil).append ⟨by decide, by decide⟩)
    rw [hnil]
    exact (Text.assigned_of_silent (hwith.append ⟨by decide, by decide⟩)).symm
  | cons clause rest =>
    have htext : before ++ withClauses (clause :: rest) ++ [';'] = before ++ " WITH".toList ++
        ' ' :: (Text.joined " AND ".toList (clause :: rest) ++ [';']) := by
      simp [withClauses]
    rw [htext]

/-- An option whose name is one word is assigned once if it has a value, and not at all if it has
none, as long as no other option assigns that word. -/
theorem count_filterMap_assigned? {options : OptionMap} (hnodup : options.names.Nodup)
    {entry : OptionKey × OptionValue} (hentry : entry ∈ options)
    (hword : Text.words entry.1.name = [entry.1.name])
    (hother : ∀ other ∈ options, assigned? other = some entry.1.name →
      other.1.name = entry.1.name) :
    (entry.2 ≠ .null → (options.filterMap assigned?).count entry.1.name = 1) ∧
      (entry.2 = .null → (options.filterMap assigned?).count entry.1.name = 0) := by
  have hsame : ∀ other ∈ options, other.1.name = entry.1.name → other = entry :=
    fun other hmem => List.inj_on_of_nodup_map hnodup hmem hentry
  refine ⟨fun hvalue => ?_, fun hnull => ?_⟩
  · have hsome : assigned? entry = some entry.1.name := by
      have hlast : (Text.words entry.1.name).getLast? = some entry.1.name := by
        rw [hword]
        rfl
      obtain ⟨key, value⟩ := entry
      cases value with
      | null => exact absurd rfl hvalue
      | absent | scalar | map => exact hlast
    have hnames : ∀ other ∈ options, (assigned? other == some entry.1.name) = true ↔
        (other.1.name == entry.1.name) = true := by
      intro other hmem
      rw [beq_iff_eq, beq_iff_eq]
      refine ⟨hother other hmem, fun hname => ?_⟩
      rw [hsame other hmem hname, hsome]
    have hcount : options.names.count entry.1.name = 1 :=
      List.count_eq_one_of_mem hnodup (List.mem_map_of_mem hentry)
    rw [names, List.count, List.countP_map] at hcount
    rw [List.count_filterMap, List.countP_congr hnames]
    exact hcount
  · rw [List.count_eq_zero, List.mem_filterMap]
    rintro ⟨other, hmem, hassigned⟩
    rw [hsame other hmem (hother other hmem hassigned), assigned?, hnull] at hassigned
    simp at hassigned

end OptionMap

theorem Identifier.silent_render (i : Identifier) : Silent i.render :=
  .of_neutral i.neutral_render i.apostrophe_not_mem_render fun h =>
    absurd (isInner_of_mem_render _ h) (by decide)

/-- A statement that creates a keyspace assigns what its effective options assign. -/
theorem CreateKeyspace.assigned_of_render {s : CreateKeyspace} {text : Text}
    (hguarded : s.options.Guarded) (h : s.render = .ok text) :
    assigned text = s.effectiveOptions.filterMap OptionMap.assigned? := by
  obtain ⟨clauses, hclauses, rfl⟩ := Outcome.map_eq_ok_iff.mp h
  have hguard : Silent (Guard.ifNotExists s.ifNotExists) :=
    .word (by cases s.ifNotExists <;> decide)
  exact OptionMap.assigned_withClauses (guarded_effectiveOptions hguarded) hclauses
    (((Silent.word (by decide)).append hguard).append s.name.silent_render)

end CqlDdl
