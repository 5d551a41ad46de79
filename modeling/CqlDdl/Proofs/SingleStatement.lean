import CqlDdl.Proofs.Characters
import CqlDdl.Proofs.OptionMap

/-! The text of every statement is one statement to a scan of its quotes, and holds no comment: each
name, type, clause and literal in it is neutral, whatever texts a caller has put into it, as long as
its options are `Guarded`. Main statement: `Statement.isSingle_of_guarded`. -/

namespace CqlDdl

open Text (Neutral isSteady)

/-- The characters that the names of guarded options are made of. -/
def Text.isOptionNamePart (c : Char) : Bool :=
  isNamePart c || c == ' '

/-- A value that a key takes as text has marks around it, and the apostrophes inside it are doubled
unless there are none. -/
def OptionKey.Guards (key : OptionKey) : OptionValue → Prop
  | .scalar value => key.type = .string → key.quotesValue = true ∧
      (key.escapesValue = true ∨ Text.apostrophe ∉ value.render)
  | .null | .absent | .map _ => True

/-- The options of a statement keep to their places: their names are made of letters, digits,
underscores and blanks, and every text among their values, also inside maps, is guarded. -/
structure OptionMap.Guarded (options : OptionMap) : Prop where
  names : ∀ entry ∈ options, entry.1.name.all Text.isOptionNamePart = true
  values : ∀ entry ∈ options ++ options.nested, entry.1.Guards entry.2

/-! ### Names and types -/

theorem Identifier.neutral_render (i : Identifier) : Neutral i.render := by
  unfold render
  split
  · exact .enclosed (by decide) _
  · rename_i h
    have hbare := i.bare (by simpa using h)
    simp only [isBareName, Bool.and_eq_true] at hbare
    exact .of_forall fun c hc =>
      Text.isSteady_of_isNamePart (Text.isNamePart_of_isBareShape hbare.1 c hc)

theorem QualifiedName.neutral_render (n : QualifiedName) : Neutral n.render := by
  unfold render
  split
  · exact (Identifier.neutral_render _).append (.cons (by decide) n.name.neutral_render)
  · exact n.name.neutral_render

mutual

theorem DataType.neutral_render : (type : DataType) → Neutral type.render
  | .native type => .word (by cases type <;> decide)
  | .list element | .set element | .frozen element =>
    (Neutral.word_append (by decide) element.neutral_render).append_word (by decide)
  | .map key value =>
    (((Neutral.word_append (by decide) key.neutral_render).append_word (by decide)).append
      value.neutral_render).append_word (by decide)
  | .tuple elements =>
    (Neutral.word_append (by decide)
      (.joined (.word (by decide)) (DataType.neutral_renderEach elements))).append_word (by decide)
  | .declared name => name.neutral_render

theorem DataType.neutral_renderEach :
    (types : List DataType) → ∀ part ∈ DataType.renderEach types, Neutral part
  | [] => fun _ h => nomatch h
  | type :: rest => fun part h => by
    rcases List.mem_cons.mp h with rfl | h
    · exact type.neutral_render
    · exact DataType.neutral_renderEach rest part h

end

/-! ### Columns and changes -/

theorem Column.neutral_definition (column : Column) : Neutral column.definition :=
  column.name.neutral_render.append (.cons (by decide) column.type.neutral_render)

theorem neutral_columnNames (columns : List Column) : Neutral (columnNames columns) :=
  .joined (.word (by decide)) (List.forall_mem_map.mpr fun column _ => column.name.neutral_render)

theorem neutral_primaryKey (columns : List Column) : Neutral (primaryKey columns) := by
  have hpartition : Neutral (if 1 < (columns.filter Column.isPartitioned).length then
      '(' :: (columnNames (columns.filter Column.isPartitioned) ++ [')'])
      else columnNames (columns.filter Column.isPartitioned)) := by
    split
    · exact .cons (by decide) ((neutral_columnNames _).append_word (by decide))
    · exact neutral_columnNames _
  unfold primaryKey
  simp only
  split
  · exact hpartition
  · exact (hpartition.append_word (by decide)).append (neutral_columnNames _)

theorem Column.neutral_ordered? {column : Column} {text : Text} (h : column.ordered? = some text) :
    Neutral text := by
  unfold ordered? at h
  split at h
  · obtain ⟨order, -, rfl⟩ := Option.map_eq_some_iff.mp h
    exact column.name.neutral_render.append (.cons (by decide) (.word (by cases order <;> decide)))
  · simp at h

theorem neutral_clusteringOrder? (columns : List Column) :
    ∀ clause ∈ (clusteringOrder? columns).toList, Neutral clause := by
  intro clause h
  unfold clusteringOrder? at h
  simp only at h
  split at h
  · simp at h
  · simp only [Option.toList_some, List.mem_singleton] at h
    subst h
    refine (Neutral.word_append (by decide) (.joined (.word (by decide)) ?_)).append_word
      (by decide)
    intro part hpart
    obtain ⟨column, -, hcolumn⟩ := List.mem_filterMap.mp hpart
    exact Column.neutral_ordered? hcolumn

theorem ColumnChange.neutral_render : (change : ColumnChange) → Neutral change.render
  | .add name type =>
    (Neutral.word_append (by decide) name.neutral_render).append
      (.cons (by decide) type.neutral_render)
  | .drop name => .word_append (by decide) name.neutral_render
  | .alter name type =>
    ((Neutral.word_append (by decide) name.neutral_render).append_word (by decide)).append
      type.neutral_render
  | .rename name target =>
    ((Neutral.word_append (by decide) name.neutral_render).append_word (by decide)).append
      target.neutral_render

theorem FieldChange.neutral_clauseAfter (previous : Option FieldChange.Kind) :
    (change : FieldChange) → Neutral (change.clauseAfter previous)
  | .add name type =>
    (Neutral.word_append (by decide) name.neutral_render).append
      (.cons (by decide) type.neutral_render)
  | .alter name type =>
    ((Neutral.word_append (by decide) name.neutral_render).append_word (by decide)).append
      type.neutral_render
  | .rename name target => by
    have hverb : Neutral (if previous = some .rename then "AND ".toList else "RENAME ".toList) := by
      split
      · exact .word (by decide)
      · exact .word (by decide)
    exact ((hverb.append name.neutral_render).append_word (by decide)).append target.neutral_render

/-! ### Options -/

/-- The text of a value may stand without marks: it is a number, a truth value, or the one word for
any map, and it is empty only where there is no value. -/
structure OptionValue.StandsBare (value : OptionValue) : Prop where
  form : value.render.Spaced ∨ value.render = "[object Map]".toList
  nonempty : value ≠ .null → value.render ≠ []

theorem OptionKey.mark_of_standsBare (key : OptionKey) {value : OptionValue}
    (h : value.StandsBare) : key.mark value.render = Text.literal value.render ∨
      key.mark value.render = value.render := by
  have hmark : Text.apostrophe ∉ value.render := by
    rcases h.form with hspaced | hmap
    · exact hspaced.apostrophe_not_mem
    · rw [hmap]
      decide
  rw [mark_of_not_mem hmark]
  split
  · exact .inl rfl
  · exact .inr rfl

theorem OptionKey.eq_literal_or_standsBare {key : OptionKey} {value : OptionValue}
    (hguards : key.Guards value) (hcheck : key.check value = .ok ()) :
    key.mark value.render = Text.literal value.render ∨ value.StandsBare := by
  cases value with
  | null => exact .inr ⟨.inl .nil, fun h => absurd rfl h⟩
  | absent => exact .inr ⟨.inl (.word (by decide)), fun _ => List.cons_ne_nil _ _⟩
  | map entries => exact .inr ⟨.inr rfl, fun _ => List.cons_ne_nil _ _⟩
  | scalar value =>
    obtain ⟨htakes, haccepts⟩ := (check_of_isGiven rfl).mp hcheck
    unfold accepts at haccepts
    -- Only a text can hold a mark, and the key has marks put around it.
    cases htype : key.type with
    | void => simp [takesValue, htype] at htakes
    | string =>
      obtain ⟨hquotes, hescapes⟩ := hguards htype
      exact .inl (mark_eq_literal hquotes hescapes)
    | number =>
      simp only [htype] at haccepts
      exact .inr ⟨.inl (Scalar.spaced_of_isNumeric haccepts),
        fun _ => Scalar.render_ne_nil_of_isNumeric haccepts⟩
    | boolean =>
      simp only [htype] at haccepts
      exact .inr ⟨.inl (Scalar.spaced_of_isLogical haccepts),
        fun _ => Scalar.render_ne_nil_of_isLogical haccepts⟩
    | map => simp [htype] at haccepts

/-- A value that passes the check of a guarding key is a string literal, or it stands bare. -/
theorem OptionKey.mark_of_guards {key : OptionKey} {value : OptionValue}
    (hguards : key.Guards value) (hcheck : key.check value = .ok ()) :
    key.mark value.render = Text.literal value.render ∨
      key.mark value.render = value.render ∧ value.StandsBare := by
  rcases eq_literal_or_standsBare hguards hcheck with hliteral | hbare
  · exact .inl hliteral
  · exact (key.mark_of_standsBare hbare).imp_right fun hself => ⟨hself, hbare⟩

theorem OptionKey.neutral_mark_of_check {key : OptionKey} {value : OptionValue}
    (hguards : key.Guards value) (hcheck : key.check value = .ok ()) :
    Neutral (key.mark value.render) := by
  rcases mark_of_guards hguards hcheck with hmark | ⟨hmark, hspaced | hmap, -⟩
  · rw [hmark]
    exact .literal _
  · rw [hmark]
    exact hspaced.neutral
  · rw [hmark, hmap]
    exact .word (by decide)

theorem OptionKey.neutral_write {key : OptionKey} {value : OptionValue} {text : Text}
    (hguards : key.Guards value) (h : key.write value = .ok text) : Neutral text := by
  by_cases hnull : value = .null
  · subst hnull
    obtain rfl : [] = text := Except.ok.inj h
    exact .nil
  · rw [write_of_ne_null hnull] at h
    obtain ⟨⟨⟩, hcheck, rfl⟩ := Outcome.map_eq_ok_iff.mp h
    exact neutral_mark_of_check hguards hcheck

namespace OptionMap

theorem neutral_renderEntry {entry : OptionKey × OptionValue} {text : Text}
    (hguards : entry.1.Guards entry.2) (h : renderEntry entry = .ok text) : Neutral text := by
  obtain ⟨value, hvalue, rfl⟩ := Outcome.map_eq_ok_iff.mp h
  exact ((Neutral.literal _).append_word (by decide)).append
    (OptionKey.neutral_write hguards hvalue)

theorem neutral_render {entries : OptionMap} {text : Text}
    (hguards : ∀ entry ∈ entries, entry.1.Guards entry.2) (h : render entries = .ok text) :
    Neutral text := by
  unfold render at h
  split at h
  · obtain rfl : [] = text := Except.ok.inj h
    exact .nil
  · obtain ⟨parts, hparts, rfl⟩ := Outcome.map_eq_ok_iff.mp h
    refine (Neutral.word_append (by decide) (.joined (.word (by decide)) ?_)).append_word
      (by decide)
    intro part hpart
    obtain ⟨entry, hentry, hrender⟩ := Entries.exists_of_mem_traverse hparts hpart
    exact neutral_renderEntry (hguards entry hentry) hrender

theorem neutral_clause {entry : OptionKey × OptionValue} {text : Text}
    (hname : entry.1.name.all Text.isOptionNamePart = true) (hguards : entry.1.Guards entry.2)
    (hnested : ∀ e ∈ entry.2.entries, e.1.Guards e.2) (h : clause entry = .ok text) :
    Neutral text := by
  have hname : Neutral entry.1.name := .of_forall fun c hc =>
    Text.isSteady_of_class (by decide) (by decide) (by decide) (by decide)
      (List.all_eq_true.mp hname c hc)
  have hassigned : ∀ {value : Text}, Neutral value →
      Neutral (entry.1.name ++ " = ".toList ++ value) :=
    fun hvalue => (hname.append_word (by decide)).append hvalue
  obtain ⟨key, value⟩ := entry
  cases value with
  | null =>
    obtain rfl := Except.ok.inj h
    exact hname
  | absent | scalar =>
    obtain ⟨value, hvalue, rfl⟩ := Outcome.map_eq_ok_iff.mp h
    exact hassigned (OptionKey.neutral_write hguards hvalue)
  | map entries =>
    simp only [clause] at h
    split at h
    · simp at h
    · obtain ⟨value, hvalue, rfl⟩ := Outcome.map_eq_ok_iff.mp h
      exact hassigned (neutral_render hnested hvalue)

theorem Guarded.guards {options : OptionMap} (h : options.Guarded)
    {entry : OptionKey × OptionValue} (hentry : entry ∈ options) :
    entry.1.Guards entry.2 ∧ ∀ e ∈ entry.2.entries, e.1.Guards e.2 :=
  ⟨h.values entry (List.mem_append_left _ hentry), fun e he =>
    h.values e (List.mem_append_right _ (List.mem_flatMap.mpr ⟨entry, hentry, he⟩))⟩

theorem Guarded.neutral_clauses {options : OptionMap} {clauses : List Text}
    (hguarded : options.Guarded) (h : options.clauses = .ok clauses) :
    ∀ clause ∈ clauses, Neutral clause := by
  intro clause hclause
  obtain ⟨entry, hentry, hrender⟩ := Entries.exists_of_mem_traverse h hclause
  obtain ⟨hguards, hnested⟩ := hguarded.guards hentry
  exact neutral_clause (hguarded.names entry hentry) hguards hnested hrender

end OptionMap

theorem neutral_withClauses {clauses : List Text} (h : ∀ clause ∈ clauses, Neutral clause) :
    Neutral (withClauses clauses) := by
  unfold withClauses
  split
  · exact .nil
  · exact .word_append (by decide) (.joined (.word (by decide)) h)

/-! ### Statements -/

theorem Guard.neutral_ifNotExists (flag : Bool) : Neutral (Guard.ifNotExists flag) :=
  .word (by cases flag <;> decide)

theorem Guard.neutral_ifExists (flag : Bool) : Neutral (Guard.ifExists flag) :=
  .word (by cases flag <;> decide)

theorem OptionMap.Guarded.append {s t : OptionMap} (hs : s.Guarded) (ht : t.Guarded) :
    OptionMap.Guarded (s ++ t) where
  names := List.forall_mem_append.mpr ⟨hs.names, ht.names⟩
  values entry h := by
    simp only [OptionMap.nested, List.flatMap_append, List.mem_append] at h
    have hsv := hs.values entry
    have htv := ht.values entry
    simp only [List.mem_append] at hsv htv
    rcases h with (h | h) | h | h
    · exact hsv (.inl h)
    · exact htv (.inl h)
    · exact hsv (.inr h)
    · exact htv (.inr h)

theorem CreateKeyspace.guarded_defaultReplication (s : CreateKeyspace) :
    s.defaultReplication.Guarded := by
  unfold defaultReplication
  split
  · exact ⟨by simp, by simp [OptionMap.nested]⟩
  · refine ⟨List.forall_mem_singleton.mpr (by decide), fun entry h => ?_⟩
    simp only [OptionMap.nested, OptionMap.simpleReplication, OptionValue.entries,
      List.flatMap_cons, List.flatMap_nil, List.append_nil, List.cons_append, List.nil_append,
      List.mem_cons, List.not_mem_nil, or_false] at h
    rcases h with rfl | rfl | rfl
    · trivial
    · exact fun _ => ⟨rfl, .inr (by decide)⟩
    · exact fun h => absurd h (by decide)

theorem CreateKeyspace.guarded_defaultDurableWrites (s : CreateKeyspace) :
    s.defaultDurableWrites.Guarded := by
  unfold defaultDurableWrites
  split
  · exact ⟨by simp, by simp [OptionMap.nested]⟩
  · refine ⟨List.forall_mem_singleton.mpr (by decide), fun entry h => ?_⟩
    obtain rfl := List.mem_singleton.mp h
    exact fun h => absurd h (by decide)

theorem CreateKeyspace.guarded_effectiveOptions {s : CreateKeyspace} (h : s.options.Guarded) :
    s.effectiveOptions.Guarded :=
  (s.guarded_defaultReplication.append h).append s.guarded_defaultDurableWrites

theorem CreateKeyspace.isTerminated_of_render {s : CreateKeyspace} {text : Text}
    (hguarded : s.options.Guarded) (h : s.render = .ok text) : text.IsTerminated := by
  obtain ⟨clauses, hclauses, rfl⟩ := Outcome.map_eq_ok_iff.mp h
  have hwith := neutral_withClauses
    (s.guarded_effectiveOptions hguarded |>.neutral_clauses hclauses)
  exact (((Neutral.word_append (by decide) (Guard.neutral_ifNotExists _)).append
    s.name.neutral_render).append hwith).isTerminated

theorem AlterKeyspace.isTerminated_of_render {s : AlterKeyspace} {text : Text}
    (hguarded : s.options.Guarded) (h : s.render = .ok text) : text.IsTerminated := by
  obtain ⟨clauses, hclauses, rfl⟩ := Outcome.map_eq_ok_iff.mp h
  have hwith := neutral_withClauses (hguarded.neutral_clauses hclauses)
  exact ((Neutral.word_append (by decide) s.name.neutral_render).append hwith).isTerminated

theorem CreateTable.neutral_definitions (s : CreateTable) :
    ∀ definition ∈ s.definitions, Neutral definition := by
  intro definition h
  rcases List.mem_append.mp h with h | h
  · obtain ⟨column, -, rfl⟩ := List.mem_map.mp h
    exact column.neutral_definition
  · obtain rfl := List.mem_singleton.mp h
    exact (Neutral.word_append (by decide) (neutral_primaryKey _)).append_word (by decide)

theorem CreateTable.isTerminated_of_render {s : CreateTable} {text : Text}
    (hguarded : s.options.Guarded) (h : s.render = .ok text) : text.IsTerminated := by
  unfold render at h
  split at h
  · obtain ⟨clauses, hclauses, rfl⟩ := Outcome.map_eq_ok_iff.mp h
    have hdefinitions : Neutral (Text.joined ", ".toList s.definitions) :=
      .joined (.word (by decide)) s.neutral_definitions
    have hwith := neutral_withClauses (List.forall_mem_append.mpr
      ⟨neutral_clusteringOrder? s.columns, hguarded.neutral_clauses hclauses⟩)
    exact ((((((Neutral.word_append (by decide) (Guard.neutral_ifNotExists _)).append
      s.name.neutral_render).append_word (by decide)).append hdefinitions).append_word
      (by decide)).append hwith).isTerminated
  · simp at h

theorem AlterTable.neutral_changesText (s : AlterTable) : Neutral s.changesText := by
  unfold changesText
  induction s.changes with
  | nil => exact .nil
  | cons change rest ih => exact .append (.cons (by decide) change.neutral_render) ih

theorem AlterTable.isTerminated_of_render {s : AlterTable} {text : Text}
    (hguarded : s.options.Guarded) (h : s.render = .ok text) : text.IsTerminated := by
  unfold render at h
  split at h
  · simp at h
  split at h
  · simp at h
  · obtain ⟨clauses, hclauses, rfl⟩ := Outcome.map_eq_ok_iff.mp h
    have hwith := neutral_withClauses (hguarded.neutral_clauses hclauses)
    exact (((Neutral.word_append (by decide) s.name.neutral_render).append
      s.neutral_changesText).append hwith).isTerminated

theorem CreateIndex.neutral_target (s : CreateIndex) : Neutral s.target := by
  have hword : s.function.word.all isSteady = true := by cases s.function <;> decide
  unfold target
  split
  · exact s.column.neutral_render
  · exact .word_append hword (.cons (by decide) (s.column.neutral_render.append_word (by decide)))

theorem CreateIndex.neutral_renderOptions (options : List (Text × Text)) :
    Neutral (CreateIndex.renderOptions options) := by
  refine .cons (by decide) (.append_word (.joined (.word (by decide)) ?_) (by decide))
  intro part hpart
  obtain ⟨entry, -, rfl⟩ := List.mem_map.mp hpart
  exact ((Neutral.literal _).append_word (by decide)).append (.literal _)

theorem CreateIndex.neutral_parts (s : CreateIndex) : ∀ part ∈ s.parts, Neutral part := by
  unfold parts
  simp only [List.forall_mem_append]
  refine ⟨⟨⟨⟨⟨?_, ?_⟩, ?_⟩, ?_⟩, ?_⟩, ?_⟩
  · refine List.forall_mem_singleton.mpr ?_
    split
    · exact .word (by decide)
    · exact .word (by decide)
  · split
    · exact List.forall_mem_singleton.mpr (.word (by decide))
    · exact fun _ h => nomatch h
  · cases s.name with
    | none => exact fun _ h => nomatch h
    | some name => exact List.forall_mem_singleton.mpr name.neutral_render
  · intro part hpart
    simp only [List.mem_cons, List.not_mem_nil, or_false] at hpart
    rcases hpart with rfl | rfl | rfl
    · exact .word (by decide)
    · exact s.tableName.neutral_render
    · exact .cons (by decide) (s.neutral_target.append_word (by decide))
  · split
    · exact List.forall_mem_cons.mpr
        ⟨.word (by decide), List.forall_mem_singleton.mpr (.literal _)⟩
    · exact fun _ h => nomatch h
  · split
    · exact fun _ h => nomatch h
    · exact List.forall_mem_cons.mpr
        ⟨.word (by decide), List.forall_mem_singleton.mpr (neutral_renderOptions _)⟩

theorem CreateIndex.isTerminated_render (s : CreateIndex) : s.render.IsTerminated :=
  (Neutral.joined (.word (by decide)) s.neutral_parts).isTerminated

theorem CreateUserType.isTerminated_of_render {s : CreateUserType} {text : Text}
    (h : s.render = .ok text) : text.IsTerminated := by
  unfold render at h
  split at h
  · simp at h
  · obtain rfl := Except.ok.inj h
    have hfields : Neutral (Text.joined ", ".toList (s.fields.map Column.definition)) :=
      .joined (.word (by decide)) (List.forall_mem_map.mpr fun field _ => field.neutral_definition)
    rw [show ");".toList = [')'] ++ [';'] from rfl, ← List.append_assoc]
    exact (((((Neutral.word_append (by decide) (Guard.neutral_ifNotExists _)).append
      s.name.neutral_render).append_word (by decide)).append hfields).append_word
      (by decide)).isTerminated

theorem AlterUserType.neutral_foldl (changes : List FieldChange) (progress : Progress)
    (h : Neutral progress.text) : Neutral (changes.foldl Progress.append progress).text := by
  induction changes generalizing progress with
  | nil => exact h
  | cons change rest ih =>
    exact ih _ (h.append (.cons (by decide) (change.neutral_clauseAfter progress.previous)))

theorem AlterUserType.isTerminated_of_render {s : AlterUserType} {text : Text}
    (h : s.render = .ok text) : text.IsTerminated := by
  unfold render at h
  split at h
  · simp at h
  · obtain rfl := Except.ok.inj h
    have hopening : Neutral s.opening.text := .word_append (by decide) s.name.neutral_render
    exact (neutral_foldl s.changes s.opening hopening).isTerminated

theorem isTerminated_removal {verb name : Text} {flag : Bool} (hverb : verb.all isSteady = true)
    (hname : Neutral name) : Text.IsTerminated (verb ++ Guard.ifExists flag ++ name ++ [';']) :=
  ((Neutral.word_append hverb (Guard.neutral_ifExists flag)).append hname).isTerminated

theorem Statement.isTerminated_of_render {s : Statement} {text : Text}
    (hguarded : s.options.Guarded) (h : s.render = .ok text) : text.IsTerminated := by
  cases s with
  | createKeyspace s => exact s.isTerminated_of_render hguarded h
  | alterKeyspace s => exact s.isTerminated_of_render hguarded h
  | createTable s => exact s.isTerminated_of_render hguarded h
  | alterTable s => exact s.isTerminated_of_render hguarded h
  | createUserType s => exact s.isTerminated_of_render h
  | alterUserType s => exact s.isTerminated_of_render h
  | createIndex s =>
    obtain rfl := Except.ok.inj h
    exact s.isTerminated_render
  | dropKeyspace s =>
    obtain rfl := Except.ok.inj h
    exact isTerminated_removal (by decide) s.name.neutral_render
  | dropTable s =>
    obtain rfl := Except.ok.inj h
    exact isTerminated_removal (by decide) s.name.neutral_render
  | dropIndex s =>
    obtain rfl := Except.ok.inj h
    exact isTerminated_removal (by decide) s.name.neutral_render
  | dropUserType s =>
    obtain rfl := Except.ok.inj h
    exact isTerminated_removal (by decide) s.name.neutral_render

/-- The text of every statement is one statement: a scan of its quotes ends outside them, and sees
one semicolon, at the end. The text may hold any names and literals, as long as the options of the
statement are guarded. -/
theorem Statement.isSingle_of_guarded {s : Statement} {text : Text} (hguarded : s.options.Guarded)
    (h : s.render = .ok text) : text.IsSingle :=
  (isTerminated_of_render hguarded h).isSingle

/-- A table of notes whose column has a mark in its name, and whose comment holds both marks and a
semicolon. -/
def notesTable : CreateTable where
  name := ⟨none, "notes".toList, false, by decide, by decide⟩
  columns := [⟨⟨"a\"b".toList, true, by decide, by decide⟩, .native .text, .partitioned, none⟩]
  options := [(TableOption.comment, .scalar (.text "it's; \"so\"".toList))]

/-- The text of the table of notes: its name and its comment hold marks, and the comment holds a
semicolon. -/
def notesText : Text :=
  "CREATE TABLE notes (\"a\"\"b\" text, PRIMARY KEY (\"a\"\"b\"))".toList ++
    " WITH comment = 'it''s; \"so\"';".toList

theorem Statement.isSingle_notesTable :
    (Statement.createTable notesTable).options.Guarded ∧
      (Statement.createTable notesTable).render = .ok notesText ∧ notesText.IsSingle := by
  have hguarded : (Statement.createTable notesTable).options.Guarded := by
    refine ⟨List.forall_mem_singleton.mpr (by decide), List.forall_mem_singleton.mpr ?_⟩
    exact fun _ => ⟨rfl, .inl rfl⟩
  exact ⟨hguarded, rfl, isSingle_of_guarded hguarded rfl⟩

end CqlDdl
