import CqlDdl.Proofs.Assignments
import CqlDdl.Proofs.OptionHistory
import CqlDdl.Proofs.StatementText

/-! What the creation of a keyspace is written with where it says nothing. Replication and durable
writes are looked up by name, each is added only where it is missing, and a statement that has both
is left as it is; so the defaults come in once, and never beside an option of the same name. Each
option is one clause of the text; the clause assigns the option only if there is a value, and the
texts of others may assign it again unless they are guarded. Main statement:
`CreateKeyspace.effectiveOptions_spec`. -/

namespace CqlDdl

/-- Whatever requests built a statement, it has no two options of one name. -/
theorem Statement.IsBuilt.nodup_names {s : Statement} (h : s.IsBuilt) : s.options.names.Nodup := by
  obtain ⟨kind, first, second, draft, edits, hstart, hbuild⟩ := h
  rw [Draft.options_of_build hbuild, Draft.options_run, Draft.options_of_start hstart]
  exact Entries.nodup_names_foldl_putNamed _

/-! ### Missing options -/

namespace OptionMap

/-- An option that is added where none of its name is there. -/
def unlessSet (options : OptionMap) (entry : OptionKey × OptionValue) : OptionMap :=
  if options.has entry.1 then [] else [entry]

section

variable (options : OptionMap) (entry : OptionKey × OptionValue)

theorem length_unlessSet_le : (options.unlessSet entry).length ≤ 1 := by
  unfold unlessSet
  split <;> simp

theorem names_unlessSet :
    (options.unlessSet entry).names =
      if entry.1.name ∈ options.names then [] else [entry.1.name] := by
  unfold unlessSet
  rw [ite_cond_congr (propext has_eq_true_iff)]
  exact apply_ite names _ _ _

variable {options entry}

theorem unlessSet_eq_nil (h : entry.1.name ∈ options.names) : options.unlessSet entry = [] :=
  if_pos (has_eq_true_iff.mpr h)

theorem eq_of_mem_unlessSet {other : OptionKey × OptionValue}
    (h : other ∈ options.unlessSet entry) : other = entry := by
  unfold unlessSet at h
  split at h
  · simp at h
  · exact List.mem_singleton.mp h

end

end OptionMap

namespace CreateKeyspace

/-! ### Missing names -/

/-- Names with one more before them and one after them, each only where it is missing. -/
def withMissing (first last : Text) (names : List Text) : List Text :=
  (if first ∈ names then [] else [first]) ++ names ++ (if last ∈ names then [] else [last])

section

variable (first last : Text) (names : List Text)

theorem first_mem_withMissing : first ∈ withMissing first last names := by
  unfold withMissing
  by_cases h : first ∈ names <;> simp [h]

theorem last_mem_withMissing : last ∈ withMissing first last names := by
  unfold withMissing
  by_cases h : last ∈ names <;> simp [h]

variable {first last names}

theorem nodup_withMissing (hne : first ≠ last) (h : names.Nodup) :
    (withMissing first last names).Nodup := by
  unfold withMissing
  have hother : ∀ {n : Text}, n ∉ names → ∀ m ∈ names, n ≠ m := by
    rintro n hn m hm rfl
    exact hn hm
  by_cases hfirst : first ∈ names <;> by_cases hlast : last ∈ names
  · simpa [hfirst, hlast] using h
  · simpa [hfirst, hlast, List.nodup_append] using ⟨h, fun m hm => (hother hlast m hm).symm⟩
  · simpa [hfirst, hlast] using h
  · simpa [hfirst, hlast, hne, List.nodup_append] using
      ⟨h, fun m hm => (hother hlast m hm).symm⟩

end

variable {s : CreateKeyspace}

/-! ### Defaults -/

theorem effectiveOptions_eq (s : CreateKeyspace) :
    s.effectiveOptions =
      s.options.unlessSet (KeyspaceOption.replication,
          .map (OptionMap.simpleReplication OptionMap.one)) ++
        s.options ++
          s.options.unlessSet (KeyspaceOption.durableWrites, .scalar (.bool true)) := rfl

theorem names_effectiveOptions (s : CreateKeyspace) :
    s.effectiveOptions.names =
      withMissing "replication".toList "durable_writes".toList s.options.names := by
  rw [effectiveOptions_eq, OptionMap.names_append, OptionMap.names_append,
    OptionMap.names_unlessSet, OptionMap.names_unlessSet]
  rfl

theorem replication_mem_effectiveOptions (s : CreateKeyspace) :
    "replication".toList ∈ s.effectiveOptions.names := by
  rw [names_effectiveOptions]
  exact first_mem_withMissing _ _ _

theorem durableWrites_mem_effectiveOptions (s : CreateKeyspace) :
    "durable_writes".toList ∈ s.effectiveOptions.names := by
  rw [names_effectiveOptions]
  exact last_mem_withMissing _ _ _

/-- Where the statement itself has no two options of one name, the defaults add none. -/
theorem nodup_names_effectiveOptions (h : s.options.names.Nodup) :
    s.effectiveOptions.names.Nodup := by
  rw [names_effectiveOptions]
  exact nodup_withMissing (by decide) h

/-- A statement that says both is written with its own options and no others. -/
theorem effectiveOptions_of_mem (hreplication : "replication".toList ∈ s.options.names)
    (hdurable : "durable_writes".toList ∈ s.options.names) : s.effectiveOptions = s.options := by
  rw [effectiveOptions_eq, OptionMap.unlessSet_eq_nil hreplication,
    OptionMap.unlessSet_eq_nil hdurable, List.nil_append, List.append_nil]

/-- The statement with the defaults among its own options. -/
def completed (s : CreateKeyspace) : CreateKeyspace :=
  { s with options := s.effectiveOptions }

/-- The second time, both options are there. -/
theorem effectiveOptions_completed (s : CreateKeyspace) :
    s.completed.effectiveOptions = s.effectiveOptions :=
  effectiveOptions_of_mem s.replication_mem_effectiveOptions s.durableWrites_mem_effectiveOptions

theorem render_completed (s : CreateKeyspace) : s.completed.render = s.render := by
  rw [render, effectiveOptions_completed]
  rfl

/-! ### The text -/

/-- The text lists the clauses of the effective options, of which there are always some. -/
theorem eq_clauses_of_render {text : Text} (h : s.render = .ok text) :
    text = "CREATE KEYSPACE ".toList ++ Guard.ifNotExists s.ifNotExists ++ s.name.render ++
      " WITH ".toList ++
        Text.joined " AND ".toList (s.effectiveOptions.map OptionMap.writtenClause) ++ [';'] := by
  obtain ⟨clauses, hclauses, rfl⟩ := Outcome.map_eq_ok_iff.mp h
  obtain rfl := OptionMap.eq_map_of_clauses hclauses
  have hsome : ¬ (s.effectiveOptions.map OptionMap.writtenClause).isEmpty = true := by
    rw [List.isEmpty_iff, List.map_eq_nil_iff]
    intro hnil
    have hmem := s.replication_mem_effectiveOptions
    rw [hnil] at hmem
    exact nomatch hmem
  rw [withClauses, if_neg hsome]
  simp only [List.append_assoc]

/-- A keyspace is created with a replication and with a word on durable writes. What the statement
says stands as it is, with at most one default before it and at most one after it, and once the
defaults are in, there is nothing more to add. The text has one clause for each of the effective
options, in order. If the options are guarded, what it assigns are the last words of the names of
those that have a value. No requests, whatever keys they set these options under, leave a statement
that sets an option twice; so a built statement with guarded options assigns replication, and
durable writes, exactly once if there is a value and no other name ends in the same word, and not at
all if there is none. -/
theorem effectiveOptions_spec :
    (∀ s : CreateKeyspace,
      "replication".toList ∈ s.effectiveOptions.names ∧
        "durable_writes".toList ∈ s.effectiveOptions.names ∧
        (∃ before after, s.effectiveOptions = before ++ s.options ++ after ∧
          before.length ≤ 1 ∧ after.length ≤ 1) ∧
        s.completed.effectiveOptions = s.effectiveOptions ∧ s.completed.render = s.render ∧
        ∀ text, s.render = .ok text →
          text = "CREATE KEYSPACE ".toList ++ Guard.ifNotExists s.ifNotExists ++ s.name.render ++
            " WITH ".toList ++ Text.joined " AND ".toList
              (s.effectiveOptions.map OptionMap.writtenClause) ++ [';'] ∧
          (s.options.Guarded →
            text.assigned = s.effectiveOptions.filterMap OptionMap.assigned?)) ∧
    ∀ s : CreateKeyspace, (Statement.createKeyspace s).IsBuilt →
      s.effectiveOptions.names.Nodup ∧
        s.effectiveOptions.names.count "replication".toList = 1 ∧
        s.effectiveOptions.names.count "durable_writes".toList = 1 ∧
        ∀ text, s.render = .ok text → s.options.Guarded → ∀ entry ∈ s.effectiveOptions,
          entry.1.name ∈ ["replication".toList, "durable_writes".toList] →
            (∀ other ∈ s.options, OptionMap.assigned? other = some entry.1.name →
              other.1.name = entry.1.name) →
            (entry.2 ≠ .null → text.assigned.count entry.1.name = 1) ∧
              (entry.2 = .null → text.assigned.count entry.1.name = 0) := by
  refine ⟨fun s => ?_, fun s hbuilt => ?_⟩
  · exact ⟨s.replication_mem_effectiveOptions, s.durableWrites_mem_effectiveOptions,
      ⟨_, _, s.effectiveOptions_eq, OptionMap.length_unlessSet_le _ _,
        OptionMap.length_unlessSet_le _ _⟩,
      s.effectiveOptions_completed, s.render_completed, fun text h =>
        ⟨eq_clauses_of_render h, fun hguarded => assigned_of_render hguarded h⟩⟩
  · have hnodup := nodup_names_effectiveOptions hbuilt.nodup_names
    refine ⟨hnodup, List.count_eq_one_of_mem hnodup s.replication_mem_effectiveOptions,
      List.count_eq_one_of_mem hnodup s.durableWrites_mem_effectiveOptions, ?_⟩
    intro text h hguarded entry hentry hname hother
    have hword : Text.words entry.1.name = [entry.1.name] := by
      simp only [List.mem_cons, List.not_mem_nil, or_false] at hname
      rcases hname with hname | hname <;> rw [hname] <;> rfl
    rw [assigned_of_render hguarded h]
    refine OptionMap.count_filterMap_assigned? hnodup hentry hword fun other hmem => ?_
    rw [effectiveOptions_eq] at hmem
    rcases List.mem_append.mp hmem with hmem | hmem
    · rcases List.mem_append.mp hmem with hmem | hmem
      · obtain rfl := OptionMap.eq_of_mem_unlessSet hmem
        exact Option.some.inj
      · exact hother other hmem
    · obtain rfl := OptionMap.eq_of_mem_unlessSet hmem
      exact Option.some.inj

/-- A keyspace whose options were set under keys of the caller's own. -/
def museum (options : OptionMap) : CreateKeyspace where
  name := ⟨"museum".toList, false, by decide, by decide⟩
  options

/-- A key of a caller's own that has the name of another key. -/
def ownKey (key : OptionKey) (type : ValueType) (flags : OptionFlags) : OptionKey :=
  { toOptionFlags := flags, name := key.name, type, named := key.named }

/-- Options under quoting keys, of which one took the place of the key that the library has for
durable writes. Its text looks like a clause of its own. -/
def quotedOptions : OptionMap :=
  [(ownKey KeyspaceOption.durableWrites .string { quotesValue := true },
      .scalar (.text "no AND replication = 2".toList)),
    (ownKey KeyspaceOption.replication .string { quotesValue := true },
      .scalar (.text "everywhere".toList))]

theorem isBuilt_quotedOptions : (Statement.createKeyspace (museum quotedOptions)).IsBuilt :=
  ⟨.createKeyspace, some (.text "museum".toList), none, museum [],
    [.option (.durableWrites false),
      .option (.option (.setNamed "replication".toList (.scalar (.text "everywhere".toList))
        { quotesValue := true })),
      .option (.option (.setNamed "durable_writes".toList
        (.scalar (.text "no AND replication = 2".toList)) { quotesValue := true }))],
    rfl, rfl⟩

def quotedText : Text :=
  "CREATE KEYSPACE museum WITH durable_writes = 'no AND replication = 2'".toList ++
    " AND replication = 'everywhere';".toList

/-- Nothing is added to such options, and each of them is assigned once. -/
theorem effectiveOptions_museum :
    (museum quotedOptions).effectiveOptions = quotedOptions ∧
      (Statement.createKeyspace (museum quotedOptions)).IsBuilt ∧
      (museum quotedOptions).render = .ok quotedText ∧
      quotedText.assigned = ["durable_writes".toList, "replication".toList] ∧
      quotedText.assigned.count "durable_writes".toList = 1 ∧
      quotedText.assigned.count "replication".toList = 1 := by
  have hbuilt := isBuilt_quotedOptions
  have hrender : (museum quotedOptions).render = .ok quotedText := rfl
  have hguarded : (museum quotedOptions).options.Guarded := by
    refine ⟨?_, ?_⟩
    · exact List.forall_mem_cons.mpr ⟨by decide, List.forall_mem_singleton.mpr (by decide)⟩
    · exact List.forall_mem_cons.mpr ⟨fun _ => ⟨rfl, .inr (by decide)⟩,
        List.forall_mem_singleton.mpr fun _ => ⟨rfl, .inr (by decide)⟩⟩
  have hassigned := ((effectiveOptions_spec.1 _).2.2.2.2.2 quotedText hrender).2 hguarded
  have hother : ∀ other ∈ quotedOptions, ∀ name, OptionMap.assigned? other = some name →
      other.1.name = name :=
    List.forall_mem_cons.mpr ⟨fun _ h => Option.some.inj h,
      List.forall_mem_singleton.mpr fun _ h => Option.some.inj h⟩
  have hcount := (effectiveOptions_spec.2 _ hbuilt).2.2.2 quotedText hrender hguarded
  refine ⟨rfl, hbuilt, hrender, hassigned, ?_, ?_⟩
  · exact (hcount _ List.mem_cons_self (by decide) fun other h => hother other h _).1 nofun
  · exact (hcount _ (List.mem_cons_of_mem _ List.mem_cons_self) (by decide) fun other h =>
      hother other h _).1 nofun

/-- An option without a value, and one whose text has no marks around it. -/
def emptyOptions : OptionMap :=
  [(ownKey KeyspaceOption.durableWrites .void {}, .null)]

def rawOptions : OptionMap :=
  [({ name := "x".toList, type := .string, named := by decide },
    .scalar (.text "1 AND durable_writes = false".toList))]

def emptyText : Text :=
  "CREATE KEYSPACE museum WITH replication = \x7b 'class' : 'SimpleStrategy',".toList ++
    " 'replication_factor' : 1 \x7d AND durable_writes;".toList

def rawText : Text :=
  "CREATE KEYSPACE museum WITH replication = \x7b 'class' : 'SimpleStrategy',".toList ++
    " 'replication_factor' : 1 \x7d AND x = 1 AND durable_writes = false".toList ++
      " AND durable_writes = true;".toList

/-- Without a value an option is not assigned, and a text without marks can assign it once more. -/
theorem not_assigned_once :
    ((Statement.createKeyspace (museum emptyOptions)).IsBuilt ∧
      (museum emptyOptions).render = .ok emptyText ∧
      emptyText.assigned.count "durable_writes".toList = 0) ∧
    (Statement.createKeyspace (museum rawOptions)).IsBuilt ∧
      (museum rawOptions).render = .ok rawText ∧
      rawText.assigned.count "durable_writes".toList = 2 := by
  refine ⟨⟨?_, ?_, by decide +kernel⟩, ?_, ?_, by decide +kernel⟩
  · exact ⟨.createKeyspace, some (.text "museum".toList), none, museum [],
      [.option (.option (.setNamed "durable_writes".toList .null {}))], rfl, rfl⟩
  · decide +kernel
  · exact ⟨.createKeyspace, some (.text "museum".toList), none, museum [],
      [.option (.option (.setNamed "x".toList
        (.scalar (.text "1 AND durable_writes = false".toList)) {}))], rfl, rfl⟩
  · decide +kernel

end CreateKeyspace

end CqlDdl
