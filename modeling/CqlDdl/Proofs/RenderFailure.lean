import CqlDdl.Proofs.OptionRequests
import CqlDdl.Proofs.StatementText

/-! Statements that cannot be written though they were built. A draft checks a value when it is set,
but not the values inside a map, so these can still be rejected when the statement is written; and
compact storage is refused where a table is altered. Nothing else fails. Main statement:
`Statement.render_of_isBuilt`. -/

namespace CqlDdl

/-- The entry holds a value, and it fails the check of the key under which it stands. -/
def OptionEntry.IsRejected (entry : OptionEntry) (e : Error) : Prop :=
  entry.2 ≠ .null ∧ entry.1.check entry.2 = .error e

/-- How the first entry inside a map fails that is rejected, in written order. -/
def OptionMap.FirstRejection (options : OptionMap) (e : Error) : Prop :=
  ∃ before entry after, options.nested = before ++ entry :: after ∧
    (∀ passed ∈ before, ∀ failure, ¬ OptionEntry.IsRejected passed failure) ∧
      OptionEntry.IsRejected entry e

/-- The statement alters a table and asks for compact storage. -/
def Statement.AltersCompactStorage (s : Statement) : Prop :=
  ∃ t, s = .alterTable t ∧ "COMPACT STORAGE".toList ∈ t.options.names

/-- The failure to write the value of an entry inside a map. -/
def OptionEntry.rejection? (entry : OptionEntry) : Option Error :=
  Outcome.failure? (entry.1.write entry.2)

namespace OptionEntry

theorem rejection?_eq_some_iff {entry : OptionEntry} {e : Error} :
    entry.rejection? = some e ↔ entry.IsRejected e := by
  unfold rejection? IsRejected
  by_cases hnull : entry.2 = .null
  · simp [hnull, OptionKey.write, Outcome.failure?]
  · rw [OptionKey.write_of_ne_null hnull, Outcome.failure?_map, Outcome.failure?_eq_some_iff]
    simp [hnull]

theorem rejection?_eq_none_iff {entry : OptionEntry} :
    entry.rejection? = none ↔ ∀ e, ¬ entry.IsRejected e := by
  simp only [← rejection?_eq_some_iff, Option.eq_none_iff_forall_ne_some, ne_eq]

theorem IsChecked.not_isRejected {entry : OptionEntry} (h : entry.IsChecked) (e : Error) :
    ¬ entry.IsRejected e :=
  fun hrejected => absurd (h.1.symm.trans hrejected.2) (by simp)

/-- A check finds fault with the specification, and fails in no other way. -/
theorem IsRejected.eq_invalidSpecification {entry : OptionEntry} {e : Error}
    (h : entry.IsRejected e) : ∃ fault, e = .invalidSpecification fault := by
  have hcheck := h.2
  unfold OptionKey.check at hcheck
  split at hcheck
  · split at hcheck
    · exact ⟨_, (Except.error.inj hcheck).symm⟩
    · simp at hcheck
  · split at hcheck
    · split at hcheck
      · exact ⟨_, (Except.error.inj hcheck).symm⟩
      · simp at hcheck
    · split at hcheck
      · simp at hcheck
      · exact ⟨_, (Except.error.inj hcheck).symm⟩

end OptionEntry

namespace OptionMap

theorem findSome?_rejection?_eq_some_iff {options : OptionMap} {e : Error} :
    options.nested.findSome? OptionEntry.rejection? = some e ↔ options.FirstRejection e := by
  rw [List.findSome?_eq_some_iff]
  constructor
  · rintro ⟨before, entry, after, hnested, hentry, hbefore⟩
    exact ⟨before, entry, after, hnested,
      fun passed hpassed => OptionEntry.rejection?_eq_none_iff.mp (hbefore passed hpassed),
      OptionEntry.rejection?_eq_some_iff.mp hentry⟩
  · rintro ⟨before, entry, after, hnested, hbefore, hentry⟩
    exact ⟨before, entry, after, hnested, OptionEntry.rejection?_eq_some_iff.mpr hentry,
      fun passed hpassed => OptionEntry.rejection?_eq_none_iff.mpr (hbefore passed hpassed)⟩

theorem failure?_render (options : OptionMap) :
    Outcome.failure? options.render = List.findSome? OptionEntry.rejection? options := by
  have hentry : ∀ entry : OptionEntry,
      Outcome.failure? (renderEntry entry) = entry.rejection? := fun entry =>
    Outcome.failure?_map _ (entry.1.write entry.2)
  unfold render
  split
  · rename_i hempty
    rw [List.isEmpty_iff.mp hempty]
    rfl
  · rw [Outcome.failure?_map, Entries.failure?_traverse]
    exact congrArg (List.findSome? · options) (funext hentry)

/-- A checked option is written, unless a value inside its map is rejected. -/
theorem failure?_clause {entry : OptionEntry} (h : entry.IsChecked) :
    Outcome.failure? (clause entry) = entry.2.entries.findSome? OptionEntry.rejection? := by
  obtain ⟨key, value⟩ := entry
  obtain ⟨hcheck, habsent⟩ := h
  cases value with
  | null => rfl
  | absent => exact absurd rfl habsent
  | scalar value =>
    have hwrite : key.write (.scalar value) = .ok (key.mark value.render) := by
      simp only at hcheck
      rw [OptionKey.write_of_ne_null (by simp), hcheck]
      rfl
    simp only [clause, hwrite]
    rfl
  | map entries =>
    simp only at hcheck
    simp only [clause, hcheck, OptionValue.entries]
    rw [Outcome.failure?_map, failure?_render]

theorem failure?_clauses {options : OptionMap}
    (h : ∀ entry ∈ options, OptionEntry.IsChecked entry) :
    Outcome.failure? options.clauses = options.nested.findSome? OptionEntry.rejection? := by
  rw [clauses, Entries.failure?_traverse]
  induction options with
  | nil => rfl
  | cons entry rest ih =>
    rw [List.findSome?_cons, failure?_clause (h entry (by simp)),
      ih fun other hother => h other (by simp [hother]), nested_cons, List.findSome?_append]
    cases entry.2.entries.findSome? OptionEntry.rejection? <;> rfl

end OptionMap

/-! ### Statements -/

theorem CreateKeyspace.isChecked_defaultReplication (s : CreateKeyspace) :
    ∀ entry ∈ s.defaultReplication, OptionEntry.IsChecked entry := by
  unfold defaultReplication
  split
  · exact fun _ h => nomatch h
  · exact List.forall_mem_singleton.mpr ⟨rfl, nofun⟩

theorem CreateKeyspace.isChecked_defaultDurableWrites (s : CreateKeyspace) :
    ∀ entry ∈ s.defaultDurableWrites, OptionEntry.IsChecked entry := by
  unfold defaultDurableWrites
  split
  · exact fun _ h => nomatch h
  · exact List.forall_mem_singleton.mpr ⟨rfl, nofun⟩

theorem OptionMap.isChecked_simpleClass : OptionEntry.IsChecked (ReplicationOption.strategyClass,
    .scalar (.text ReplicationStrategy.simple.className)) := ⟨rfl, nofun⟩

theorem OptionMap.isChecked_one :
    OptionEntry.IsChecked (ReplicationOption.replicationFactor, OptionMap.one) := by
  have haccepts : ReplicationOption.replicationFactor.accepts OptionMap.one = true := by
    decide +kernel
  exact ⟨(OptionKey.check_of_isGiven rfl).mpr ⟨rfl, haccepts⟩, nofun⟩

/-- The replication of a keyspace that sets none holds a class and a factor that are accepted. -/
theorem CreateKeyspace.findSome?_defaultReplication (s : CreateKeyspace) :
    s.defaultReplication.nested.findSome? OptionEntry.rejection? = none := by
  unfold defaultReplication
  split
  · rfl
  · simp only [List.findSome?_eq_none_iff, OptionEntry.rejection?_eq_none_iff]
    exact List.forall_mem_cons.mpr ⟨OptionMap.isChecked_simpleClass.not_isRejected,
      List.forall_mem_singleton.mpr OptionMap.isChecked_one.not_isRejected⟩

theorem CreateKeyspace.nested_defaultDurableWrites (s : CreateKeyspace) :
    s.defaultDurableWrites.nested = [] := by
  unfold defaultDurableWrites
  split <;> rfl

/-- What a keyspace is given by default adds no failure, and hides none. -/
theorem CreateKeyspace.failure?_render {s : CreateKeyspace}
    (h : ∀ entry ∈ s.options, OptionEntry.IsChecked entry) :
    Outcome.failure? s.render = s.options.nested.findSome? OptionEntry.rejection? := by
  have hchecked : ∀ entry ∈ s.effectiveOptions, OptionEntry.IsChecked entry :=
    List.forall_mem_append.mpr
      ⟨List.forall_mem_append.mpr ⟨s.isChecked_defaultReplication, h⟩,
        s.isChecked_defaultDurableWrites⟩
  rw [render, Outcome.failure?_map, OptionMap.failure?_clauses hchecked, effectiveOptions,
    OptionMap.nested_append, OptionMap.nested_append, s.nested_defaultDurableWrites,
    List.append_nil, List.findSome?_append, s.findSome?_defaultReplication]
  rfl

theorem AlterTable.has_compactStorage_iff {s : AlterTable} :
    s.options.has TableOption.compactStorage = true ↔
      "COMPACT STORAGE".toList ∈ s.options.names :=
  OptionMap.has_eq_true_iff

namespace Statement

theorem IsBuilt.isChecked {s : Statement} (h : s.IsBuilt) :
    ∀ entry ∈ s.options, OptionEntry.IsChecked entry := by
  obtain ⟨kind, first, second, draft, edits, hstart, hbuild⟩ := h
  rw [Draft.options_of_build hbuild]
  exact Draft.isChecked_of_run hstart edits

theorem IsBuilt.hasParts {s : Statement} (h : s.IsBuilt) : s.HasParts := by
  obtain ⟨kind, first, second, draft, edits, -, hbuild⟩ := h
  exact Draft.hasParts_of_build hbuild

theorem render_of_altersCompactStorage {s : Statement} (h : s.AltersCompactStorage) :
    s.render = .error (.illegalOption "COMPACT STORAGE".toList "ALTER TABLE".toList) := by
  obtain ⟨t, rfl, hname⟩ := h
  exact if_pos (AlterTable.has_compactStorage_iff.mpr hname)

/-- But for compact storage, a built statement fails as its first rejected value does. -/
theorem failure?_render {s : Statement} (h : s.IsBuilt) (hcompact : ¬ s.AltersCompactStorage) :
    Outcome.failure? s.render = s.options.nested.findSome? OptionEntry.rejection? := by
  have hchecked := h.isChecked
  have hparts := h.hasParts
  -- Each kind tests its parts again before its options; a built statement passes that test.
  cases s with
  | createKeyspace s => exact CreateKeyspace.failure?_render hchecked
  | alterKeyspace s =>
    exact (Outcome.failure?_map _ _).trans (OptionMap.failure?_clauses hchecked)
  | createTable s =>
    have hrender : s.render = s.options.clauses.map s.text := if_pos hparts
    exact (congrArg _ hrender).trans
      ((Outcome.failure?_map _ _).trans (OptionMap.failure?_clauses hchecked))
  | alterTable s =>
    have hhas : ¬ s.options.has TableOption.compactStorage = true := fun hhas =>
      hcompact ⟨s, rfl, AlterTable.has_compactStorage_iff.mp hhas⟩
    have hrender : s.render = s.options.clauses.map s.text :=
      (if_neg hhas).trans (if_neg (Bool.eq_false_iff.mp hparts))
    exact (congrArg _ hrender).trans
      ((Outcome.failure?_map _ _).trans (OptionMap.failure?_clauses hchecked))
  | createUserType s => exact congrArg Outcome.failure? (if_neg (Bool.eq_false_iff.mp hparts))
  | alterUserType s => exact congrArg Outcome.failure? (if_neg (Bool.eq_false_iff.mp hparts))
  | dropKeyspace | dropTable | createIndex | dropIndex | dropUserType => rfl

theorem exists_render {s : Statement} (h : s.IsBuilt) (hkind : s.kind ≠ .alterTable)
    (hnested : ∀ entry ∈ s.options.nested, OptionEntry.IsChecked entry) :
    ∃ text, s.render = .ok text := by
  have hcompact : ¬ s.AltersCompactStorage := by
    rintro ⟨t, rfl, -⟩
    exact hkind rfl
  rw [← Outcome.failure?_eq_none_iff, failure?_render h hcompact, List.findSome?_eq_none_iff]
  exact fun entry hentry =>
    OptionEntry.rejection?_eq_none_iff.mpr (hnested entry hentry).not_isRejected

/-- A statement that was built is written, unless it asks for compact storage where it alters a
table, or a map that it holds has a value that its own key rejects. The first is refused whatever
else is wrong; of the others the first in written order tells why. What is written is the text of
the statement. -/
theorem render_of_isBuilt {s : Statement} (h : s.IsBuilt) :
    ((∃ e, s.render = .error e) ↔
      s.AltersCompactStorage ∨ ∃ entry ∈ s.options.nested, ∃ e, OptionEntry.IsRejected entry e) ∧
    (s.AltersCompactStorage →
      s.render = .error (.illegalOption "COMPACT STORAGE".toList "ALTER TABLE".toList)) ∧
    (¬ s.AltersCompactStorage → ∀ e, s.render = .error e ↔ s.options.FirstRejection e) ∧
    (∀ e, s.options.FirstRejection e → ∃ fault, e = .invalidSpecification fault) ∧
    (¬ s.AltersCompactStorage →
      (∀ entry ∈ s.options.nested, ∀ e, ¬ OptionEntry.IsRejected entry e) →
        s.render = .ok s.text) := by
  have hfirst : ¬ s.AltersCompactStorage →
      ∀ e, s.render = .error e ↔ s.options.FirstRejection e := by
    intro hcompact e
    rw [← Outcome.failure?_eq_some_iff, failure?_render h hcompact,
      OptionMap.findSome?_rejection?_eq_some_iff]
  have hsome : (∃ e, s.options.FirstRejection e) ↔
      ∃ entry ∈ s.options.nested, ∃ e, OptionEntry.IsRejected entry e := by
    simp only [← OptionMap.findSome?_rejection?_eq_some_iff, ← OptionEntry.rejection?_eq_some_iff,
      ← Option.isSome_iff_exists, List.findSome?_isSome_iff]
  refine ⟨?_, render_of_altersCompactStorage, hfirst, ?_, ?_⟩
  · by_cases hcompact : s.AltersCompactStorage
    · exact ⟨fun _ => .inl hcompact, fun _ => ⟨_, render_of_altersCompactStorage hcompact⟩⟩
    · simp only [hfirst hcompact, hsome, hcompact, false_or]
  · rintro e ⟨-, entry, -, -, -, hentry⟩
    exact hentry.eq_invalidSpecification
  · intro hcompact hnested
    have hnone : Outcome.failure? s.render = none := by
      rw [failure?_render h hcompact, List.findSome?_eq_none_iff]
      exact fun entry hentry => OptionEntry.rejection?_eq_none_iff.mpr (hnested entry hentry)
    obtain ⟨text, htext⟩ := Outcome.failure?_eq_none_iff.mp hnone
    rw [htext, eq_text_of_render htext]

/-- A keyspace with as many replicas as no number says. -/
def unnumbered : CreateKeyspace where
  name := ⟨"shop".toList, false, by decide, by decide⟩
  options := [(KeyspaceOption.replication,
    .map (OptionMap.simpleReplication (.scalar (.number Binary64.nan))))]

theorem isBuilt_unnumbered : (createKeyspace unnumbered).IsBuilt := by
  refine ⟨.createKeyspace, some (.text "shop".toList), none, { unnumbered with options := [] },
    [.option (.simpleReplication (.scalar (.number Binary64.nan)))], rfl, rfl⟩

/-- What a draft lets through inside a map, the statement refuses. -/
theorem render_unnumbered :
    (createKeyspace unnumbered).IsBuilt ∧
      (createKeyspace unnumbered).render =
        .error (.invalidSpecification (.valueOfWrongType "replication_factor".toList .number)) := by
  refine ⟨isBuilt_unnumbered, ?_⟩
  have hcompact : ¬ (createKeyspace unnumbered).AltersCompactStorage := by
    rintro ⟨t, ht, -⟩
    simp at ht
  refine ((render_of_isBuilt isBuilt_unnumbered).2.2.1 hcompact _).mpr ?_
  refine ⟨[(ReplicationOption.strategyClass,
    .scalar (.text ReplicationStrategy.simple.className))], _, [], rfl, ?_, nofun, rfl⟩
  exact List.forall_mem_singleton.mpr OptionMap.isChecked_simpleClass.not_isRejected

end Statement

end CqlDdl
