import CqlDdl.Proofs.DistinctNames
import CqlDdl.Proofs.IndexText
import CqlDdl.Proofs.RenderFailure

/-! The least that a statement consists of. A draft is not built without it. Statements that create
or alter a table or a user type are not written without it either, however they came about; the text
of a keyspace that is altered, or of an index, trusts the draft. Main statement:
`Statement.isComplete_of_render`. -/

namespace CqlDdl

/-- The least that a draft of a statement must hold to be built: an option where a keyspace is
altered, a column of the partition key, a change or an option where a table is altered, a field, a
change of a user type. An index may hold options only if it names the class that understands
them. -/
def Statement.IsComplete : Statement → Prop
  | .alterKeyspace s => s.options ≠ []
  | .createTable s => ∃ column ∈ s.columns, column.role = .partitioned
  | .alterTable s => s.changes ≠ [] ∨ s.options ≠ []
  | .createIndex s => s.options ≠ [] → ∃ name, s.className = some name ∧ name ≠ []
  | .createUserType s => s.fields ≠ []
  | .alterUserType s => s.changes ≠ []
  | .createKeyspace _ | .dropKeyspace _ | .dropTable _ | .dropIndex _ | .dropUserType _ => True

/-! ### What only a draft tests -/

theorem AlterKeyspace.options_ne_nil_of_isBuilt {s : AlterKeyspace}
    (h : (Statement.alterKeyspace s).IsBuilt) : s.options ≠ [] := by
  obtain ⟨kind, first, second, draft, edits, -, hbuild⟩ := h
  obtain rfl : StatementKind.alterKeyspace = kind := Draft.kind_of_build hbuild
  obtain ⟨t, ht, hst⟩ := Outcome.map_eq_ok_iff.mp hbuild
  obtain rfl : t = s := Statement.alterKeyspace.inj hst
  obtain ⟨rfl, hoptions⟩ := AlterKeyspace.of_build ht
  exact hoptions

theorem IndexDraft.className_ne_none_of_build {draft : IndexDraft} {s : CreateIndex}
    (h : draft.build = .ok s) (hoptions : s.options ≠ []) : s.className ≠ none := by
  unfold build at h
  split at h
  · simp at h
  · simp at h
  · split at h
    · simp at h
    · rename_i hclass
      obtain rfl := Except.ok.inj h
      intro hnone
      refine hclass ?_
      rw [Bool.and_eq_true, Bool.not_eq_true', List.isEmpty_eq_false_iff, Option.isNone_iff_eq_none]
      exact ⟨hoptions, hnone⟩

theorem CreateIndex.exists_className_of_isBuilt {s : CreateIndex}
    (h : (Statement.createIndex s).IsBuilt) (hoptions : s.options ≠ []) :
    ∃ name, s.className = some name ∧ name ≠ [] := by
  have himplementation := implementation?_of_isBuilt h
  obtain ⟨first, second, draft, edits, -, hbuild⟩ := exists_draft_of_isBuilt h
  obtain ⟨name, hname⟩ := Option.ne_none_iff_exists'.mp
    (IndexDraft.className_ne_none_of_build hbuild hoptions)
  refine ⟨name, hname, ?_⟩
  -- An empty class name is none to the statement, and a built statement keeps no such name.
  rintro rfl
  rw [implementation?, hname] at himplementation
  simp at himplementation

/-! ### All kinds -/

namespace Statement

/-- What is written has the parts that a statement is not written without: each of the four kinds
that have such parts tests them itself. -/
theorem hasParts_of_render {s : Statement} {text : Text} (h : s.render = .ok text) :
    s.HasParts := by
  cases s with
  | createTable s =>
    simp only [render, CreateTable.render] at h
    split at h
    · rename_i hpartitioned
      exact hpartitioned
    · simp at h
  | alterTable s =>
    simp only [render, AlterTable.render] at h
    split at h
    · simp at h
    split at h
    · simp at h
    · rename_i hchanged
      exact Bool.eq_false_iff.mpr hchanged
  | createUserType s =>
    simp only [render, CreateUserType.render] at h
    split at h
    · simp at h
    · rename_i hfields
      exact Bool.eq_false_iff.mpr hfields
  | alterUserType s =>
    simp only [render, AlterUserType.render] at h
    split at h
    · simp at h
    · rename_i hchanges
      exact Bool.eq_false_iff.mpr hchanges
  | createKeyspace | alterKeyspace | dropKeyspace | dropTable | createIndex | dropIndex
  | dropUserType => trivial

/-- Beyond its parts, only the alteration of a keyspace and an index have to be built. -/
theorem isComplete_of_hasParts {s : Statement} (h : s.HasParts)
    (hbuilt : s.kind = .alterKeyspace ∨ s.kind = .createIndex → s.IsBuilt) : s.IsComplete := by
  cases s with
  | alterKeyspace s => exact s.options_ne_nil_of_isBuilt (hbuilt (.inl rfl))
  | createIndex s => exact s.exists_className_of_isBuilt (hbuilt (.inr rfl))
  | createTable s => exact any_isPartitioned_iff.mp h
  | alterTable s =>
    have hchanged : ¬ (s.changes = [] ∧ s.options = []) := by
      rw [← List.isEmpty_iff, ← List.isEmpty_iff, ← Bool.and_eq_true]
      exact Bool.eq_false_iff.mp h
    exact Classical.not_and_iff_not_or_not.mp hchanged
  | createUserType s => exact List.isEmpty_eq_false_iff.mp h
  | alterUserType s => exact List.isEmpty_eq_false_iff.mp h
  | createKeyspace | dropKeyspace | dropTable | dropIndex | dropUserType => trivial

/-- A statement that is written is complete, however it came about, unless it alters a keyspace or
creates an index. A statement of any kind is complete if it was built, whether or not it can be
written. -/
theorem isComplete_of_render (s : Statement) :
    ((∃ text, s.render = .ok text) → s.kind ≠ .alterKeyspace → s.kind ≠ .createIndex →
      s.IsComplete) ∧
    (s.IsBuilt → s.IsComplete) := by
  refine ⟨?_, fun h => isComplete_of_hasParts h.hasParts fun _ => h⟩
  rintro ⟨text, h⟩ halter hindex
  exact isComplete_of_hasParts (hasParts_of_render h) fun hkind =>
    (hkind.elim halter hindex).elim

def galleryAlteration (options : OptionMap) : AlterKeyspace where
  name := ⟨"gallery".toList, false, by decide, by decide⟩
  options

def emailIndex (className : Option Text) : CreateIndex where
  keyspace := none
  name := none
  table := ⟨"users".toList, false, by decide, by decide⟩
  column := ⟨"email".toList, false, by decide, by decide⟩
  className
  options := [("mode".toList, "PREFIX".toList)]

/-- A user type with one field. -/
def addressType : CreateUserType where
  name := ⟨none, "address".toList, false, by decide, by decide⟩
  fields := [⟨⟨"street".toList, false, by decide, by decide⟩, .native .text, .none, none⟩]

/-- A user type written by hand, the alteration of a keyspace that sets an option, and a custom
index with an option. -/
theorem isComplete_emailIndex :
    ((createUserType addressType).render = .ok "CREATE TYPE address (street text);".toList ∧
      (createUserType addressType).IsComplete) ∧
    (∃ options, (alterKeyspace (galleryAlteration options)).render =
        .ok "ALTER KEYSPACE gallery WITH durable_writes = false;".toList ∧
      (alterKeyspace (galleryAlteration options)).IsComplete) ∧
    (createIndex (emailIndex (some "SASI".toList))).render =
        .ok ("CREATE CUSTOM INDEX ON users (email) USING 'SASI'".toList ++
          " WITH OPTIONS = \x7b'mode': 'PREFIX'\x7d;".toList) ∧
      (createIndex (emailIndex (some "SASI".toList))).IsComplete := by
  refine ⟨⟨rfl, ?_⟩, ⟨[(KeyspaceOption.durableWrites, .scalar (.bool false))], rfl, ?_⟩, rfl, ?_⟩
  · exact (isComplete_of_render _).1 ⟨_, rfl⟩ (by decide) (by decide)
  · exact (isComplete_of_render _).2 ⟨.alterKeyspace, some (.text "gallery".toList), none,
      galleryAlteration [], [.option (.durableWrites false)], rfl, rfl⟩
  · exact (isComplete_of_render _).2 ⟨.createIndex, none, none,
      { keyspace := none, name := none }, [.tableName (.text "users".toList),
        .columnName (.text "email".toList), .using (some "SASI".toList),
        .setOption "mode".toList "PREFIX".toList], rfl, rfl⟩

/-- By hand, the alteration of a keyspace without options is written, and so are the options of an
index without a class. -/
theorem not_isComplete_of_render :
    ((alterKeyspace (galleryAlteration [])).render = .ok "ALTER KEYSPACE gallery;".toList ∧
      ¬ (alterKeyspace (galleryAlteration [])).IsComplete) ∧
    (createIndex (emailIndex none)).render =
        .ok "CREATE INDEX ON users (email) WITH OPTIONS = \x7b'mode': 'PREFIX'\x7d;".toList ∧
      ¬ (createIndex (emailIndex none)).IsComplete := by
  refine ⟨⟨rfl, fun h => h rfl⟩, rfl, fun h => ?_⟩
  obtain ⟨name, hname, -⟩ := h (List.cons_ne_nil _ _)
  exact nomatch hname

end Statement

end CqlDdl
