import CqlDdl.Statement.Draft

/-! Drafts through their life: what a run of requests preserves, since a request that fails leaves
the draft as it was, and what a draft has that can be built. -/

namespace CqlDdl

namespace Draft

variable {kind : StatementKind}

theorem attempt_of_ok {draft next : Draft kind} {edit : Edit kind}
    (h : draft.apply edit = .ok next) : draft.attempt edit = next := by
  simp [attempt, h]

theorem attempt_of_error {draft : Draft kind} {edit : Edit kind} {e : Error}
    (h : draft.apply edit = .error e) : draft.attempt edit = draft := by
  simp [attempt, h]

theorem exists_of_named {α : Type} {start : Name → Except Error α} {name : Option Name} {a : α}
    (h : named start name = .ok a) : ∃ given, name = some given ∧ start given = .ok a := by
  cases name with
  | none => simp [named] at h
  | some given => exact ⟨given, rfl, h⟩

@[simp] theorem run_nil (draft : Draft kind) : draft.run [] = draft := rfl

@[simp] theorem run_cons (draft : Draft kind) (edit : Edit kind) (edits : List (Edit kind)) :
    draft.run (edit :: edits) = (draft.attempt edit).run edits := rfl

/-- What the start of a draft has, and every request that succeeds preserves, holds after a run. -/
theorem run_invariant (kind : StatementKind) (Holds : Draft kind → Prop) {draft : Draft kind}
    {edits : List (Edit kind)} (hstart : Holds draft)
    (hstep : ∀ edit ∈ edits, ∀ {before after : Draft kind}, before.apply edit = .ok after →
      Holds before → Holds after) : Holds (draft.run edits) := by
  induction edits generalizing draft with
  | nil => exact hstart
  | cons edit edits ih =>
    have hrest : ∀ next ∈ edits, ∀ {before after : Draft kind}, before.apply next = .ok after →
        Holds before → Holds after := fun next hnext => hstep next (by simp [hnext])
    rw [run_cons]
    cases happly : draft.apply edit with
    | ok next =>
      rw [attempt_of_ok happly]
      exact ih (hstep edit (by simp) happly hstart) hrest
    | error e =>
      rw [attempt_of_error happly]
      exact ih hstart hrest

end Draft

/-- The statements that drafts describe after any requests, some of which may have failed. -/
def Statement.IsBuilt (s : Statement) : Prop :=
  ∃ (kind : StatementKind) (first second : Option Name) (draft : Draft kind)
    (edits : List (Draft.Edit kind)),
    Draft.start kind first second = .ok draft ∧ (draft.run edits).build = .ok s

/-- What a draft describes is of the kind of the draft. -/
theorem Draft.kind_of_build {kind : StatementKind} {draft : Draft kind} {s : Statement}
    (h : draft.build = .ok s) : s.kind = kind := by
  cases kind with
  | createKeyspace | dropKeyspace | dropTable | dropIndex | dropUserType =>
    obtain rfl := Except.ok.inj h
    rfl
  | alterKeyspace | createTable | alterTable | createIndex | createUserType | alterUserType =>
    obtain ⟨-, -, rfl⟩ := Outcome.map_eq_ok_iff.mp h
    rfl

/-! ### Complete drafts -/

theorem AlterKeyspace.of_build {s t : AlterKeyspace} (h : s.build = .ok t) :
    t = s ∧ s.options ≠ [] := by
  unfold build at h
  split at h
  · simp at h
  · rename_i hoptions
    exact ⟨(Except.ok.inj h).symm, by simpa using hoptions⟩

theorem CreateTable.of_build {s t : CreateTable} (h : s.build = .ok t) :
    t = s ∧ s.columns.any Column.isPartitioned = true ∧
      repeatedName? [] (s.columns.map Column.name) = none := by
  unfold build at h
  split at h
  · simp at h
  split at h
  · simp at h
  rename_i hpartitioned
  split at h
  · simp at h
  · rename_i hnames
    exact ⟨(Except.ok.inj h).symm, by simpa using hpartitioned, hnames⟩

theorem AlterTable.of_build {s t : AlterTable} (h : s.build = .ok t) :
    t = s ∧ (s.changes.isEmpty && s.options.isEmpty) = false := by
  unfold build at h
  split at h
  · simp at h
  · rename_i hunchanged
    exact ⟨(Except.ok.inj h).symm, Bool.eq_false_iff.mpr hunchanged⟩

theorem CreateUserType.of_build {s t : CreateUserType} (h : s.build = .ok t) :
    t = s ∧ s.fields.isEmpty = false := by
  unfold build at h
  split at h
  · simp at h
  rename_i hfields
  split at h
  · simp at h
  · exact ⟨(Except.ok.inj h).symm, Bool.eq_false_iff.mpr hfields⟩

theorem AlterUserType.of_build {s t : AlterUserType} (h : s.build = .ok t) :
    t = s ∧ s.changes.isEmpty = false := by
  unfold build at h
  split at h
  · simp at h
  · rename_i hchanges
    exact ⟨(Except.ok.inj h).symm, Bool.eq_false_iff.mpr hchanges⟩

/-- What a statement cannot be written without. -/
def Statement.HasParts : Statement → Prop
  | .createTable s => s.columns.any Column.isPartitioned = true
  | .alterTable s => (s.changes.isEmpty && s.options.isEmpty) = false
  | .createUserType s => s.fields.isEmpty = false
  | .alterUserType s => s.changes.isEmpty = false
  | _ => True

theorem Draft.hasParts_of_build {kind : StatementKind} {draft : Draft kind} {s : Statement}
    (h : draft.build = .ok s) : s.HasParts := by
  cases kind with
  | createTable =>
    obtain ⟨t, ht, rfl⟩ := Outcome.map_eq_ok_iff.mp h
    obtain ⟨rfl, hpartitioned, -⟩ := CreateTable.of_build ht
    exact hpartitioned
  | alterTable =>
    obtain ⟨t, ht, rfl⟩ := Outcome.map_eq_ok_iff.mp h
    obtain ⟨rfl, hchanged⟩ := AlterTable.of_build ht
    exact hchanged
  | createUserType =>
    obtain ⟨t, ht, rfl⟩ := Outcome.map_eq_ok_iff.mp h
    obtain ⟨rfl, hfields⟩ := CreateUserType.of_build ht
    exact hfields
  | alterUserType =>
    obtain ⟨t, ht, rfl⟩ := Outcome.map_eq_ok_iff.mp h
    obtain ⟨rfl, hchanges⟩ := AlterUserType.of_build ht
    exact hchanges
  | createKeyspace | dropKeyspace | dropTable | dropIndex | dropUserType =>
    obtain rfl := Except.ok.inj h
    trivial
  | alterKeyspace | createIndex =>
    obtain ⟨-, -, rfl⟩ := Outcome.map_eq_ok_iff.mp h
    trivial

end CqlDdl
