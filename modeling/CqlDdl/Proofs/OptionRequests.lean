import CqlDdl.Proofs.OptionMap
import CqlDdl.Proofs.Runs

/-! Requests to set options. Whether one succeeds, and what it puts, does not depend on the options
that are set before: a request stands for one entry, or for an error. Main statements:
`Draft.options_of_apply`, on one request to a draft of any kind, and `Draft.isChecked_of_run`, on
what is set after any number of them. -/

namespace CqlDdl

/-- An entry of an option map: what is set, and to what. -/
abbrev OptionEntry := OptionKey × OptionValue

/-- The value suits the key under which it stands, and it was not left out. -/
def OptionEntry.IsChecked (entry : OptionEntry) : Prop :=
  entry.1.check entry.2 = .ok () ∧ entry.2 ≠ .absent

/-- What is put where a value is set under a key. -/
def OptionKey.entry (key : OptionKey) (value : OptionValue) : Except Error OptionEntry :=
  (key.check value).map fun () => (key, value.orDefault .null)

/-- A value that was left out passes a check as no value does. -/
theorem OptionKey.check_orDefault (key : OptionKey) (value : OptionValue) :
    key.check (value.orDefault .null) = key.check value := by
  cases value <;> rfl

theorem OptionKey.isChecked_of_entry {key : OptionKey} {value : OptionValue} {entry : OptionEntry}
    (h : key.entry value = .ok entry) : entry.IsChecked := by
  obtain ⟨⟨⟩, hcheck, rfl⟩ := Outcome.map_eq_ok_iff.mp h
  refine ⟨(key.check_orDefault value).trans hcheck, ?_⟩
  cases value <;> simp [OptionValue.orDefault]

theorem OptionMap.set_eq (options : OptionMap) (key : OptionKey) (value : OptionValue) :
    options.set key value = (key.entry value).map fun entry => options.put entry.1 entry.2 := by
  unfold set OptionKey.entry
  cases key.check value <;> rfl

/-- What a request puts. -/
def OptionEdit.entry : OptionEdit → Except Error OptionEntry
  | .set key value => key.entry value
  | .setNamed name value flags =>
    match OptionKey.make name (ValueType.ofValue value) flags with
    | .ok key => key.entry value
    | .error e => .error e

theorem OptionMap.edit_eq (options : OptionMap) (request : OptionEdit) :
    options.edit request = request.entry.map fun entry => options.put entry.1 entry.2 := by
  cases request with
  | set key value => exact options.set_eq key value
  | setNamed name value flags =>
    simp only [edit, OptionEdit.entry]
    cases OptionKey.make name (ValueType.ofValue value) flags with
    | ok key => exact options.set_eq key value
    | error e => rfl

theorem OptionEdit.isChecked_of_entry {request : OptionEdit} {entry : OptionEntry}
    (h : request.entry = .ok entry) : entry.IsChecked := by
  cases request with
  | set key value => exact OptionKey.isChecked_of_entry h
  | setNamed name value flags =>
    simp only [OptionEdit.entry] at h
    split at h
    · exact OptionKey.isChecked_of_entry h
    · simp at h

/-- What a request to a keyspace puts. -/
def KeyspaceOptionEdit.entry : KeyspaceOptionEdit → Except Error OptionEntry
  | .option request => request.entry
  | .simpleReplication factor =>
    KeyspaceOption.replication.entry (.map (OptionMap.simpleReplication factor))
  | .networkReplication dataCenters =>
    match OptionMap.networkReplication dataCenters with
    | .ok replication => KeyspaceOption.replication.entry (.map replication)
    | .error e => .error e
  | .durableWrites flag => KeyspaceOption.durableWrites.entry (.scalar (.bool flag))

theorem OptionMap.editKeyspace_eq (options : OptionMap) (request : KeyspaceOptionEdit) :
    options.editKeyspace request =
      request.entry.map fun entry => options.put entry.1 entry.2 := by
  cases request with
  | option request => exact options.edit_eq request
  | simpleReplication factor => exact options.set_eq _ (.map (simpleReplication factor))
  | networkReplication dataCenters =>
    simp only [editKeyspace, KeyspaceOptionEdit.entry]
    cases networkReplication dataCenters with
    | ok replication => exact options.set_eq _ (.map replication)
    | error e => rfl
  | durableWrites flag => exact options.set_eq KeyspaceOption.durableWrites (.scalar (.bool flag))

theorem KeyspaceOptionEdit.isChecked_of_entry {request : KeyspaceOptionEdit} {entry : OptionEntry}
    (h : request.entry = .ok entry) : entry.IsChecked := by
  cases request with
  | option request => exact OptionEdit.isChecked_of_entry h
  | simpleReplication factor => exact OptionKey.isChecked_of_entry h
  | networkReplication dataCenters =>
    simp only [KeyspaceOptionEdit.entry] at h
    split at h
    · exact OptionKey.isChecked_of_entry h
    · simp at h
  | durableWrites flag => exact OptionKey.isChecked_of_entry h

/-! ### Drafts -/

namespace Draft

/-- The options that are set in a draft. -/
def options : {kind : StatementKind} → Draft kind → OptionMap
  | .createKeyspace, draft => CreateKeyspace.options draft
  | .alterKeyspace, draft => AlterKeyspace.options draft
  | .createTable, draft => CreateTable.options draft
  | .alterTable, draft => AlterTable.options draft
  | .dropKeyspace, _ | .dropTable, _ | .createIndex, _ | .dropIndex, _ | .createUserType, _
  | .alterUserType, _ | .dropUserType, _ => []

/-- What a request puts into the options of a draft, if it is one to set an option. -/
def requested? : {kind : StatementKind} → Edit kind → Option (Except Error OptionEntry)
  | .createKeyspace, .option request => some request.entry
  | .alterKeyspace, .option request => some request.entry
  | .createTable, .option request => some request.entry
  | .alterTable, .option request => some request.entry
  | _, _ => none

variable {kind : StatementKind}

theorem isChecked_of_requested? {edit : Edit kind} {entry : OptionEntry}
    (h : requested? edit = some (.ok entry)) : entry.IsChecked := by
  unfold requested? at h
  split at h
  · exact KeyspaceOptionEdit.isChecked_of_entry (Option.some.inj h)
  · exact KeyspaceOptionEdit.isChecked_of_entry (Option.some.inj h)
  · exact OptionEdit.isChecked_of_entry (Option.some.inj h)
  · exact OptionEdit.isChecked_of_entry (Option.some.inj h)
  · simp at h

end Draft

/-- The options after a request: one to set an option puts its entry, and any other leaves the
options as they are. -/
def OptionMap.Changed (before : OptionMap) (requested : Option (Except Error OptionEntry))
    (after : OptionMap) : Prop :=
  match requested with
  | none => after = before
  | some outcome => ∃ entry, outcome = .ok entry ∧ after = before.put entry.1 entry.2

theorem OptionMap.changed_edit {options after : OptionMap} {request : OptionEdit}
    (h : options.edit request = .ok after) : options.Changed (some request.entry) after := by
  rw [edit_eq] at h
  obtain ⟨entry, hentry, rfl⟩ := Outcome.map_eq_ok_iff.mp h
  exact ⟨entry, hentry, rfl⟩

theorem OptionMap.changed_editKeyspace {options after : OptionMap} {request : KeyspaceOptionEdit}
    (h : options.editKeyspace request = .ok after) :
    options.Changed (some request.entry) after := by
  rw [editKeyspace_eq] at h
  obtain ⟨entry, hentry, rfl⟩ := Outcome.map_eq_ok_iff.mp h
  exact ⟨entry, hentry, rfl⟩

theorem CreateTable.changed_apply {s t : CreateTable} {edit : Edit} (h : s.apply edit = .ok t) :
    s.options.Changed (@Draft.requested? .createTable edit) t.options := by
  cases edit with
  | ifNotExists flag | addColumn column =>
    obtain rfl := Except.ok.inj h
    rfl
  | column | partitionKeyColumn | clusteredKeyColumn | addDraft =>
    obtain ⟨-, -, rfl⟩ := Outcome.map_eq_ok_iff.mp h
    rfl
  | option request =>
    obtain ⟨options, hoptions, rfl⟩ := Outcome.map_eq_ok_iff.mp h
    exact OptionMap.changed_edit hoptions

theorem AlterTable.changed_apply {s t : AlterTable} {edit : Edit} (h : s.apply edit = .ok t) :
    s.options.Changed (@Draft.requested? .alterTable edit) t.options := by
  cases edit with
  | add | drop | alter =>
    obtain ⟨-, -, rfl⟩ := Outcome.map_eq_ok_iff.mp h
    rfl
  | rename name target =>
    simp only [apply] at h
    cases hname : name.resolve <;> cases htarget : target.resolve <;>
      simp only [hname, htarget, bind, Except.bind, pure, Except.pure, reduceCtorEq,
        Except.ok.injEq] at h
    rw [← h]
    rfl
  | change change =>
    obtain rfl := Except.ok.inj h
    rfl
  | option request =>
    obtain ⟨options, hoptions, rfl⟩ := Outcome.map_eq_ok_iff.mp h
    exact OptionMap.changed_edit hoptions

namespace Draft

theorem changed_apply {before after : Draft kind} {edit : Edit kind}
    (h : before.apply edit = .ok after) :
    OptionMap.Changed before.options (requested? edit) after.options := by
  cases kind with
  | createKeyspace =>
    cases edit with
    | ifNotExists flag =>
      obtain rfl := Except.ok.inj h
      rfl
    | option request =>
      obtain ⟨options, hoptions, rfl⟩ := Outcome.map_eq_ok_iff.mp h
      exact OptionMap.changed_editKeyspace hoptions
  | alterKeyspace =>
    obtain ⟨request⟩ := edit
    obtain ⟨options, hoptions, rfl⟩ := Outcome.map_eq_ok_iff.mp h
    exact OptionMap.changed_editKeyspace hoptions
  | createTable => exact CreateTable.changed_apply h
  | alterTable => exact AlterTable.changed_apply h
  | dropKeyspace | dropTable | createIndex | dropIndex | createUserType | alterUserType
  | dropUserType => rfl

theorem options_of_start {first second : Option Name} {draft : Draft kind}
    (h : start kind first second = .ok draft) : draft.options = [] := by
  cases kind with
  | createKeyspace | alterKeyspace =>
    obtain ⟨name, -, h⟩ := exists_of_named h
    obtain ⟨-, -, rfl⟩ := Outcome.map_eq_ok_iff.mp h
    rfl
  | createTable | alterTable =>
    obtain ⟨-, -, rfl⟩ := Outcome.map_eq_ok_iff.mp h
    rfl
  | dropKeyspace | dropTable | createIndex | dropIndex | createUserType | alterUserType
  | dropUserType => rfl

theorem options_of_build {draft : Draft kind} {s : Statement} (h : draft.build = .ok s) :
    s.options = draft.options := by
  cases kind with
  | createKeyspace =>
    obtain rfl := Except.ok.inj h
    rfl
  | alterKeyspace =>
    obtain ⟨t, ht, rfl⟩ := Outcome.map_eq_ok_iff.mp h
    rw [(AlterKeyspace.of_build ht).1]
    rfl
  | createTable =>
    obtain ⟨t, ht, rfl⟩ := Outcome.map_eq_ok_iff.mp h
    rw [(CreateTable.of_build ht).1]
    rfl
  | alterTable =>
    obtain ⟨t, ht, rfl⟩ := Outcome.map_eq_ok_iff.mp h
    rw [(AlterTable.of_build ht).1]
    rfl
  | dropKeyspace | dropTable | dropIndex | dropUserType =>
    obtain rfl := Except.ok.inj h
    rfl
  | createIndex | createUserType | alterUserType =>
    obtain ⟨-, -, rfl⟩ := Outcome.map_eq_ok_iff.mp h
    rfl

/-- Every option that is set after any requests passes the check of its key. -/
theorem isChecked_of_run {first second : Option Name} {draft : Draft kind}
    (hstart : start kind first second = .ok draft) (edits : List (Edit kind)) :
    ∀ entry ∈ (draft.run edits).options, OptionEntry.IsChecked entry := by
  refine run_invariant kind (fun draft => ∀ entry ∈ draft.options, OptionEntry.IsChecked entry)
    ?_ ?_
  · rw [options_of_start hstart]
    exact fun _ h => nomatch h
  · intro edit _ before after happly hbefore entry hentry
    have hchanged := changed_apply happly
    cases hrequested : requested? edit with
    | none =>
      rw [hrequested] at hchanged
      exact hbefore entry (hchanged ▸ hentry)
    | some outcome =>
      rw [hrequested] at hchanged
      obtain ⟨put, rfl, hafter⟩ := hchanged
      rw [hafter] at hentry
      rcases Entries.mem_put hentry with rfl | hentry
      · exact isChecked_of_requested? hrequested
      · exact hbefore entry hentry

end Draft

end CqlDdl
