import CqlDdl.Proofs.ConfigurationReading
import CqlDdl.Proofs.RenderFailure
import CqlDdl.Proofs.ReplicationMap
import CqlDdl.Proofs.WrittenNames

/-! The statements that a configuration asks for. A configuration was read, so its numbers of
replicas suit their options; it can still have a name that is no identifier, or a data center whose
name is blank, or alter nothing, and nothing else can keep it from being carried out. The statements
that it is carried out by can all be written. Main statement:
`KeyspaceConfiguration.resolve_of_read`. -/

namespace CqlDdl

open CqlDdl.Configuration (Replication DataCenter IsCount)

/-! ### Replication maps of configurations -/

namespace OptionMap

theorem exists_networkReplication_iff {centers : List (Text × OptionValue)} :
    (∃ m, networkReplication centers = .ok m) ↔
      ∀ center ∈ centers, Text.isBlank center.1 = false := by
  rw [networkReplication_eq]
  constructor
  · rintro ⟨m, hm⟩ center hcenter
    obtain ⟨entries, hentries, -⟩ := Outcome.map_eq_ok_iff.mp hm
    rw [← (map_of_entries hentries).1] at hcenter
    obtain ⟨entry, -, rfl⟩ := List.mem_map.mp hcenter
    exact entry.1.named
  · intro hnamed
    obtain ⟨entries, hentries⟩ := exists_entries hnamed
    rw [hentries]
    exact ⟨_, rfl⟩

theorem mem_networkReplication {centers : List (Text × OptionValue)} {m : OptionMap}
    (h : networkReplication centers = .ok m) {entry : OptionEntry} (hentry : entry ∈ m) :
    entry = networkEntry ∨ ∃ center ∈ centers, centerEntry center = .ok entry := by
  rw [networkReplication_eq] at h
  obtain ⟨entries, hentries, rfl⟩ := Outcome.map_eq_ok_iff.mp h
  rcases List.mem_cons.mp (Entries.mem_of_mem_foldl_putNamed hentry) with rfl | hmem
  · exact .inl rfl
  · exact .inr (Entries.exists_of_mem_traverse hentries hmem)

end OptionMap

/-- The entry holds a single value, which its key accepts. -/
def OptionEntry.IsSingle (entry : OptionEntry) : Prop :=
  entry.IsChecked ∧ entry.2.isMap = false

theorem OptionEntry.isSingle_of_isCount {key : OptionKey} {factor : Binary64}
    (hkey : key.type = .number) (hfactor : IsCount factor) :
    OptionEntry.IsSingle (key, .scalar (.number factor)) := by
  have htakes : key.takesValue = true := by simp [OptionKey.takesValue, hkey]
  have haccepts : key.accepts (.scalar (.number factor)) = true := by
    simp [OptionKey.accepts, hkey, Scalar.isNumeric, hfactor.isFinite]
  have hgiven : OptionValue.scalar (.number factor) ≠ .absent := by simp
  exact ⟨⟨(OptionKey.check_of_isGiven rfl).mpr ⟨htakes, haccepts⟩, hgiven⟩, rfl⟩

namespace KeyspaceConfiguration

/-- The map that a configured replication stands for. -/
def replicationMap : Replication → Except Error OptionMap
  | .simple factor => .ok (OptionMap.simpleReplication (.scalar (.number factor)))
  | .network centers => OptionMap.networkReplication (centers.map factorEntry)

theorem isSingle_of_replicationMap {r : Replication} {m : OptionMap} (hr : r.IsValid)
    (h : replicationMap r = .ok m) : ∀ entry ∈ m, OptionEntry.IsSingle entry := by
  cases r with
  | simple factor =>
    obtain rfl := Except.ok.inj h
    exact List.forall_mem_cons.mpr ⟨⟨OptionMap.isChecked_simpleClass, rfl⟩,
      List.forall_mem_singleton.mpr (OptionEntry.isSingle_of_isCount rfl hr)⟩
  | network centers =>
    intro entry hentry
    rcases OptionMap.mem_networkReplication h hentry with rfl | ⟨_, hcenter, hmade⟩
    · exact ⟨⟨rfl, nofun⟩, rfl⟩
    · obtain ⟨center, hmem, rfl⟩ := List.mem_map.mp hcenter
      obtain ⟨key, hkey, rfl⟩ := Outcome.map_eq_ok_iff.mp hmade
      exact OptionEntry.isSingle_of_isCount (OptionMap.name_of_dataCenter hkey).2
        (hr.2 center hmem).counted

variable {c : KeyspaceConfiguration}

/-- What the configured replication sets. -/
def replicationOptions (c : KeyspaceConfiguration) : Except Error OptionMap :=
  match c.replication with
  | none => .ok []
  | some r => (replicationMap r).map fun m => [(KeyspaceOption.replication, .map m)]

/-- What a flag for durable writes sets. -/
def durableEntry (flag : Bool) : OptionEntry :=
  (KeyspaceOption.durableWrites, .scalar (.bool flag))

theorem check_replicationMap {r : Replication} {m : OptionMap} (hr : r.IsValid)
    (h : replicationMap r = .ok m) : KeyspaceOption.replication.check (.map m) = .ok () := by
  refine (OptionKey.check_of_isGiven rfl).mpr ⟨rfl, List.all_eq_true.mpr fun entry hentry => ?_⟩
  rw [(isSingle_of_replicationMap hr h entry hentry).2, Bool.not_false]

/-- The request that sets a configured replication. -/
def replicationEdit : Replication → KeyspaceOptionEdit
  | .simple factor => .simpleReplication (.scalar (.number factor))
  | .network centers => .networkReplication (centers.map factorEntry)

theorem replicationEdits_of_some {r : Replication} (h : c.replication = some r) :
    c.replicationEdits = [replicationEdit r] := by
  cases r <;> simp [replicationEdits, h, replicationEdit]

theorem editKeyspace_replicationEdit {r : Replication} (hr : r.IsValid) :
    OptionMap.editKeyspace [] (replicationEdit r) =
      (replicationMap r).map fun m => [(KeyspaceOption.replication, .map m)] := by
  have hset : ∀ m, replicationMap r = .ok m → OptionMap.set [] KeyspaceOption.replication (.map m) =
      .ok [(KeyspaceOption.replication, .map m)] := by
    intro m hm
    rw [OptionMap.set, check_replicationMap hr hm]
    rfl
  cases r with
  | simple factor => exact hset _ rfl
  | network centers =>
    simp only [replicationEdit, OptionMap.editKeyspace, replicationMap]
    cases hm : OptionMap.networkReplication (centers.map factorEntry) with
    | error e => rfl
    | ok m => exact hset m hm

/-- The requests of a configuration set its replication, if there is one, and then its durable
writes, if these are set at all. -/
theorem foldlM_edits (hc : c.IsValid) (flag : Option Bool) :
    (c.replicationEdits ++ flag.toList.map KeyspaceOptionEdit.durableWrites).foldlM
        OptionMap.editKeyspace [] =
      c.replicationOptions.map fun options => options ++ flag.toList.map durableEntry := by
  have hflag : ∀ options : OptionMap, options = [] ∨
      (∃ m, options = [(KeyspaceOption.replication, .map m)]) →
      (flag.toList.map KeyspaceOptionEdit.durableWrites).foldlM OptionMap.editKeyspace options =
        .ok (options ++ flag.toList.map durableEntry) := by
    rintro _ (rfl | ⟨m, rfl⟩) <;> rcases flag with _ | _ | _ <;> rfl
  -- Durable writes have a name of their own, so they come after whatever is set before.
  rw [List.foldlM_append]
  cases hr : c.replication with
  | none =>
    simp only [replicationEdits, replicationOptions, hr]
    exact hflag [] (.inl rfl)
  | some r =>
    rw [replicationEdits_of_some hr, List.foldlM_cons,
      editKeyspace_replicationEdit (hc.replicated r hr)]
    simp only [replicationOptions, hr]
    cases replicationMap r with
    | error e => rfl
    | ok m => exact hflag _ (.inr ⟨m, rfl⟩)

/-! ### Statements -/

/-- Requests to a draft that change its options alone are requests to its options. -/
theorem foldlM_map_edit {σ τ : Type} (apply : σ → τ → Except Error σ)
    (wrap : KeyspaceOptionEdit → τ) (withOptions : OptionMap → σ)
    (h : ∀ options edit,
      apply (withOptions options) (wrap edit) = (options.editKeyspace edit).map withOptions)
    (edits : List KeyspaceOptionEdit) (options : OptionMap) :
    (edits.map wrap).foldlM apply (withOptions options) =
      (edits.foldlM OptionMap.editKeyspace options).map withOptions := by
  induction edits generalizing options with
  | nil => rfl
  | cons edit rest ih =>
    rw [List.map_cons, List.foldlM_cons, List.foldlM_cons, h]
    cases options.editKeyspace edit with
    | error e => rfl
    | ok next => exact ih next

theorem creation_eq (hc : c.IsValid) : c.creation =
    (Identifier.ofName c.name false).bind fun name => c.replicationOptions.bind fun options =>
      .ok (.createKeyspace
        { name
          ifNotExists := c.ifNotExists
          options := options ++ [durableEntry (c.durableWrites.getD false)] }) := by
  let edits := c.replicationEdits ++ [.durableWrites (c.durableWrites.getD false)]
  have hedits : edits.foldlM OptionMap.editKeyspace [] = c.replicationOptions.map fun options =>
      options ++ [durableEntry (c.durableWrites.getD false)] :=
    foldlM_edits hc (some (c.durableWrites.getD false))
  refine (Outcome.bind_map _ _ (Identifier.ofName c.name false)).trans
    (congrArg (Except.bind _) (funext fun name => ?_))
  have hfold := foldlM_map_edit CreateKeyspace.apply .option
    (fun options => { name, ifNotExists := c.ifNotExists, options }) (fun _ _ => rfl) edits []
  rw [hedits] at hfold
  change ((edits.map CreateKeyspace.Edit.option).foldlM CreateKeyspace.apply
    { name, ifNotExists := c.ifNotExists }).bind (@Draft.build .createKeyspace) = _
  rw [hfold]
  cases c.replicationOptions <;> rfl

theorem alteration_eq (hc : c.IsValid) : c.alteration =
    (Identifier.ofName c.name false).bind fun name => c.replicationOptions.bind fun options =>
      (AlterKeyspace.build
        { name, options := options ++ c.durableWrites.toList.map durableEntry }).map
          .alterKeyspace := by
  let edits := c.replicationEdits ++ c.durableWrites.toList.map .durableWrites
  refine (Outcome.bind_map _ _ (Identifier.ofName c.name false)).trans
    (congrArg (Except.bind _) (funext fun name => ?_))
  have hfold := foldlM_map_edit AlterKeyspace.apply .option
    (fun options => { name, options }) (fun _ _ => rfl) edits []
  rw [foldlM_edits hc] at hfold
  change ((edits.map AlterKeyspace.Edit.option).foldlM AlterKeyspace.apply { name }).bind
    (@Draft.build .alterKeyspace) = _
  rw [hfold]
  cases c.replicationOptions <;> rfl

theorem removal_eq : c.removal = (Identifier.ofName c.name false).map fun name =>
    .dropKeyspace { name, ifExists := true } := by
  refine (Outcome.bind_map _ _ (Identifier.ofName c.name false)).trans ?_
  cases Identifier.ofName c.name false <;> rfl

/-! ### What keeps a configuration from being carried out -/

/-- The name is no identifier, or that of a data center is blank. -/
def IsMisnamed (c : KeyspaceConfiguration) : Prop :=
  ¬ Identifier.IsLegal c.name ∨ ∃ centers : List DataCenter,
    c.replication = some (.network centers) ∧ ∃ center ∈ centers, Text.isBlank center.name = true

/-- There is nothing to alter. -/
def AltersNothing (c : KeyspaceConfiguration) : Prop :=
  c.action = .alter ∧ c.replication = none ∧ c.durableWrites = none

theorem exists_replicationOptions_iff : (∃ options, c.replicationOptions = .ok options) ↔
    ¬ ∃ centers : List DataCenter, c.replication = some (.network centers) ∧
      ∃ center ∈ centers, Text.isBlank center.name = true := by
  unfold replicationOptions
  cases hr : c.replication with
  | none => simp
  | some r =>
    cases r with
    | simple factor => simp [replicationMap, Except.map]
    | network centers =>
      have hmap : (∃ options, (replicationMap (.network centers)).map (fun m =>
          [(KeyspaceOption.replication, OptionValue.map m)]) = .ok options) ↔
            ∃ m, OptionMap.networkReplication (centers.map factorEntry) = .ok m := by
        rw [replicationMap]
        cases OptionMap.networkReplication (centers.map factorEntry) <;> simp [Except.map]
      simp [hmap, OptionMap.exists_networkReplication_iff, factorEntry]

theorem exists_error_of_isMisnamed (h : c.IsMisnamed) :
    (∃ e, Identifier.ofName c.name false = .error e) ∨ ∃ e, c.replicationOptions = .error e := by
  rcases h with hname | hcenter
  · cases hi : Identifier.ofName c.name false with
    | error e => exact .inl ⟨e, rfl⟩
    | ok i => exact absurd (Identifier.exists_ofName_iff.mp ⟨i, hi⟩) hname
  · cases hoptions : c.replicationOptions with
    | error e => exact .inr ⟨e, rfl⟩
    | ok options => exact absurd hcenter (exists_replicationOptions_iff.mp ⟨options, hoptions⟩)

theorem exists_ok_of_not_isMisnamed (h : ¬ c.IsMisnamed) :
    (∃ i, Identifier.ofName c.name false = .ok i) ∧
      ∃ options, c.replicationOptions = .ok options := by
  obtain ⟨hname, hcenters⟩ := not_or.mp h
  exact ⟨Identifier.exists_ofName_iff.mpr (not_not.mp hname),
    exists_replicationOptions_iff.mpr hcenters⟩

theorem bind_of_isMisnamed {α : Type} (h : c.IsMisnamed)
    (f : Identifier → OptionMap → Except Error α) : ∃ e,
      ((Identifier.ofName c.name false).bind fun i => c.replicationOptions.bind (f i)) =
        .error e := by
  rcases exists_error_of_isMisnamed h with ⟨e, he⟩ | ⟨e, he⟩
  · exact ⟨e, by rw [he]; rfl⟩
  · cases Identifier.ofName c.name false with
    | error e => exact ⟨e, rfl⟩
    | ok i => exact ⟨e, by rw [he]; rfl⟩

/-- Nothing is done for a configuration with a wrong name, and none that alters nothing is carried
out. -/
theorem exists_error_of_actions (hc : c.IsValid) (haction : c.action ≠ .none)
    (h : c.IsMisnamed ∨ c.AltersNothing) : ∃ e, c.actions = .error e := by
  have hcreation : c.action ≠ .alter → ∃ e, c.creation = .error e := by
    intro halter
    rw [creation_eq hc]
    exact bind_of_isMisnamed (h.resolve_right fun hnothing => halter hnothing.1) _
  -- An alteration of nothing fails when it is built, if not because of the name.
  have halteration : ∃ e, c.alteration = .error e := by
    rw [alteration_eq hc]
    rcases h with hmisnamed | ⟨-, hr, hd⟩
    · exact bind_of_isMisnamed hmisnamed _
    · have hoptions : c.replicationOptions = .ok [] := by simp [replicationOptions, hr]
      rw [hoptions, hd]
      cases Identifier.ofName c.name false with
      | error e => exact ⟨e, rfl⟩
      | ok i => exact ⟨_, rfl⟩
  unfold actions
  cases h : c.action with
  | create | createDrop =>
    obtain ⟨e, he⟩ := hcreation (by simp [h])
    exact ⟨e, by rw [he]; rfl⟩
  | alter =>
    obtain ⟨e, he⟩ := halteration
    exact ⟨e, by rw [he]; rfl⟩
  | none => exact absurd h haction

/-! ### What a configuration is carried out by -/

/-- The statement creates the keyspace. It is written with the configured replication, or with one
replica, and with durable writes off unless they are configured. -/
structure Creates (c : KeyspaceConfiguration) (s : CreateKeyspace) : Prop where
  name : s.name.name = c.name
  guard : s.ifNotExists = c.ifNotExists
  names : s.effectiveOptions.names = ["replication".toList, "durable_writes".toList]
  options : ∃ m, replicationMap (c.replication.getD (.simple (Binary64.ofNat 1))) = .ok m ∧
    s.effectiveOptions = [(KeyspaceOption.replication, .map m),
      (KeyspaceOption.durableWrites, .scalar (.bool (c.durableWrites.getD false)))]

/-- The statement alters the keyspace, and sets only what is configured. -/
structure Alters (c : KeyspaceConfiguration) (s : AlterKeyspace) : Prop where
  name : s.name.name = c.name
  names : s.options.names = (if c.replication.isSome then ["replication".toList] else []) ++
    if c.durableWrites.isSome then ["durable_writes".toList] else []
  options : ∃ configured, c.replicationOptions = .ok configured ∧
    s.options = configured ++ c.durableWrites.toList.map durableEntry

/-- What sets the replication of a configuration is nothing, or one map. -/
theorem eq_of_replicationOptions {options : OptionMap} (h : c.replicationOptions = .ok options) :
    (c.replication = none ∧ options = []) ∨ ∃ r m, c.replication = some r ∧
      replicationMap r = .ok m ∧ options = [(KeyspaceOption.replication, .map m)] := by
  unfold replicationOptions at h
  cases hr : c.replication with
  | none =>
    rw [hr] at h
    exact .inl ⟨rfl, (Except.ok.inj h).symm⟩
  | some r =>
    rw [hr] at h
    obtain ⟨m, hm, rfl⟩ := Outcome.map_eq_ok_iff.mp h
    exact .inr ⟨r, m, rfl, hm, rfl⟩

/-- What stands inside the options that a configuration sets is accepted by its keys. -/
theorem isChecked_nested (hc : c.IsValid) {options : OptionMap}
    (h : c.replicationOptions = .ok options) (flags : List Bool) :
    ∀ entry ∈ OptionMap.nested (options ++ flags.map durableEntry),
      OptionEntry.IsChecked entry := by
  have hflags : OptionMap.nested (flags.map durableEntry) = [] := by
    rw [OptionMap.nested, List.flatMap_map, List.flatMap_eq_nil_iff]
    exact fun _ _ => rfl
  rw [OptionMap.nested_append, hflags, List.append_nil]
  rcases eq_of_replicationOptions h with ⟨-, rfl⟩ | ⟨r, m, hr, hm, rfl⟩
  · exact fun _ hentry => nomatch hentry
  · intro entry hentry
    rw [OptionMap.nested_cons] at hentry
    rcases List.mem_append.mp hentry with hentry | hentry
    · exact (isSingle_of_replicationMap (hc.replicated r hr) hm entry hentry).1
    · exact nomatch hentry

theorem exists_creation (hc : c.IsValid) (h : ¬ c.IsMisnamed) :
    ∃ s, c.creation = .ok (.createKeyspace s) ∧ c.Creates s ∧
      (∃ text, (Statement.createKeyspace s).render = .ok text) ∧
      c.removal = .ok (.dropKeyspace { name := s.name, ifExists := true }) := by
  obtain ⟨⟨i, hi⟩, options, hoptions⟩ := exists_ok_of_not_isMisnamed h
  let s : CreateKeyspace :=
    { name := i
      ifNotExists := c.ifNotExists
      options := options ++ [durableEntry (c.durableWrites.getD false)] }
  have hcreation : c.creation = .ok (.createKeyspace s) := by
    rw [creation_eq hc, hi, hoptions]
    rfl
  have hname : i.name = c.name := (Identifier.ofName_eq_ok_iff.mp hi).1
  have hcreates : c.Creates s := by
    rcases eq_of_replicationOptions hoptions with ⟨hr, rfl⟩ | ⟨r, m, hr, hm, rfl⟩
    · exact ⟨hname, rfl, rfl, _, by rw [hr]; rfl, rfl⟩
    · exact ⟨hname, rfl, rfl, m, by rw [hr]; exact hm, rfl⟩
  refine ⟨s, hcreation, hcreates, ?_, by rw [removal_eq, hi]; rfl⟩
  exact Statement.exists_render (Draft.isBuilt_of_complete hcreation) nofun
    (isChecked_nested hc hoptions [c.durableWrites.getD false])

theorem exists_alteration (hc : c.IsValid) (h : ¬ c.IsMisnamed)
    (hset : ¬ (c.replication = none ∧ c.durableWrites = none)) :
    ∃ s, c.alteration = .ok (.alterKeyspace s) ∧ c.Alters s ∧
      ∃ text, (Statement.alterKeyspace s).render = .ok text := by
  obtain ⟨⟨i, hi⟩, options, hoptions⟩ := exists_ok_of_not_isMisnamed h
  let s : AlterKeyspace :=
    { name := i, options := options ++ c.durableWrites.toList.map durableEntry }
  have hne : s.options.isEmpty = false := by
    rcases eq_of_replicationOptions hoptions with ⟨hr, rfl⟩ | ⟨r, m, hr, hm, rfl⟩
    · cases hd : c.durableWrites with
      | none => exact absurd ⟨hr, hd⟩ hset
      | some flag => simp [s, hd]
    · rfl
  have halteration : c.alteration = .ok (.alterKeyspace s) := by
    rw [alteration_eq hc, hi, hoptions]
    change (AlterKeyspace.build s).map Statement.alterKeyspace = .ok (.alterKeyspace s)
    rw [AlterKeyspace.build, hne]
    rfl
  have hnames : s.options.names =
      (if c.replication.isSome then ["replication".toList] else []) ++
        if c.durableWrites.isSome then ["durable_writes".toList] else [] := by
    rcases eq_of_replicationOptions hoptions with ⟨hr, rfl⟩ | ⟨r, m, hr, hm, rfl⟩ <;>
      cases hd : c.durableWrites <;> simp only [s, hr, hd] <;> rfl
  refine ⟨s, halteration, ⟨(Identifier.ofName_eq_ok_iff.mp hi).1, hnames, options, hoptions, rfl⟩,
    ?_⟩
  exact Statement.exists_render (Draft.isBuilt_of_complete halteration) nofun
    (isChecked_nested hc hoptions c.durableWrites.toList)

/-- The statements are those that the configured action asks for, and no others. What drops the
keyspace in the end is the inverse of what creates it, with the same text. -/
def IsFulfilled (c : KeyspaceConfiguration) (actions : KeyspaceActions) : Prop :=
  match c.action with
  | .create => ∃ s, c.Creates s ∧ actions.startup = [.createKeyspace s] ∧ actions.shutdown = []
  | .createDrop => ∃ s t text, c.Creates s ∧ actions.startup = [.createKeyspace s] ∧
      actions.shutdown = [t] ∧ (Statement.createKeyspace s).inverse? = some t ∧
      t.render = .ok text ∧
      (Specification.statement (.createKeyspace s)).inverseText? = .ok (some text)
  | .alter => ∃ s, c.Alters s ∧ actions.startup = [.alterKeyspace s] ∧ actions.shutdown = []
  | .none => actions.startup = [] ∧ actions.shutdown = []

theorem exists_isFulfilled (hc : c.IsValid)
    (h : c.action ≠ .none → ¬ (c.IsMisnamed ∨ c.AltersNothing)) :
    ∃ actions, c.actions = .ok actions ∧ c.IsFulfilled actions ∧
      ∀ s ∈ actions.startup ++ actions.shutdown, ∃ text, s.render = .ok text := by
  unfold IsFulfilled actions
  cases haction : c.action with
  | create =>
    obtain ⟨hmisnamed, -⟩ := not_or.mp (h (by simp [haction]))
    obtain ⟨s, hs, hcreates, hrender, -⟩ := exists_creation hc hmisnamed
    refine ⟨⟨[.createKeyspace s], []⟩, by rw [hs]; rfl, ⟨s, hcreates, rfl, rfl⟩, ?_⟩
    exact List.forall_mem_singleton.mpr hrender
  | createDrop =>
    obtain ⟨hmisnamed, -⟩ := not_or.mp (h (by simp [haction]))
    obtain ⟨s, hs, hcreates, hrender, hremoval⟩ := exists_creation hc hmisnamed
    let t : DropKeyspace := { name := s.name, ifExists := true }
    refine ⟨⟨[.createKeyspace s], [.dropKeyspace t]⟩, by rw [hs, hremoval]; rfl,
      ⟨s, .dropKeyspace t, t.render, hcreates, rfl, rfl, rfl, rfl, rfl⟩, ?_⟩
    exact List.forall_mem_cons.mpr ⟨hrender, List.forall_mem_singleton.mpr ⟨t.render, rfl⟩⟩
  | alter =>
    obtain ⟨hmisnamed, hnothing⟩ := not_or.mp (h (by simp [haction]))
    obtain ⟨s, hs, halters, hrender⟩ :=
      exists_alteration hc hmisnamed fun hset => hnothing ⟨haction, hset⟩
    refine ⟨⟨[.alterKeyspace s], []⟩, by rw [hs]; rfl, ⟨s, halters, rfl, rfl⟩, ?_⟩
    exact List.forall_mem_singleton.mpr hrender
  | none => exact ⟨⟨[], []⟩, rfl, ⟨rfl, rfl⟩, fun _ hs => nomatch hs⟩

/-- A configuration that could be read is carried out, unless something is to be done and a name is
wrong, or nothing would be altered. The statements that it is carried out by can be written, and are
those that the action asks for. -/
theorem resolve_of_read {data : Datum} (hread : read data = .ok c) :
    ((∃ e, KeyspaceActions.resolve data = .error e) ↔
      c.action ≠ .none ∧ (c.IsMisnamed ∨ c.AltersNothing)) ∧
    ∀ actions, KeyspaceActions.resolve data = .ok actions →
      c.IsFulfilled actions ∧
        ∀ s ∈ actions.startup ++ actions.shutdown, ∃ text, s.render = .ok text := by
  have hc := isValid_of_read hread
  have hresolve : KeyspaceActions.resolve data = c.actions := by
    simp [KeyspaceActions.resolve, hread]
  rw [hresolve]
  by_cases h : c.action ≠ .none ∧ (c.IsMisnamed ∨ c.AltersNothing)
  · obtain ⟨e, he⟩ := exists_error_of_actions hc h.1 h.2
    rw [he]
    exact ⟨⟨fun _ => h, fun _ => ⟨e, rfl⟩⟩, fun _ hok => absurd hok (by simp)⟩
  · obtain ⟨actions, hactions, hfulfilled⟩ :=
      exists_isFulfilled hc fun haction hfault => h ⟨haction, hfault⟩
    rw [hactions]
    refine ⟨⟨fun herror => absurd herror (by simp), fun hfault => absurd hfault h⟩,
      fun other hother => ?_⟩
    obtain rfl := Except.ok.inj hother
    exact hfulfilled

/-- A keyspace whose name is a reserved word, which is dropped in the end. -/
def orderData : Datum :=
  .object [("name".toList, .text "order".toList), ("action".toList, .text "CREATE_DROP".toList),
    ("replication".toList, .object [("strategy".toList, .text "SimpleStrategy".toList)])]

/-- The configuration that the data holds, with its defaults. -/
def order : KeyspaceConfiguration where
  name := "order".toList
  action := .createDrop
  ifNotExists := false
  durableWrites := none
  replication := some (.simple (Binary64.ofNat 1))

/-- The name is quoted where the keyspace is created, and where it is dropped. -/
theorem resolve_order : read orderData = .ok order ∧
    ∃ actions s t, KeyspaceActions.resolve orderData = .ok actions ∧
      actions.startup = [.createKeyspace s] ∧
      s.effectiveOptions.names = ["replication".toList, "durable_writes".toList] ∧
      actions.shutdown = [t] ∧ (Statement.createKeyspace s).inverse? = some t ∧
      t.render = .ok "DROP KEYSPACE IF EXISTS \"order\";".toList := by
  have hread : read orderData = .ok order := by decide +kernel
  obtain ⟨actions, hactions⟩ : ∃ actions, order.actions = .ok actions := ⟨_, rfl⟩
  have hresolve : KeyspaceActions.resolve orderData = .ok actions := by
    simpa [KeyspaceActions.resolve, hread] using hactions
  obtain ⟨s, t, text, hcreates, hstartup, hshutdown, hinverse, hrender, -⟩ :=
    ((resolve_of_read hread).2 actions hresolve).1
  have hquoted : s.name.quoted = true := by
    cases h : s.name.quoted with
    | true => rfl
    | false =>
      have hbare := s.name.bare h
      rw [hcreates.name] at hbare
      exact absurd hbare (by decide)
  have hname : s.name = ⟨"order".toList, true, by decide, by decide⟩ :=
    Identifier.eq_iff.mpr ⟨hcreates.name, hquoted⟩
  refine ⟨hread, actions, s, t, hresolve, hstartup, hcreates.names, hshutdown, hinverse, ?_⟩
  rw [← Option.some.inj hinverse, hname]
  rfl

end KeyspaceConfiguration

end CqlDdl
