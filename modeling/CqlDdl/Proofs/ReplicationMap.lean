import CqlDdl.Configuration.Actions
import CqlDdl.Proofs.OptionHistory

/-! Replication maps for several data centers. The data centers are put by name into a map that
holds the class of the strategy: each of them has one entry, with its last factor, and the class
keeps its entry unless a data center has the name of the class. Main statement:
`OptionMap.replicates_network`. -/

namespace CqlDdl

/-- The entry that says that replicas are placed by data center. -/
def OptionMap.networkEntry : OptionEntry :=
  (ReplicationOption.strategyClass, .scalar (.text ReplicationStrategy.networkTopology.className))

namespace OptionMap

/-- The entry of a data center. -/
def centerEntry (center : Text × OptionValue) : Except Error OptionEntry :=
  (OptionKey.dataCenter center.1).map fun key => (key, center.2)

/-- A map that replicates to data centers: after the class of the strategy stand the names of the
data centers, each once, where it came first, with the last factor that was given for it. -/
structure Replicates (m : OptionMap) (centers : List (Text × OptionValue)) : Prop where
  strategy : m.head? = some networkEntry
  names : OptionMap.names m.tail = (centers.map Prod.fst).eraseDups
  factor : ∀ name ∈ centers.map Prod.fst, ∃ key factor, OptionKey.dataCenter name = .ok key ∧
    centers.reverse.find? (fun center => center.1 = name) = some (name, factor) ∧
    m.tail.find? (fun entry => entry.1.name = name) = some (key, factor)

/-! ### Data centers -/

theorem name_of_dataCenter {name : Text} {key : OptionKey}
    (h : OptionKey.dataCenter name = .ok key) : key.name = name ∧ key.type = .number := by
  unfold OptionKey.dataCenter OptionKey.make at h
  split at h
  · obtain rfl := Except.ok.inj h
    exact ⟨rfl, rfl⟩
  · simp at h

theorem exists_dataCenter {name : Text} (h : Text.isBlank name = false) :
    ∃ key, OptionKey.dataCenter name = .ok key := by
  unfold OptionKey.dataCenter OptionKey.make
  rw [dif_pos h]
  exact ⟨_, rfl⟩

/-- Data centers are put by name, one after another. -/
theorem putDataCenters_eq (options : OptionMap) (centers : List (Text × OptionValue)) :
    options.putDataCenters centers = (Entries.traverse centerEntry centers).map
      fun entries => entries.foldl (Entries.putNamed OptionKey.name) options := by
  induction centers generalizing options with
  | nil => rfl
  | cons center rest ih =>
    obtain ⟨name, factor⟩ := center
    cases hkey : OptionKey.dataCenter name with
    | error e => simp [putDataCenters, Entries.traverse, centerEntry, hkey, Except.map]
    | ok key =>
      have hput := options.put_eq_putNamed (key, factor)
      cases hrest : Entries.traverse centerEntry rest with
      | error e =>
        simp [putDataCenters, Entries.traverse, centerEntry, hkey, hrest, ih, Except.map]
      | ok entries =>
        simp [putDataCenters, Entries.traverse, centerEntry, hkey, hrest, ih, hput, Except.map]

theorem networkReplication_eq (centers : List (Text × OptionValue)) :
    networkReplication centers = (Entries.traverse centerEntry centers).map
      fun entries => (networkEntry :: entries).foldl (Entries.putNamed OptionKey.name) [] :=
  putDataCenters_eq [networkEntry] centers

/-- Names that are not blank have entries, which keep the names and the factors. -/
theorem exists_entries {centers : List (Text × OptionValue)}
    (h : ∀ center ∈ centers, Text.isBlank center.1 = false) :
    ∃ entries, Entries.traverse centerEntry centers = .ok entries := by
  induction centers with
  | nil => exact ⟨[], rfl⟩
  | cons center rest ih =>
    obtain ⟨key, hkey⟩ := exists_dataCenter (h center List.mem_cons_self)
    obtain ⟨entries, hentries⟩ := ih fun c hc => h c (List.mem_cons_of_mem center hc)
    exact ⟨(key, center.2) :: entries, by
      simp [Entries.traverse, centerEntry, hkey, hentries, Except.map]⟩

/-- The entries of data centers keep the names and the factors in order. -/
theorem map_of_entries {centers : List (Text × OptionValue)} {entries : OptionMap}
    (h : Entries.traverse centerEntry centers = .ok entries) :
    entries.map (Prod.map OptionKey.name id) = centers ∧
      ∀ entry ∈ entries, OptionKey.dataCenter entry.1.name = .ok entry.1 := by
  have hmap := Entries.traverse_eq_ok_iff.mp h
  clear h
  induction entries generalizing centers with
  | nil => simpa using hmap
  | cons entry entries ih =>
    cases centers with
    | nil => simp at hmap
    | cons center rest =>
      obtain ⟨hentry, hrest⟩ := List.cons.inj hmap
      obtain ⟨key, hkey, rfl⟩ := Outcome.map_eq_ok_iff.mp hentry
      obtain ⟨hcenters, hkeys⟩ := ih hrest
      have hname := (name_of_dataCenter hkey).1
      refine ⟨?_, List.forall_mem_cons.mpr ⟨by rw [hname, hkey], hkeys⟩⟩
      rw [List.map_cons, hcenters]
      simp [hname]

section

variable {centers : List (Text × OptionValue)} {entries : OptionMap}

/-- What stands under a name is the last entry that was put under it. -/
theorem find?_foldl_putNamed (puts : OptionMap) (name : Text) :
    (puts.foldl (Entries.putNamed OptionKey.name) []).find? (fun entry => entry.1.name = name) =
      puts.reverse.find? fun entry => entry.1.name = name :=
  Entries.named?_foldl_putNamed puts name

/-- The last entry under the name of a data center has its key, and its last factor. -/
theorem find?_reverse_entries (h : Entries.traverse centerEntry centers = .ok entries)
    {name : Text} (hname : name ∈ centers.map Prod.fst) :
    ∃ key factor, OptionKey.dataCenter name = .ok key ∧
      centers.reverse.find? (fun center => center.1 = name) = some (name, factor) ∧
      entries.reverse.find? (fun entry => entry.1.name = name) = some (key, factor) := by
  obtain ⟨hcenters, hkeys⟩ := map_of_entries h
  have hfind : centers.reverse.find? (fun center => center.1 = name) =
      (entries.reverse.find? fun entry => entry.1.name = name).map
        (Prod.map OptionKey.name id) := by
    rw [← hcenters, ← List.map_reverse, List.find?_map]
    rfl
  cases hentry : entries.reverse.find? (fun entry => entry.1.name = name) with
  | none =>
    obtain ⟨entry, hmem, hentryName⟩ : ∃ entry ∈ entries, entry.1.name = name := by
      rw [← hcenters] at hname
      simpa using hname
    have hnot := List.find?_eq_none.mp hentry entry (List.mem_reverse.mpr hmem)
    exact absurd hentryName (by simpa using hnot)
  | some entry =>
    have hentryName : entry.1.name = name := by simpa using List.find?_some hentry
    have hmem := List.mem_reverse.mp (List.mem_of_find?_eq_some hentry)
    refine ⟨entry.1, entry.2, hentryName ▸ hkeys entry hmem, ?_, rfl⟩
    rw [hfind, hentry, ← hentryName]
    rfl

end

theorem head?_eq_find? {m : OptionMap} {name : Text} {rest : List Text}
    (h : m.names = name :: rest) : m.head? = m.find? fun entry => entry.1.name = name := by
  cases m with
  | nil => simp [names] at h
  | cons entry m => simp [(List.cons.inj h).1]

/-- No data center has the key of the strategy's class, even where it has its name. -/
theorem ne_networkEntry_of_dataCenter {name : Text} {key : OptionKey} {factor : OptionValue}
    (h : OptionKey.dataCenter name = .ok key) : (key, factor) ≠ networkEntry := by
  intro heq
  have htype := (name_of_dataCenter h).2
  rw [show key = ReplicationOption.strategyClass from congrArg Prod.fst heq] at htype
  exact absurd htype (by decide)

section

variable {centers : List (Text × OptionValue)} {m : OptionMap}

/-- The class keeps its place, and the other names follow in theirs. -/
theorem names_of_networkReplication (h : networkReplication centers = .ok m) :
    m.names = ReplicationOption.strategyClass.name ::
      ((centers.map Prod.fst).filter (· != ReplicationOption.strategyClass.name)).eraseDups := by
  rw [networkReplication_eq] at h
  obtain ⟨entries, hentries, rfl⟩ := Outcome.map_eq_ok_iff.mp h
  obtain ⟨hcenters, -⟩ := map_of_entries hentries
  have hfold : names ((networkEntry :: entries).foldl (Entries.putNamed OptionKey.name) []) =
      (Entries.names OptionKey.name (networkEntry :: entries)).eraseDups :=
    Entries.names_foldl_putNamed (networkEntry :: entries)
  have hcons : Entries.names OptionKey.name (networkEntry :: entries) =
      ReplicationOption.strategyClass.name :: centers.map Prod.fst := by
    rw [← hcenters]
    simp [Entries.names, networkEntry]
  rw [hcons, List.eraseDups_cons] at hfold
  exact hfold

theorem find?_of_networkReplication (h : networkReplication centers = .ok m) {name : Text}
    (hname : name ∈ centers.map Prod.fst) :
    ∃ key factor, OptionKey.dataCenter name = .ok key ∧
      centers.reverse.find? (fun center => center.1 = name) = some (name, factor) ∧
      m.find? (fun entry => entry.1.name = name) = some (key, factor) := by
  rw [networkReplication_eq] at h
  obtain ⟨entries, hentries, rfl⟩ := Outcome.map_eq_ok_iff.mp h
  obtain ⟨key, factor, hkey, hlast, hentry⟩ := find?_reverse_entries hentries hname
  refine ⟨key, factor, hkey, hlast, ?_⟩
  rw [find?_foldl_putNamed, List.reverse_cons, List.find?_append, hentry, Option.some_or]

/-- The class is still the one of the strategy where no data center was put in its place. -/
theorem find?_class_of_networkReplication (h : networkReplication centers = .ok m)
    (hname : ReplicationOption.strategyClass.name ∉ centers.map Prod.fst) :
    m.find? (fun entry => entry.1.name = ReplicationOption.strategyClass.name) =
      some networkEntry := by
  rw [networkReplication_eq] at h
  obtain ⟨entries, hentries, rfl⟩ := Outcome.map_eq_ok_iff.mp h
  obtain ⟨hcenters, -⟩ := map_of_entries hentries
  have hnone : entries.reverse.find? (fun entry =>
      entry.1.name = ReplicationOption.strategyClass.name) = none := by
    refine List.find?_eq_none.mpr fun entry hmem hentry => hname ?_
    have hmap : entry.1.name ∈ centers.map Prod.fst := by
      rw [← hcenters, List.map_map]
      exact List.mem_map_of_mem (List.mem_reverse.mp hmem)
    rwa [of_decide_eq_true hentry] at hmap
  rw [find?_foldl_putNamed, List.reverse_cons, List.find?_append, hnone, Option.none_or]
  rfl

theorem replicates_iff (h : networkReplication centers = .ok m) :
    m.Replicates centers ↔ ReplicationOption.strategyClass.name ∉ centers.map Prod.fst := by
  have hnames := names_of_networkReplication h
  have hhead := head?_eq_find? hnames
  constructor
  · intro hreplicates hname
    obtain ⟨key, factor, hkey, -, hfind⟩ := find?_of_networkReplication h hname
    rw [hreplicates.strategy, hfind] at hhead
    exact ne_networkEntry_of_dataCenter hkey (Option.some.inj hhead).symm
  · intro hname
    rw [find?_class_of_networkReplication h hname] at hhead
    obtain ⟨rest, rfl⟩ := List.head?_eq_some_iff.mp hhead
    have hfilter : (centers.map Prod.fst).filter
        (· != ReplicationOption.strategyClass.name) = centers.map Prod.fst :=
      List.filter_eq_self.mpr fun name hmem => bne_iff_ne.mpr fun heq => hname (heq ▸ hmem)
    rw [hfilter] at hnames
    refine ⟨hhead, (List.cons.inj hnames).2, fun name hmem => ?_⟩
    obtain ⟨key, factor, hkey, hlast, hfind⟩ := find?_of_networkReplication h hmem
    have hne : networkEntry.1.name ≠ name := fun heq => hname (heq ▸ hmem)
    rw [List.find?_cons_of_neg (by simpa using hne)] at hfind
    exact ⟨key, factor, hkey, hlast, hfind⟩

end

end OptionMap

/-! ### Configurations -/

theorem KeyspaceOptionEdit.entry_networkReplication {centers : List (Text × OptionValue)}
    {entry : OptionEntry} (h : (networkReplication centers).entry = .ok entry) :
    ∃ m, OptionMap.networkReplication centers = .ok m ∧
      entry = (KeyspaceOption.replication, .map m) := by
  simp only [KeyspaceOptionEdit.entry] at h
  split at h
  · rename_i m hm
    obtain ⟨-, -, rfl⟩ := Outcome.map_eq_ok_iff.mp h
    exact ⟨m, hm, rfl⟩
  · simp at h

theorem KeyspaceOptionEdit.entry_durableWrites (flag : Bool) :
    (durableWrites flag).entry = .ok (KeyspaceOption.durableWrites, .scalar (.bool flag)) := by
  cases flag <;> rfl

/-- Requests about durable writes leave the replication that was set before them. -/
theorem OptionMap.find?_replication {request : KeyspaceOptionEdit} {value : OptionValue}
    (h : request.entry = .ok (KeyspaceOption.replication, value)) (flags : List Bool) :
    ((((request :: flags.map .durableWrites).filterMap fun r => r.entry.toOption).foldl
      (Entries.putNamed OptionKey.name) []).find? fun entry =>
        entry.1.name = KeyspaceOption.replication.name) =
      some (KeyspaceOption.replication, value) := by
  have hentries : ((request :: flags.map .durableWrites).filterMap fun r => r.entry.toOption) =
      (KeyspaceOption.replication, value) ::
        flags.map fun flag => (KeyspaceOption.durableWrites, .scalar (.bool flag)) := by
    simp [h, KeyspaceOptionEdit.entry_durableWrites, Except.toOption, List.filterMap_map]
  have hnone : ((flags.map fun flag => ((KeyspaceOption.durableWrites, .scalar (.bool flag)) :
      OptionEntry)).reverse.find? fun entry =>
        entry.1.name = KeyspaceOption.replication.name) = none := by
    have hne : KeyspaceOption.durableWrites.name ≠ KeyspaceOption.replication.name := by decide
    refine List.find?_eq_none.mpr fun entry hentry => ?_
    obtain ⟨flag, -, rfl⟩ := List.mem_map.mp (List.mem_reverse.mp hentry)
    simpa using hne
  rw [hentries, find?_foldl_putNamed, List.reverse_cons, List.find?_append, hnone, Option.none_or]
  rfl

namespace KeyspaceConfiguration

variable {c : KeyspaceConfiguration} {centers : List Configuration.DataCenter} {s : Statement}

/-- The statement sets its replication to the map of the configured data centers. -/
def SetsNetwork (s : Statement) (centers : List Configuration.DataCenter) : Prop :=
  ∃ m, OptionMap.networkReplication (centers.map factorEntry) = .ok m ∧
    (s.options.find? fun entry => entry.1.name = KeyspaceOption.replication.name) =
      some (KeyspaceOption.replication, .map m)

theorem setsNetwork_of_options {entry : OptionEntry} (flags : List Bool)
    (hentry : (KeyspaceOptionEdit.networkReplication (centers.map factorEntry)).entry = .ok entry)
    (hoptions : s.options = ((.networkReplication (centers.map factorEntry) ::
      flags.map .durableWrites).filterMap fun r : KeyspaceOptionEdit =>
        r.entry.toOption).foldl (Entries.putNamed OptionKey.name) []) :
    SetsNetwork s centers := by
  obtain ⟨m, hm, rfl⟩ := KeyspaceOptionEdit.entry_networkReplication hentry
  exact ⟨m, hm, hoptions ▸ OptionMap.find?_replication hentry flags⟩

theorem setsNetwork_of_creation (hc : c.replication = some (.network centers))
    (h : c.creation = .ok s) : SetsNetwork s centers := by
  obtain ⟨hoptions, hentries⟩ := Draft.options_of_complete h
  simp only [replicationEdits, hc] at hoptions hentries
  obtain ⟨entry, hentry⟩ := hentries
    (.option (.networkReplication (centers.map factorEntry))) (by simp) _ rfl
  exact setsNetwork_of_options [c.durableWrites.getD false] hentry hoptions

theorem setsNetwork_of_alteration (hc : c.replication = some (.network centers))
    (h : c.alteration = .ok s) : SetsNetwork s centers := by
  obtain ⟨hoptions, hentries⟩ := Draft.options_of_complete h
  simp only [replicationEdits, hc] at hoptions hentries
  obtain ⟨entry, hentry⟩ := hentries
    (.option (.networkReplication (centers.map factorEntry))) (by simp) _ rfl
  rw [Draft.puts, List.filterMap_map] at hoptions
  exact setsNetwork_of_options c.durableWrites.toList hentry hoptions

/-- Unless nothing is to be done, an application starts with one statement. -/
theorem startup_of_actions {actions : KeyspaceActions} (haction : c.action ≠ .none)
    (h : c.actions = .ok actions) :
    ∃ s, actions.startup = [s] ∧ (c.creation = .ok s ∨ c.alteration = .ok s) := by
  unfold KeyspaceConfiguration.actions at h
  split at h
  · cases hs : c.creation with
    | error e => simp [hs, bind, Except.bind] at h
    | ok s =>
      rw [hs] at h
      obtain rfl := Except.ok.inj h
      exact ⟨s, rfl, .inl rfl⟩
  · cases hs : c.creation with
    | error e => simp [hs, bind, Except.bind] at h
    | ok s =>
      cases hremoval : c.removal with
      | error e => simp [hs, hremoval, bind, Except.bind] at h
      | ok t =>
        rw [hs, hremoval] at h
        obtain rfl := Except.ok.inj h
        exact ⟨s, rfl, .inl rfl⟩
  · cases hs : c.alteration with
    | error e => simp [hs, bind, Except.bind] at h
    | ok s =>
      rw [hs] at h
      obtain rfl := Except.ok.inj h
      exact ⟨s, rfl, .inr rfl⟩
  · rename_i hnone
    exact absurd hnone haction

end KeyspaceConfiguration

namespace OptionMap

/-- Data centers whose names are not blank make a map, which replicates to them exactly when none of
them has the name of the class. The statement that a configuration starts with, where it names these
data centers and asks for anything to be done, sets its replication to such a map. -/
theorem replicates_network (centers : List (Text × OptionValue)) :
    ((∀ center ∈ centers, Text.isBlank center.1 = false) →
      ∃ m, networkReplication centers = .ok m ∧
        (m.Replicates centers ↔ ReplicationOption.strategyClass.name ∉ centers.map Prod.fst)) ∧
    ∀ (data : Datum) (c : KeyspaceConfiguration) (configured : List Configuration.DataCenter)
      (actions : KeyspaceActions), KeyspaceConfiguration.read data = .ok c →
      c.replication = some (.network configured) →
      configured.map KeyspaceConfiguration.factorEntry = centers → c.action ≠ .none →
      KeyspaceActions.resolve data = .ok actions →
      ∃ (s : Statement) (m : OptionMap), actions.startup = [s] ∧
        (s.options.find? fun entry => entry.1.name = KeyspaceOption.replication.name) =
          some (KeyspaceOption.replication, .map m) ∧
        (m.Replicates centers ↔ ReplicationOption.strategyClass.name ∉ centers.map Prod.fst) := by
  refine ⟨fun h => ?_, fun data c configured actions hread hc hcenters haction h => ?_⟩
  · obtain ⟨entries, hentries⟩ := exists_entries h
    have hm := networkReplication_eq centers
    rw [hentries] at hm
    exact ⟨_, hm, replicates_iff hm⟩
  · subst hcenters
    have hactions : c.actions = .ok actions := by
      simpa [KeyspaceActions.resolve, hread] using h
    obtain ⟨s, hstartup, hs⟩ := KeyspaceConfiguration.startup_of_actions haction hactions
    obtain ⟨m, hm, hset⟩ : KeyspaceConfiguration.SetsNetwork s configured := by
      rcases hs with hs | hs
      · exact KeyspaceConfiguration.setsNetwork_of_creation hc hs
      · exact KeyspaceConfiguration.setsNetwork_of_alteration hc hs
    exact ⟨s, m, hstartup, hset, replicates_iff hm⟩

/-- The number three, by its fields. -/
def three : Binary64 := ⟨false, 1024, 2251799813685248⟩

/-- A configuration with a data center that comes twice. -/
def shopData : Datum :=
  .object [("name".toList, .text "shop".toList), ("action".toList, .text "CREATE".toList),
    ("replication".toList, .object [
      ("strategy".toList, .text "NetworkTopologyStrategy".toList),
      ("dataCenters".toList, .array [
        .object [("name".toList, .text "dc1".toList), ("replicationFactor".toList, .number three)],
        .object [("name".toList, .text "dc2".toList), ("replicationFactor".toList, .number three)],
        .object [("name".toList, .text "dc1".toList),
          ("replicationFactor".toList, .number three)]])])]

/-- The configuration that the data holds. -/
def shop : KeyspaceConfiguration where
  name := "shop".toList
  action := .create
  ifNotExists := false
  durableWrites := none
  replication := some
    (.network [⟨"dc1".toList, three⟩, ⟨"dc2".toList, three⟩, ⟨"dc1".toList, three⟩])

/-- Where a data center comes twice, it has one entry, in the first of its places. -/
theorem replicates_shop :
    KeyspaceConfiguration.read shopData = .ok shop ∧
      ∃ (actions : KeyspaceActions) (s : Statement) (m : OptionMap),
        KeyspaceActions.resolve shopData = .ok actions ∧ actions.startup = [s] ∧
        s.options.find? (fun entry => entry.1.name = KeyspaceOption.replication.name) =
          some (KeyspaceOption.replication, .map m) ∧
        m.head? = some networkEntry ∧
        OptionMap.names m.tail = ["dc1".toList, "dc2".toList] := by
  have hread : KeyspaceConfiguration.read shopData = .ok shop := by decide +kernel
  obtain ⟨actions, hactions⟩ : ∃ actions, shop.actions = .ok actions := ⟨_, rfl⟩
  have hresolve : KeyspaceActions.resolve shopData = .ok actions := by
    simpa [KeyspaceActions.resolve, hread] using hactions
  obtain ⟨s, m, hstartup, hset, hiff⟩ :=
    (replicates_network _).2 shopData shop _ actions hread rfl rfl (by decide) hresolve
  have hreplicates := hiff.mpr (by decide)
  exact ⟨hread, actions, s, m, hresolve, hstartup, hset, hreplicates.strategy,
    hreplicates.names.trans (by decide)⟩

/-- A data center with the name of the class takes its place, and no strategy is left. -/
theorem networkReplication_class :
    ∃ key, OptionKey.dataCenter "class".toList = .ok key ∧
      networkReplication [("class".toList, .scalar (.number three))] =
        .ok [(key, .scalar (.number three))] ∧
      ¬ Replicates [(key, .scalar (.number three))]
        [("class".toList, .scalar (.number three))] := by
  obtain ⟨key, hkey⟩ := @exists_dataCenter "class".toList (by decide)
  obtain rfl : _ = key := Except.ok.inj hkey
  exact ⟨_, rfl, rfl, fun h => ne_networkEntry_of_dataCenter hkey (Option.some.inj h.strategy)⟩

end OptionMap

end CqlDdl
