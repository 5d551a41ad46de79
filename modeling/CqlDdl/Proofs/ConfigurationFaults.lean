import CqlDdl.Configuration.Reading
import CqlDdl.Outcome
import CqlDdl.Proofs.ConfigurationData

/-! What is wrong with data that holds no configuration. Reading goes on after a problem, so the
paths that it tells are all those at which the data offends, and no others. -/

namespace CqlDdl

namespace Configuration

/-! ### Where data offends -/

/-- Where the data at `path`, which should be a data center, offends. -/
inductive DataCenterOffends (path : Path) (data : Datum) : Path → Prop
  | shape (h : data.shape ≠ .object) : DataCenterOffends path data path
  | name (shape : data.shape = .object)
      (h : ¬ ∃ name, HoldsName (data.field "name".toList) name) :
      DataCenterOffends path data (path ++ [.field "name".toList])
  | replicationFactor (shape : data.shape = .object)
      (h : ¬ ∃ count, HoldsCount (data.field "replicationFactor".toList) count) :
      DataCenterOffends path data (path ++ [.field "replicationFactor".toList])

/-- Where the data at `path`, which should be a list of data centers, offends. Every data center
may. -/
inductive DataCentersOffend (path : Path) (data : Datum) : Path → Prop
  | list (h : ∀ elements, data = .array elements → elements = []) :
      DataCentersOffend path data path
  | element {elements : List Datum} {i : Nat} {element : Datum} {place : Path}
      (list : data = .array elements) (get : elements[i]? = some element)
      (h : DataCenterOffends (path ++ [.index i]) element place) :
      DataCentersOffend path data place

/-- Where the data at `path`, which should be a replication, offends. If the strategy is unknown,
nothing else is known to be wrong. -/
inductive ReplicationOffends (path : Path) (data : Datum) : Path → Prop
  | shape (h : data.shape ≠ .object) : ReplicationOffends path data path
  | strategy (shape : data.shape = .object)
      (simple : data.field "strategy".toList ≠ .text "SimpleStrategy".toList)
      (network : data.field "strategy".toList ≠ .text "NetworkTopologyStrategy".toList) :
      ReplicationOffends path data (path ++ [.field "strategy".toList])
  | replicationFactor (shape : data.shape = .object)
      (strategy : data.field "strategy".toList = .text "SimpleStrategy".toList)
      (given : data.field "replicationFactor".toList ≠ .absent)
      (h : ¬ ∃ count, HoldsCount (data.field "replicationFactor".toList) count) :
      ReplicationOffends path data (path ++ [.field "replicationFactor".toList])
  | dataCenters {place : Path} (shape : data.shape = .object)
      (strategy : data.field "strategy".toList = .text "NetworkTopologyStrategy".toList)
      (h : DataCentersOffend (path ++ [.field "dataCenters".toList])
        (data.field "dataCenters".toList) place) :
      ReplicationOffends path data place

end Configuration

namespace KeyspaceConfiguration

open CqlDdl.Configuration

/-- Where the data, which should be a configuration, offends. -/
inductive Offends (data : Datum) : Path → Prop
  | shape (h : data.shape ≠ .object) : Offends data []
  | name (shape : data.shape = .object)
      (h : ¬ ∃ name, HoldsName (data.field "name".toList) name) :
      Offends data [.field "name".toList]
  | action (shape : data.shape = .object)
      (h : ¬ ∃ action, HoldsAction (data.field "action".toList) action) :
      Offends data [.field "action".toList]
  | ifNotExists (shape : data.shape = .object)
      (given : data.field "ifNotExists".toList ≠ .absent)
      (h : ¬ ∃ flag, HoldsFlag (data.field "ifNotExists".toList) flag) :
      Offends data [.field "ifNotExists".toList]
  | durableWrites (shape : data.shape = .object)
      (given : data.field "durableWrites".toList ≠ .absent)
      (h : ¬ ∃ flag, HoldsFlag (data.field "durableWrites".toList) flag) :
      Offends data [.field "durableWrites".toList]
  | replication {path : Path} (shape : data.shape = .object)
      (given : data.field "replication".toList ≠ .absent)
      (h : ReplicationOffends [.field "replication".toList] (data.field "replication".toList)
        path) :
      Offends data path

end KeyspaceConfiguration

/-! ### Readers -/

namespace Configuration.Reading

variable {α β : Type}

/-- The paths at which something is wrong. -/
def paths : Reading α → List Path
  | .ok _ => []
  | .error issues => issues.map Issue.path

/-- What holds is read, and the paths that offend are told, and no others. A failure tells at least
one of them. -/
structure Tells (x : Reading α) (holds : α → Prop) (offends : Path → Prop) : Prop where
  ok_iff : ∀ value, x = .ok value ↔ holds value
  ne_nil : ∀ issues, x = .error issues → issues ≠ []
  mem_paths_iff : ∀ path, path ∈ paths x ↔ offends path

/-- The path offends, as nothing can be read there. -/
def LacksAt (path : Path) (holds : α → Prop) (place : Path) : Prop :=
  place = path ∧ ¬ ∃ value, holds value

section

variable {x : Reading α} {y : Reading β} {holds holds' : α → Prop} {other : β → Prop}
  {offends offends' otherOffends : Path → Prop} {path : Path}

theorem tells_ok {value : α} (h : ∀ other, holds other ↔ value = other) :
    Tells (.ok value) holds (LacksAt path holds) where
  ok_iff other := by rw [Except.ok.injEq, h]
  ne_nil := nofun
  mem_paths_iff place := by
    have hvalue : ∃ value, holds value := ⟨value, (h value).mpr rfl⟩
    simp [paths, LacksAt, hvalue]

theorem tells_error {issues : List Issue} (hne : issues ≠ [])
    (hpath : ∀ issue ∈ issues, issue.path = path) (h : ∀ value, ¬ holds value) :
    Tells (.error issues) holds (LacksAt path holds) where
  ok_iff value := ⟨nofun, fun hvalue => absurd hvalue (h value)⟩
  ne_nil _ hissues := Except.error.inj hissues ▸ hne
  mem_paths_iff place := by
    constructor
    · intro hplace
      obtain ⟨issue, hissue, rfl⟩ := List.mem_map.mp hplace
      exact ⟨hpath issue hissue, fun ⟨value, hvalue⟩ => h value hvalue⟩
    · rintro ⟨rfl, -⟩
      obtain ⟨issue, hissue⟩ := List.exists_mem_of_ne_nil issues hne
      exact List.mem_map.mpr ⟨issue, hissue, hpath issue hissue⟩

theorem tells_fail {problem : Problem} (h : ∀ value, ¬ holds value) :
    Tells (fail path problem) holds (LacksAt path holds) :=
  tells_error (by simp) (by simp) h

theorem tells_unexpected {expected : Datum.Shape} {data : Datum} (h : ∀ value, ¬ holds value) :
    Tells (unexpected path expected data) holds (LacksAt path holds) :=
  tells_fail h

theorem Tells.congr (h : Tells x holds offends) (hholds : ∀ value, holds value ↔ holds' value)
    (hoffends : ∀ path, offends path ↔ offends' path) : Tells x holds' offends' :=
  ⟨fun value => (h.ok_iff value).trans (hholds value), h.ne_nil,
    fun path => (h.mem_paths_iff path).trans (hoffends path)⟩

/-- What fails as a whole offends at its own path alone. -/
theorem tells_whole {problem : Problem} (hnone : ∀ value, ¬ holds value)
    (hoffends : ∀ place, offends place ↔ place = path) :
    Tells (fail path problem) holds offends :=
  (tells_fail hnone).congr (fun _ => Iff.rfl) fun place => by simp [LacksAt, hnone, hoffends]

theorem both_eq_ok_iff {x : Reading α} {y : Reading β} {parts : α × β} :
    both x y = .ok parts ↔ x = .ok parts.1 ∧ y = .ok parts.2 := by
  cases x <;> cases y <;> simp [both, Prod.ext_iff]

theorem Tells.both (hx : Tells x holds offends) (hy : Tells y other otherOffends) :
    Tells (both x y) (fun parts => holds parts.1 ∧ other parts.2)
      fun path => offends path ∨ otherOffends path where
  ok_iff parts := both_eq_ok_iff.trans (and_congr (hx.ok_iff _) (hy.ok_iff _))
  ne_nil issues h := by
    cases x <;> cases y <;> simp only [Reading.both, reduceCtorEq, Except.error.injEq] at h
    all_goals subst h
    · exact List.append_ne_nil_of_left_ne_nil (hx.ne_nil _ rfl) _
    · exact hx.ne_nil _ rfl
    · exact hy.ne_nil _ rfl
  mem_paths_iff path := by
    rw [← hx.mem_paths_iff, ← hy.mem_paths_iff]
    cases x <;> cases y <;> simp [Reading.both, paths]

theorem Tells.map (h : Tells x holds offends) (f : α → β) :
    Tells (x.map f) (fun result => ∃ value, holds value ∧ f value = result) offends where
  ok_iff result := by simp only [Outcome.map_eq_ok_iff, h.ok_iff]
  ne_nil issues hissues := h.ne_nil issues (Outcome.map_eq_error_iff.mp hissues)
  mem_paths_iff path := by
    rw [← h.mem_paths_iff]
    cases x <;> rfl

/-- Nothing offends where something can be read. -/
theorem Tells.exists_holds_iff (h : Tells x holds offends) :
    (∃ value, holds value) ↔ ∀ path, ¬ offends path := by
  simp only [← h.ok_iff, ← h.mem_paths_iff]
  cases x with
  | ok value => simp [paths]
  | error issues =>
    obtain ⟨issue, hissue⟩ := List.exists_mem_of_ne_nil issues (h.ne_nil issues rfl)
    simpa [paths] using ⟨issue, hissue⟩

end

/-! ### Single values -/

theorem tells_text (path : Path) (data : Datum) :
    Tells (text path data) (HoldsName data) (LacksAt path (HoldsName data)) := by
  unfold text
  split
  · rename_i word
    split
    · rename_i hempty
      refine tells_fail fun name ⟨hname, hne⟩ => hne ?_
      rw [← Datum.text.inj hname, List.isEmpty_iff.mp hempty]
    · rename_i hne
      refine tells_ok fun name => ?_
      rw [HoldsName, Datum.text.injEq, and_iff_left_of_imp]
      rintro rfl
      simpa using hne
  · rename_i hdata
    exact tells_unexpected fun name hname => hdata name hname.1

theorem tells_flag (path : Path) (data : Datum) :
    Tells (flag path data) (HoldsFlag data) (LacksAt path (HoldsFlag data)) := by
  unfold flag
  split
  · exact tells_ok fun _ => Eq.to_iff (Datum.bool.injEq _ _)
  · rename_i hdata
    exact tells_unexpected hdata

theorem tells_action (path : Path) (data : Datum) :
    Tells (action path data) (HoldsAction data) (LacksAt path (HoldsAction data)) := by
  unfold action
  split
  · split
    · rename_i word _ a hfind
      obtain rfl : a.word = word := by simpa using List.find?_some hfind
      refine tells_ok fun other => ?_
      rw [HoldsAction, Datum.text.injEq]
      exact ⟨Action.word_injective, congrArg Action.word⟩
    · rename_i hfind
      refine tells_fail fun a ha => ?_
      have hword := List.find?_eq_none.mp hfind a (by cases a <;> decide)
      exact hword (beq_iff_eq.mpr (Datum.text.inj ha).symm)
  · rename_i hdata
    exact tells_fail fun a ha => hdata a.word ha

theorem countIssues_eq_nil_iff {path : Path} {value : Binary64} :
    countIssues path value = [] ↔ IsCount value := by
  unfold countIssues
  rw [List.append_eq_nil_iff, IsCount]
  refine and_congr ?_ ?_ <;> split <;> simp_all

theorem path_of_mem_countIssues {path : Path} {value : Binary64} :
    ∀ issue ∈ countIssues path value, issue.path = path := by
  intro issue h
  unfold countIssues at h
  rcases List.mem_append.mp h with h | h <;> split at h <;> simp_all

theorem holdsCount_number_iff {x value : Binary64} :
    HoldsCount (.number x) value ↔ x = value ∧ IsCount value := by
  rw [HoldsCount, Datum.number.injEq, isCount_iff]

theorem tells_count (path : Path) (data : Datum) :
    Tells (count path data) (HoldsCount data) (LacksAt path (HoldsCount data)) := by
  unfold count
  split
  · rename_i x
    split
    · rename_i hnan
      refine tells_unexpected fun value hvalue => ?_
      obtain ⟨rfl, hcount⟩ := holdsCount_number_iff.mp hvalue
      exact absurd hnan (by simp [Binary64.isNaN_of_isFinite hcount.isFinite])
    · split
      · rename_i hissues
        refine tells_ok fun value => holdsCount_number_iff.trans ?_
        rw [and_iff_left_of_imp]
        rintro rfl
        exact countIssues_eq_nil_iff.mp hissues
      · rename_i hissues
        refine tells_error hissues path_of_mem_countIssues fun value hvalue => hissues ?_
        obtain ⟨rfl, hcount⟩ := holdsCount_number_iff.mp hvalue
        exact countIssues_eq_nil_iff.mpr hcount
  · rename_i hdata
    exact tells_unexpected fun value hvalue => hdata value hvalue.1

/-! ### Values that may be missing -/

section

variable {read : Datum → Reading α} {holds : Datum → α → Prop} {offends : Path → Prop}
  {data : Datum}

theorem Tells.withDefault (h : Tells (read data) (holds data) offends)
    (hnone : ∀ value, ¬ holds .absent value) (default : α) :
    Tells (withDefault default read data) (HoldsDefault default holds data)
      fun path => data ≠ .absent ∧ offends path := by
  unfold Reading.withDefault
  split
  · refine ⟨fun value => ?_, nofun, by simp [paths]⟩
    simp [HoldsDefault, hnone, eq_comm]
  · rename_i hdata
    refine h.congr (fun value => ?_) fun path => ?_
    · exact (or_iff_right fun habsent => hdata habsent.1).symm
    · exact (and_iff_right hdata).symm

theorem Tells.optional (h : Tells (read data) (holds data) offends)
    (hnone : ∀ value, ¬ holds .absent value) :
    Tells (optional read data) (HoldsOptional holds data)
      fun path => data ≠ .absent ∧ offends path := by
  unfold Reading.optional
  split
  · refine ⟨fun value => ?_, nofun, by simp [paths]⟩
    cases value <;> simp [HoldsOptional, hnone]
  · rename_i hdata
    refine (h.map some).congr (fun value => ?_) fun path => ?_
    · cases value with
      | none => exact iff_of_false (fun ⟨_, _, hvalue⟩ => nomatch hvalue) hdata
      | some value => simp [HoldsOptional]
    · exact (and_iff_right hdata).symm

end

/-! ### Data centers -/

section

variable {path place : Path} {data : Datum}

theorem holdsDataCenter_iff {center : DataCenter} (hshape : data.shape = .object) :
    HoldsDataCenter data center ↔ ∃ parts : Text × Binary64,
      (HoldsName (data.field "name".toList) parts.1 ∧
        HoldsCount (data.field "replicationFactor".toList) parts.2) ∧
      (⟨parts.1, parts.2⟩ : DataCenter) = center := by
  constructor
  · intro h
    exact ⟨(center.name, center.replicationFactor), ⟨h.name, h.replicationFactor⟩, rfl⟩
  · rintro ⟨parts, ⟨hname, hfactor⟩, rfl⟩
    exact ⟨hshape, hname, hfactor⟩

theorem dataCenterOffends_iff (hshape : data.shape = .object) :
    DataCenterOffends path data place ↔
      LacksAt (path ++ [.field "name".toList]) (HoldsName (data.field "name".toList)) place ∨
        LacksAt (path ++ [.field "replicationFactor".toList])
          (HoldsCount (data.field "replicationFactor".toList)) place := by
  constructor
  · rintro (h | ⟨-, h⟩ | ⟨-, h⟩)
    · exact absurd hshape h
    · exact .inl ⟨rfl, h⟩
    · exact .inr ⟨rfl, h⟩
  · rintro (⟨rfl, h⟩ | ⟨rfl, h⟩)
    · exact .name hshape h
    · exact .replicationFactor hshape h

theorem tells_dataCenter (path : Path) (data : Datum) :
    Tells (dataCenter path data) (HoldsDataCenter data) (DataCenterOffends path data) := by
  unfold dataCenter
  split
  · rename_i hshape
    have hparts := (tells_text (path ++ [.field "name".toList]) (data.field "name".toList)).both
      (tells_count (path ++ [.field "replicationFactor".toList])
        (data.field "replicationFactor".toList))
    exact (hparts.map _).congr (fun _ => (holdsDataCenter_iff hshape).symm)
      fun _ => (dataCenterOffends_iff hshape).symm
  · rename_i hshape
    have hnone : ∀ center, ¬ HoldsDataCenter data center := fun _ h => hshape h.shape
    refine tells_whole hnone fun place => ⟨?_, fun h => h ▸ .shape hshape⟩
    rintro (_ | ⟨h, _⟩ | ⟨h, _⟩)
    · rfl
    all_goals exact absurd h hshape

/-- One of the data centers offends. The first of them has the position `index`. -/
def ElementOffends (path : Path) (index : Nat) (elements : List Datum) (place : Path) : Prop :=
  ∃ i element, elements[i]? = some element ∧
    DataCenterOffends (path ++ [.index (index + i)]) element place

theorem elementOffends_cons {index : Nat} {rest : List Datum} :
    ElementOffends path index (data :: rest) place ↔
      DataCenterOffends (path ++ [.index index]) data place ∨
        ElementOffends path (index + 1) rest place := by
  constructor
  · rintro ⟨i, element, hget, h⟩
    cases i with
    | zero =>
      obtain rfl : data = element := by simpa using hget
      exact .inl h
    | succ i => exact .inr ⟨i, element, by simpa using hget, by rwa [Nat.add_right_comm]⟩
  · rintro (h | ⟨i, element, hget, h⟩)
    · exact ⟨0, data, rfl, h⟩
    · exact ⟨i + 1, element, by simpa using hget, by rwa [Nat.add_right_comm] at h⟩

/-- Every element of the list is read, whatever is wrong with the others. -/
theorem tells_dataCentersFrom (path : Path) (index : Nat) (elements : List Datum) :
    Tells (dataCentersFrom path index elements) (List.Forall₂ HoldsDataCenter elements)
      (ElementOffends path index elements) := by
  induction elements generalizing index with
  | nil =>
    refine ⟨fun centers => ?_, nofun, fun place => ?_⟩
    · simp [dataCentersFrom, eq_comm]
    · simp [dataCentersFrom, paths, ElementOffends]
  | cons data rest ih =>
    -- The rest is read whether or not the first element is a data center, from the next place on.
    have hparts := (tells_dataCenter (path ++ [.index index]) data).both (ih (index + 1))
    refine (hparts.map _).congr (fun centers => ?_) fun place => elementOffends_cons.symm
    rw [List.forall₂_cons_left_iff]
    constructor
    · rintro ⟨parts, ⟨hfirst, hrest⟩, rfl⟩
      exact ⟨parts.1, parts.2, hfirst, hrest, rfl⟩
    · rintro ⟨first, others, hfirst, hrest, rfl⟩
      exact ⟨(first, others), ⟨hfirst, hrest⟩, rfl⟩

section

variable (h : ∀ elements, data = .array elements → elements = [])
include h

theorem not_holdsDataCenters (centers : List DataCenter) : ¬ HoldsDataCenters data centers :=
  fun ⟨elements, helements, hne, _⟩ => hne (h elements helements)

theorem dataCentersOffend_iff_eq : DataCentersOffend path data place ↔ place = path := by
  refine ⟨?_, fun hplace => hplace ▸ .list h⟩
  rintro (_ | ⟨helements, hget, _⟩)
  · rfl
  · rw [h _ helements] at hget
    exact nomatch hget

end

section

variable {elements : List Datum} (hne : elements ≠ [])
include hne

theorem holdsDataCenters_array_iff {centers : List DataCenter} :
    HoldsDataCenters (.array elements) centers ↔
      List.Forall₂ HoldsDataCenter elements centers := by
  refine ⟨?_, fun h => ⟨elements, rfl, hne, h⟩⟩
  rintro ⟨_, helements, -, h⟩
  rwa [Datum.array.inj helements]

theorem dataCentersOffend_array_iff :
    DataCentersOffend path (.array elements) place ↔ ElementOffends path 0 elements place := by
  constructor
  · rintro (hlist | @⟨_, i, element, _, helements, hget, h⟩)
    · exact absurd (hlist elements rfl) hne
    · rw [← Datum.array.inj helements] at hget
      exact ⟨i, element, hget, by rwa [Nat.zero_add]⟩
  · rintro ⟨i, element, hget, h⟩
    rw [Nat.zero_add] at h
    exact .element rfl hget h

end

theorem tells_dataCenters (path : Path) (data : Datum) :
    Tells (dataCenters path data) (HoldsDataCenters data) (DataCentersOffend path data) := by
  unfold dataCenters
  split
  · rename_i elements
    split
    · rename_i hempty
      have hlist : ∀ others, Datum.array elements = .array others → others = [] :=
        fun _ h => (Datum.array.inj h).symm.trans (List.isEmpty_iff.mp hempty)
      exact tells_whole (not_holdsDataCenters hlist) fun _ => dataCentersOffend_iff_eq hlist
    · rename_i hempty
      have hne : elements ≠ [] := fun h => hempty (List.isEmpty_iff.mpr h)
      exact (tells_dataCentersFrom path 0 elements).congr
        (fun _ => (holdsDataCenters_array_iff hne).symm)
        fun _ => (dataCentersOffend_array_iff hne).symm
  · rename_i hdata
    have hlist : ∀ elements, data = .array elements → elements = [] :=
      fun elements h => (hdata elements h).elim
    exact tells_whole (not_holdsDataCenters hlist) fun _ => dataCentersOffend_iff_eq hlist

end

/-! ### Replications -/

theorem strategy?_eq_some_iff {data : Datum} {s : ReplicationStrategy} :
    strategy? data = some s ↔ data = .text s.className := by
  cases data with
  | text word =>
    simp only [Datum.text.injEq, strategy?]
    split_ifs with hsimple hnetwork
    · subst hsimple
      cases s with
      | simple => simp
      | networkTopology => exact iff_of_false nofun nofun
    · subst hnetwork
      cases s with
      | simple => exact iff_of_false nofun nofun
      | networkTopology => simp
    · cases s <;> simp [hsimple, hnetwork]
  | _ => simp [strategy?]

section

variable {path place : Path} {data : Datum} (hshape : data.shape = .object)
include hshape

theorem holdsReplication_simple_iff {r : Replication}
    (hstrategy : data.field "strategy".toList = .text ReplicationStrategy.simple.className) :
    HoldsReplication data r ↔ ∃ factor, HoldsDefault (Binary64.ofNat 1) HoldsCount
      (data.field "replicationFactor".toList) factor ∧ .simple factor = r := by
  constructor
  · rintro (⟨-, -, hfactor⟩ | ⟨-, h, -⟩)
    · exact ⟨_, hfactor, rfl⟩
    · exact absurd (hstrategy.symm.trans h) simple_ne_network
  · rintro ⟨factor, hfactor, rfl⟩
    exact .simple hshape hstrategy hfactor

theorem replicationOffends_simple_iff
    (hstrategy : data.field "strategy".toList = .text ReplicationStrategy.simple.className) :
    ReplicationOffends path data place ↔
      data.field "replicationFactor".toList ≠ .absent ∧
        LacksAt (path ++ [.field "replicationFactor".toList])
          (HoldsCount (data.field "replicationFactor".toList)) place := by
  constructor
  · rintro (h | ⟨-, h, -⟩ | ⟨-, -, hgiven, h⟩ | ⟨-, h, -⟩)
    · exact absurd hshape h
    · exact absurd hstrategy h
    · exact ⟨hgiven, rfl, h⟩
    · exact absurd (hstrategy.symm.trans h) simple_ne_network
  · rintro ⟨hgiven, rfl, h⟩
    exact .replicationFactor hshape hstrategy hgiven h

theorem holdsReplication_network_iff {r : Replication}
    (hstrategy : data.field "strategy".toList =
      .text ReplicationStrategy.networkTopology.className) :
    HoldsReplication data r ↔
      ∃ centers, HoldsDataCenters (data.field "dataCenters".toList) centers ∧
        .network centers = r := by
  constructor
  · rintro (⟨-, h, -⟩ | ⟨-, -, hcenters⟩)
    · exact absurd (h.symm.trans hstrategy) simple_ne_network
    · exact ⟨_, hcenters, rfl⟩
  · rintro ⟨centers, hcenters, rfl⟩
    exact .network hshape hstrategy hcenters

theorem replicationOffends_network_iff
    (hstrategy : data.field "strategy".toList =
      .text ReplicationStrategy.networkTopology.className) :
    ReplicationOffends path data place ↔ DataCentersOffend
      (path ++ [.field "dataCenters".toList]) (data.field "dataCenters".toList) place := by
  refine ⟨?_, .dataCenters hshape hstrategy⟩
  rintro (h | ⟨-, -, h⟩ | ⟨-, h, -⟩ | ⟨-, -, h⟩)
  · exact absurd hshape h
  · exact absurd hstrategy h
  · exact absurd (h.symm.trans hstrategy) simple_ne_network
  · exact h

theorem replicationOffends_iff_eq
    (hunknown : ∀ s : ReplicationStrategy, data.field "strategy".toList ≠ .text s.className) :
    ReplicationOffends path data place ↔ place = path ++ [.field "strategy".toList] := by
  refine ⟨?_, fun h => h ▸ .strategy hshape (hunknown .simple) (hunknown .networkTopology)⟩
  rintro (h | _ | ⟨-, h, -⟩ | ⟨-, h, -⟩)
  · exact absurd hshape h
  · rfl
  · exact absurd h (hunknown .simple)
  · exact absurd h (hunknown .networkTopology)

end

theorem tells_replication (path : Path) (data : Datum) :
    Tells (replication path data) (HoldsReplication data) (ReplicationOffends path data) := by
  unfold replication
  split
  · rename_i hshape
    split
    · rename_i hsimple
      have hstrategy := strategy?_eq_some_iff.mp hsimple
      have hfactor := (tells_count (path ++ [.field "replicationFactor".toList])
        (data.field "replicationFactor".toList)).withDefault (by simp [HoldsCount])
          (Binary64.ofNat 1)
      exact (hfactor.map _).congr (fun _ => (holdsReplication_simple_iff hshape hstrategy).symm)
        fun _ => (replicationOffends_simple_iff hshape hstrategy).symm
    · rename_i hnetwork
      have hstrategy := strategy?_eq_some_iff.mp hnetwork
      have hcenters := tells_dataCenters (path ++ [.field "dataCenters".toList])
        (data.field "dataCenters".toList)
      exact (hcenters.map _).congr (fun _ => (holdsReplication_network_iff hshape hstrategy).symm)
        fun _ => (replicationOffends_network_iff hshape hstrategy).symm
    · rename_i hunknown
      have hunknown : ∀ s : ReplicationStrategy,
          data.field "strategy".toList ≠ .text s.className := by
        intro s h
        rw [strategy?_eq_some_iff.mpr h] at hunknown
        exact nomatch hunknown
      have hnone : ∀ r, ¬ HoldsReplication data r := by
        rintro _ (⟨-, h, -⟩ | ⟨-, h, -⟩)
        · exact hunknown .simple h
        · exact hunknown .networkTopology h
      exact tells_whole hnone fun _ => replicationOffends_iff_eq hshape hunknown
  · rename_i hshape
    have hnone : ∀ r, ¬ HoldsReplication data r := fun _ h => hshape h.shape
    refine tells_whole hnone fun place => ⟨?_, fun h => h ▸ .shape hshape⟩
    rintro (_ | ⟨h, _⟩ | ⟨h, _⟩ | ⟨h, _⟩)
    · rfl
    all_goals exact absurd h hshape

end Configuration.Reading

namespace KeyspaceConfiguration

open CqlDdl.Configuration CqlDdl.Configuration.Reading

/-! ### Configurations -/

section

variable {data : Datum} (hshape : data.shape = .object)
include hshape

theorem holds_iff {c : KeyspaceConfiguration} :
    Holds data c ↔
      ∃ parts : Text × Action × Bool × Option Bool × Option Replication,
        (HoldsName (data.field "name".toList) parts.1 ∧
          HoldsAction (data.field "action".toList) parts.2.1 ∧
          HoldsDefault false HoldsFlag (data.field "ifNotExists".toList) parts.2.2.1 ∧
          HoldsOptional HoldsFlag (data.field "durableWrites".toList) parts.2.2.2.1 ∧
          HoldsOptional HoldsReplication (data.field "replication".toList) parts.2.2.2.2) ∧
        (⟨parts.1, parts.2.1, parts.2.2.1, parts.2.2.2.1, parts.2.2.2.2⟩ :
          KeyspaceConfiguration) = c := by
  constructor
  · intro h
    exact ⟨(c.name, c.action, c.ifNotExists, c.durableWrites, c.replication),
      ⟨h.name, h.action, h.ifNotExists, h.durableWrites, h.replication⟩, rfl⟩
  · rintro ⟨parts, ⟨hname, haction, hguard, hdurable, hreplication⟩, rfl⟩
    exact ⟨hshape, hname, haction, hguard, hdurable, hreplication⟩

theorem offends_iff {path : Path} :
    Offends data path ↔
      LacksAt [.field "name".toList] (HoldsName (data.field "name".toList)) path ∨
      LacksAt [.field "action".toList] (HoldsAction (data.field "action".toList)) path ∨
      (data.field "ifNotExists".toList ≠ .absent ∧
        LacksAt [.field "ifNotExists".toList] (HoldsFlag (data.field "ifNotExists".toList)) path) ∨
      (data.field "durableWrites".toList ≠ .absent ∧ LacksAt [.field "durableWrites".toList]
        (HoldsFlag (data.field "durableWrites".toList)) path) ∨
      (data.field "replication".toList ≠ .absent ∧ ReplicationOffends
        [.field "replication".toList] (data.field "replication".toList) path) := by
  constructor
  · rintro (h | ⟨-, h⟩ | ⟨-, h⟩ | ⟨-, hgiven, h⟩ | ⟨-, hgiven, h⟩ | ⟨-, hgiven, h⟩)
    · exact absurd hshape h
    · exact .inl ⟨rfl, h⟩
    · exact .inr (.inl ⟨rfl, h⟩)
    · exact .inr (.inr (.inl ⟨hgiven, rfl, h⟩))
    · exact .inr (.inr (.inr (.inl ⟨hgiven, rfl, h⟩)))
    · exact .inr (.inr (.inr (.inr ⟨hgiven, h⟩)))
  · rintro (⟨rfl, h⟩ | ⟨rfl, h⟩ | ⟨hgiven, rfl, h⟩ | ⟨hgiven, rfl, h⟩ | ⟨hgiven, h⟩)
    · exact .name hshape h
    · exact .action hshape h
    · exact .ifNotExists hshape hgiven h
    · exact .durableWrites hshape hgiven h
    · exact .replication hshape hgiven h

end

theorem tells_reading (data : Datum) : Tells (reading data) (Holds data) (Offends data) := by
  unfold reading
  split
  · rename_i hshape
    have hguard := (tells_flag [.field "ifNotExists".toList]
      (data.field "ifNotExists".toList)).withDefault (by simp [HoldsFlag]) false
    have hdurable := (tells_flag [.field "durableWrites".toList]
      (data.field "durableWrites".toList)).optional (by simp [HoldsFlag])
    have hreplication := (tells_replication [.field "replication".toList]
      (data.field "replication".toList)).optional fun _ h => nomatch h.shape
    have hparts := (tells_text [.field "name".toList] (data.field "name".toList)).both <|
      (tells_action [.field "action".toList] (data.field "action".toList)).both <|
      hguard.both <| hdurable.both hreplication
    exact (hparts.map _).congr (fun _ => (holds_iff hshape).symm) fun _ => (offends_iff hshape).symm
  · rename_i hshape
    have hnone : ∀ c, ¬ Holds data c := fun _ h => hshape h.shape
    refine tells_whole hnone fun path => ⟨?_, fun h => h ▸ .shape hshape⟩
    rintro (_ | ⟨h, _⟩ | ⟨h, _⟩ | ⟨h, _⟩ | ⟨h, _⟩ | ⟨h, _⟩)
    · rfl
    all_goals exact absurd h hshape

/-- Data holds a configuration if it offends nowhere. -/
theorem exists_holds_iff {data : Datum} : (∃ c, Holds data c) ↔ ∀ path, ¬ Offends data path :=
  (tells_reading data).exists_holds_iff

end KeyspaceConfiguration

end CqlDdl
