import CqlDdl.Configuration
import CqlDdl.Datum
import CqlDdl.Options.Catalogue
import CqlDdl.Proofs.WholeNumbers
import Mathlib.Data.List.Forall2

/-! The shape of configurations, apart from how they are read: which data holds a name, a number of
replicas, a replication or a whole configuration, and each configuration as data of its own, without
keys that are not known. What some data holds is valid: its names are not empty, and its numbers of
replicas are positive integers. -/

namespace CqlDdl

namespace Configuration

/-! ### Valid parts -/

/-- A number of replicas: a positive integer. -/
def IsCount (value : Binary64) : Prop :=
  value.isInteger = true ∧ value.isPositive = true

structure DataCenter.IsValid (center : DataCenter) : Prop where
  named : center.name ≠ []
  counted : IsCount center.replicationFactor

def Replication.IsValid : Replication → Prop
  | simple factor => IsCount factor
  | network centers => centers ≠ [] ∧ ∀ center ∈ centers, center.IsValid

theorem IsCount.isFinite {value : Binary64} (h : IsCount value) : value.isFinite = true := by
  have hinteger := h.1
  simp only [Binary64.isInteger, Bool.and_eq_true] at hinteger
  exact hinteger.1

theorem IsCount.exists_isWhole {value : Binary64} (h : IsCount value) :
    ∃ n, 0 < n ∧ value.IsWhole n := by
  have hfinite := h.isFinite
  obtain ⟨hinteger, hpositive⟩ := h
  simp only [Binary64.isPositive, Binary64.isInfinite_of_isFinite hfinite, Bool.and_eq_true,
    Bool.not_eq_true', Bool.false_or, bne_iff_ne] at hpositive
  simp only [Binary64.isInteger, Bool.and_eq_true, beq_iff_eq] at hinteger
  have hdvd := Nat.dvd_of_mod_eq_zero hinteger.2
  have hle := Nat.le_of_dvd (Nat.pos_of_ne_zero hpositive.2) hdvd
  refine ⟨value.units / Binary64.unitsPerOne, Nat.div_pos hle Binary64.unitsPerOne_pos,
    hfinite, ?_⟩
  rw [Nat.div_mul_cancel hdvd, Binary64.signedUnits, hpositive.1.1]
  rfl

theorem isCount_of_isWhole {value : Binary64} {n : Nat} (hn : 0 < n) (h : value.IsWhole n) :
    IsCount value := by
  have hunits := Nat.mul_pos hn Binary64.unitsPerOne_pos
  have hsigned := h.signedUnits_eq
  unfold Binary64.signedUnits at hsigned
  cases hsign : value.negative with
  | true =>
    rw [hsign, if_pos rfl] at hsigned
    omega
  | false =>
    rw [hsign, if_neg nofun] at hsigned
    have hvalue : value.units = n * Binary64.unitsPerOne := Int.ofNat_inj.mp hsigned
    constructor
    · simp [Binary64.isInteger, h.finite, hvalue]
    · simp [Binary64.isPositive, hsign, Binary64.isNaN_of_isFinite h.finite, hvalue,
        Nat.ne_of_gt hunits]

theorem isCount_iff {value : Binary64} : IsCount value ↔ ∃ n, 0 < n ∧ value.IsWhole n :=
  ⟨IsCount.exists_isWhole, fun ⟨_, hn, h⟩ => isCount_of_isWhole hn h⟩

theorem isCount_one : IsCount (Binary64.ofNat 1) :=
  isCount_of_isWhole Nat.one_pos (Binary64.isWhole_ofNat (by decide))

theorem Action.word_injective {a b : Action} (h : a.word = b.word) : a = b := by
  cases a <;> cases b <;> first | rfl | exact nomatch h

theorem simple_ne_network :
    Datum.text "SimpleStrategy".toList ≠ .text "NetworkTopologyStrategy".toList :=
  fun h => absurd (Datum.text.inj h) (by decide)

/-! ### What data holds -/

/-- The data is a text that is not empty. -/
def HoldsName (data : Datum) (name : Text) : Prop :=
  data = .text name ∧ name ≠ []

def HoldsAction (data : Datum) (action : Action) : Prop :=
  data = .text action.word

def HoldsFlag (data : Datum) (flag : Bool) : Prop :=
  data = .bool flag

/-- The data is a positive integer. -/
def HoldsCount (data : Datum) (count : Binary64) : Prop :=
  data = .number count ∧ ∃ n, 0 < n ∧ count.IsWhole n

/-- The data is missing, which stands for the default, or holds a value. -/
def HoldsDefault {α : Type} (default : α) (holds : Datum → α → Prop) (data : Datum) (value : α) :
    Prop :=
  (data = .absent ∧ value = default) ∨ holds data value

/-- The data is missing, or holds a value. -/
def HoldsOptional {α : Type} (holds : Datum → α → Prop) (data : Datum) : Option α → Prop
  | none => data = .absent
  | some value => holds data value

/-- An object with a name and a number of replicas. -/
structure HoldsDataCenter (data : Datum) (center : DataCenter) : Prop where
  shape : data.shape = .object
  name : HoldsName (data.field "name".toList) center.name
  replicationFactor :
    HoldsCount (data.field "replicationFactor".toList) center.replicationFactor

/-- A list of data centers that is not empty. -/
def HoldsDataCenters (data : Datum) (centers : List DataCenter) : Prop :=
  ∃ elements, data = .array elements ∧ elements ≠ [] ∧
    List.Forall₂ HoldsDataCenter elements centers

/-- An object that names a strategy, and has what the strategy needs. One replica is the default of
the simple strategy. -/
inductive HoldsReplication (data : Datum) : Replication → Prop
  | simple {factor : Binary64} (shape : data.shape = .object)
      (strategy : data.field "strategy".toList = .text "SimpleStrategy".toList)
      (replicationFactor : HoldsDefault (Binary64.ofNat 1) HoldsCount
        (data.field "replicationFactor".toList) factor) :
      HoldsReplication data (.simple factor)
  | network {centers : List DataCenter} (shape : data.shape = .object)
      (strategy : data.field "strategy".toList = .text "NetworkTopologyStrategy".toList)
      (dataCenters : HoldsDataCenters (data.field "dataCenters".toList) centers) :
      HoldsReplication data (.network centers)

theorem HoldsReplication.shape {data : Datum} {r : Replication} (h : HoldsReplication data r) :
    data.shape = .object := by
  cases h <;> assumption

theorem HoldsDataCenter.isValid {data : Datum} {center : DataCenter}
    (h : HoldsDataCenter data center) : center.IsValid :=
  ⟨h.name.2, isCount_iff.mpr h.replicationFactor.2⟩

theorem isValid_of_forall₂ {elements : List Datum} {centers : List DataCenter}
    (h : List.Forall₂ HoldsDataCenter elements centers) : ∀ center ∈ centers, center.IsValid := by
  induction h with
  | nil => nofun
  | cons hfirst _ ih => exact List.forall_mem_cons.mpr ⟨hfirst.isValid, ih⟩

theorem HoldsReplication.isValid {data : Datum} {r : Replication} (h : HoldsReplication data r) :
    r.IsValid := by
  rcases h with ⟨-, -, hfactor⟩ | ⟨-, -, elements, -, hne, hcenters⟩
  · -- The default is rewritten by an equation: to take it apart would compute it.
    rcases hfactor with ⟨-, hdefault⟩ | ⟨-, hcount⟩
    · exact hdefault ▸ isCount_one
    · exact isCount_iff.mpr hcount
  · refine ⟨?_, isValid_of_forall₂ hcenters⟩
    rintro rfl
    exact hne (List.forall₂_nil_right_iff.mp hcenters)

/-! ### Parts as data -/

def DataCenter.toDatum (center : DataCenter) : Datum :=
  .object [("name".toList, .text center.name),
    ("replicationFactor".toList, .number center.replicationFactor)]

def Replication.toDatum : Replication → Datum
  | simple factor =>
    .object [("strategy".toList, .text ReplicationStrategy.simple.className),
      ("replicationFactor".toList, .number factor)]
  | network centers =>
    .object [("strategy".toList, .text ReplicationStrategy.networkTopology.className),
      ("dataCenters".toList, .array (centers.map DataCenter.toDatum))]

end Configuration

open CqlDdl.Configuration

namespace KeyspaceConfiguration

/-! ### Whole configurations -/

structure IsValid (c : KeyspaceConfiguration) : Prop where
  named : c.name ≠ []
  replicated : ∀ r : Replication, c.replication = some r → r.IsValid

/-- An object with a name and an action. The rest may be missing. -/
structure Holds (data : Datum) (c : KeyspaceConfiguration) : Prop where
  shape : data.shape = .object
  name : HoldsName (data.field "name".toList) c.name
  action : HoldsAction (data.field "action".toList) c.action
  ifNotExists : HoldsDefault false HoldsFlag (data.field "ifNotExists".toList) c.ifNotExists
  durableWrites : HoldsOptional HoldsFlag (data.field "durableWrites".toList) c.durableWrites
  replication : HoldsOptional HoldsReplication (data.field "replication".toList) c.replication

variable {c : KeyspaceConfiguration}

theorem Holds.isValid {data : Datum} (h : Holds data c) : c.IsValid := by
  refine ⟨h.name.2, fun r hr => ?_⟩
  have hreplication := h.replication
  rw [hr] at hreplication
  exact hreplication.isValid

/-- A configuration as data: its defaults are written out, and what is missing in it is left out. -/
def toDatum (c : KeyspaceConfiguration) : Datum :=
  .object <|
    [("name".toList, .text c.name), ("action".toList, .text c.action.word),
      ("ifNotExists".toList, .bool c.ifNotExists)] ++
    c.durableWrites.toList.map (fun flag => ("durableWrites".toList, .bool flag)) ++
    c.replication.toList.map fun r => ("replication".toList, r.toDatum)

end KeyspaceConfiguration

end CqlDdl
