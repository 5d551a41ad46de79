import CqlDdl.Configuration.Reading
import CqlDdl.Log
import CqlDdl.Statement.Draft

/-! The statements that a configuration asks for: those to run when an application starts, and those
to run when it stops. -/

namespace CqlDdl

/-- The statements for the start and for the end of an application. -/
structure KeyspaceActions where
  startup : List Statement
  shutdown : List Statement

namespace KeyspaceConfiguration

/-- The name of a data center with its number of replicas as an option value. -/
def factorEntry (center : Configuration.DataCenter) : Text × OptionValue :=
  (center.name, .scalar (.number center.replicationFactor))

/-- The requests that set the configured replication. -/
def replicationEdits (c : KeyspaceConfiguration) : List KeyspaceOptionEdit :=
  match c.replication with
  | none => []
  | some (.simple factor) => [.simpleReplication (.scalar (.number factor))]
  | some (.network centers) => [.networkReplication (centers.map factorEntry)]

/-- The statement that creates the keyspace. Durable writes are off unless they are configured. -/
def creation (c : KeyspaceConfiguration) : Except Error Statement :=
  let options := c.replicationEdits ++ [.durableWrites (c.durableWrites.getD false)]
  Draft.complete .createKeyspace (some (.text c.name)) none
    (.ifNotExists c.ifNotExists :: options.map .option)

/-- The statement that alters the keyspace. Durable writes stay as they are where they are not
configured. -/
def alteration (c : KeyspaceConfiguration) : Except Error Statement :=
  let options := c.replicationEdits ++ c.durableWrites.toList.map .durableWrites
  Draft.complete .alterKeyspace (some (.text c.name)) none (options.map .option)

/-- The statement that drops the keyspace. -/
def removal (c : KeyspaceConfiguration) : Except Error Statement :=
  Draft.complete .dropKeyspace (some (.text c.name)) none [.ifExists true]

/-- The statements that the configured action asks for. -/
def actions (c : KeyspaceConfiguration) : Except Error KeyspaceActions :=
  match c.action with
  | .create => do return ⟨[← c.creation], []⟩
  | .createDrop => do return ⟨[← c.creation], [← c.removal]⟩
  | .alter => do return ⟨[← c.alteration], []⟩
  | .none => .ok ⟨[], []⟩

/-- The log entry of a configuration that could be read. -/
def entry (c : KeyspaceConfiguration) : LogEntry :=
  .make "keyspace-actions".toList "resolving %s actions for keyspace %s".toList
    [c.action.word, c.name]

end KeyspaceConfiguration

namespace KeyspaceActions

/-- The statements that a configuration asks for, read from data of unknown structure. -/
def resolve (data : Datum) : Except Error KeyspaceActions :=
  match KeyspaceConfiguration.read data with
  | .ok c => c.actions
  | .error e => .error e

/-- What is logged when the statements are resolved. -/
def resolveLog (data : Datum) : List LogEntry :=
  match KeyspaceConfiguration.read data with
  | .ok c => [c.entry]
  | .error _ => []

end KeyspaceActions

end CqlDdl
