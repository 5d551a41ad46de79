import CqlDdl.Identifier.Reading
import CqlDdl.Keyspace
import CqlDdl.Options.Edit

/-! Statements on keyspaces under construction. -/

namespace CqlDdl

inductive KeyspaceOptionEdit
  | option (edit : OptionEdit)
  | simpleReplication (factor : OptionValue)
  | networkReplication (dataCenters : List (Text × OptionValue))
  | durableWrites (flag : Bool)

/-- The options of a keyspace after a request. -/
def OptionMap.editKeyspace (options : OptionMap) : KeyspaceOptionEdit → Except Error OptionMap
  | .option edit => options.edit edit
  | .simpleReplication factor =>
    options.set KeyspaceOption.replication (.map (simpleReplication factor))
  | .networkReplication dataCenters =>
    match networkReplication dataCenters with
    | .ok replication => options.set KeyspaceOption.replication (.map replication)
    | .error e => .error e
  | .durableWrites flag => options.set KeyspaceOption.durableWrites (.scalar (.bool flag))

namespace CreateKeyspace

inductive Edit
  | ifNotExists (flag : Bool)
  | option (edit : KeyspaceOptionEdit)

def start (name : Name) : Except Error CreateKeyspace :=
  name.resolve.map fun name => { name }

def apply (s : CreateKeyspace) : Edit → Except Error CreateKeyspace
  | .ifNotExists flag => .ok { s with ifNotExists := flag }
  | .option edit => (s.options.editKeyspace edit).map fun options => { s with options }

end CreateKeyspace

namespace AlterKeyspace

inductive Edit
  | option (edit : KeyspaceOptionEdit)

def start (name : Name) : Except Error AlterKeyspace :=
  name.resolve.map fun name => { name }

def apply (s : AlterKeyspace) : Edit → Except Error AlterKeyspace
  | .option edit => (s.options.editKeyspace edit).map fun options => { s with options }

/-- A complete statement sets at least one option. -/
def build (s : AlterKeyspace) : Except Error AlterKeyspace :=
  if s.options.isEmpty then .error (.invalidSpecification (.keyspaceUnchanged s.name)) else .ok s

end AlterKeyspace

namespace DropKeyspace

inductive Edit
  | ifExists (flag : Bool)

def start (name : Name) : Except Error DropKeyspace :=
  name.resolve.map fun name => { name }

def apply (s : DropKeyspace) : Edit → DropKeyspace
  | .ifExists flag => { s with ifExists := flag }

end DropKeyspace

end CqlDdl
