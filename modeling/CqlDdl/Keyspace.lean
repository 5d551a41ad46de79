import CqlDdl.Guard
import CqlDdl.Options.Replication

/-! The statements on keyspaces: what they say, and their text. -/

namespace CqlDdl

structure CreateKeyspace where
  name : Identifier
  ifNotExists : Bool := false
  options : OptionMap := []

/-- Sets options of a keyspace. -/
structure AlterKeyspace where
  name : Identifier
  options : OptionMap := []

structure DropKeyspace where
  name : Identifier
  ifExists : Bool := false

namespace CreateKeyspace

/-- The replication of a keyspace that sets none, if `s` sets none: one replica, wherever there is
room. -/
def defaultReplication (s : CreateKeyspace) : OptionMap :=
  if s.options.has KeyspaceOption.replication then []
  else [(KeyspaceOption.replication, .map (OptionMap.simpleReplication OptionMap.one))]

/-- Durable writes for a keyspace that does not say, if `s` does not. -/
def defaultDurableWrites (s : CreateKeyspace) : OptionMap :=
  if s.options.has KeyspaceOption.durableWrites then []
  else [(KeyspaceOption.durableWrites, .scalar (.bool true))]

/-- The options that the statement is written with: the default replication before its own options
and the default durable writes after them. -/
def effectiveOptions (s : CreateKeyspace) : OptionMap :=
  s.defaultReplication ++ s.options ++ s.defaultDurableWrites

/-- The statement's text, with replication and durable writes set in every case. -/
def render (s : CreateKeyspace) : Except Error Text :=
  s.effectiveOptions.clauses.map fun clauses =>
    "CREATE KEYSPACE ".toList ++ Guard.ifNotExists s.ifNotExists ++ s.name.render ++
      withClauses clauses ++ [';']

end CreateKeyspace

def AlterKeyspace.render (s : AlterKeyspace) : Except Error Text :=
  s.options.clauses.map fun clauses =>
    "ALTER KEYSPACE ".toList ++ s.name.render ++ withClauses clauses ++ [';']

def DropKeyspace.render (s : DropKeyspace) : Text :=
  "DROP KEYSPACE ".toList ++ Guard.ifExists s.ifExists ++ s.name.render ++ [';']

end CqlDdl
