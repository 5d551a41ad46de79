import CqlDdl.Binary64

/-! Configurations of keyspaces: what to do with a keyspace, and with what options. -/

namespace CqlDdl

namespace Configuration

/-- What to do with a keyspace when an application starts and stops. -/
inductive Action
  | create | createDrop | alter | none
deriving DecidableEq, Repr

def Action.word : Action → Text
  | create => "CREATE".toList
  | createDrop => "CREATE_DROP".toList
  | alter => "ALTER".toList
  | none => "NONE".toList

def Action.all : List Action := [create, createDrop, alter, none]

/-- A data center and the number of replicas in it. -/
structure DataCenter where
  name : Text
  replicationFactor : Binary64
deriving DecidableEq

/-- How a keyspace is replicated. -/
inductive Replication
  | simple (factor : Binary64)
  | network (dataCenters : List DataCenter)
deriving DecidableEq

end Configuration

/-- The configuration of a keyspace. -/
structure KeyspaceConfiguration where
  name : Text
  action : Configuration.Action
  ifNotExists : Bool
  durableWrites : Option Bool
  replication : Option Configuration.Replication
deriving DecidableEq

end CqlDdl
