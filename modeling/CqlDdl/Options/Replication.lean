import CqlDdl.Options.Map

/-! Replication maps: the strategy of a keyspace and its factors. -/

namespace CqlDdl.OptionMap

/-- The number one as an option value. -/
def one : OptionValue :=
  .scalar (.number (Binary64.ofNat 1))

/-- Replicas wherever there is room, as many as the factor says, and one where it was left out. -/
def simpleReplication (factor : OptionValue) : OptionMap :=
  [(ReplicationOption.strategyClass, .scalar (.text ReplicationStrategy.simple.className)),
    (ReplicationOption.replicationFactor, factor.orDefault one)]

/-- Sets the factors of data centers in a replication map, one after another. -/
def putDataCenters (options : OptionMap) : List (Text × OptionValue) → Except Error OptionMap
  | [] => .ok options
  | (name, factor) :: rest =>
    match OptionKey.dataCenter name with
    | .ok key => putDataCenters (options.put key factor) rest
    | .error e => .error e

/-- Replicas in each data center, as many as its factor says. -/
def networkReplication (dataCenters : List (Text × OptionValue)) : Except Error OptionMap :=
  putDataCenters
    [(ReplicationOption.strategyClass,
      .scalar (.text ReplicationStrategy.networkTopology.className))]
    dataCenters

end CqlDdl.OptionMap
