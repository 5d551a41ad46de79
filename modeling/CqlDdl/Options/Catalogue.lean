import CqlDdl.Options.Key

/-! The catalogue of option keys: those of keyspaces and tables, and those inside the maps that some
of them take. -/

namespace CqlDdl

/-- The value must be there and is written as it is. -/
def OptionFlags.required : OptionFlags :=
  { requiresValue := true }

/-- The value must be there and is written between apostrophes as it is. -/
def OptionFlags.quoted : OptionFlags :=
  { requiresValue := true, quotesValue := true }

/-- The value must be there and is written as a string literal. -/
def OptionFlags.literal : OptionFlags :=
  { requiresValue := true, escapesValue := true, quotesValue := true }

/-- A key that the catalogue declares under a label of a group. -/
def OptionKey.declare (group : OptionGroup) (label name : Text) (type : ValueType)
    (flags : OptionFlags) (named : Text.isBlank name = false := by decide) : OptionKey :=
  { toOptionFlags := flags, name, type, declaration := some ⟨group, label⟩, named }

/-! ### Options of a keyspace -/

namespace KeyspaceOption

def replication : OptionKey :=
  .declare .keyspace "REPLICATION".toList "replication".toList .map .required

def durableWrites : OptionKey :=
  .declare .keyspace "DURABLE_WRITES".toList "durable_writes".toList .boolean .required

end KeyspaceOption

/-! ### Options inside `replication` -/

namespace ReplicationOption

def strategyClass : OptionKey :=
  .declare .replication "CLASS".toList "class".toList .string .quoted

def replicationFactor : OptionKey :=
  .declare .replication "REPLICATION_FACTOR".toList "replication_factor".toList .number .required

end ReplicationOption

/-! ### Options of a table -/

namespace TableOption

def comment : OptionKey :=
  .declare .table "COMMENT".toList "comment".toList .string .literal

def compactStorage : OptionKey :=
  .declare .table "COMPACT_STORAGE".toList "COMPACT STORAGE".toList .void {}

def compaction : OptionKey :=
  .declare .table "COMPACTION".toList "compaction".toList .map .required

def compression : OptionKey :=
  .declare .table "COMPRESSION".toList "compression".toList .map .required

def caching : OptionKey :=
  .declare .table "CACHING".toList "caching".toList .map .required

def bloomFilterFpChance : OptionKey :=
  .declare .table "BLOOM_FILTER_FP_CHANCE".toList "bloom_filter_fp_chance".toList .number .required

def readRepairChance : OptionKey :=
  .declare .table "READ_REPAIR_CHANCE".toList "read_repair_chance".toList .number .required

def dclocalReadRepairChance : OptionKey :=
  .declare .table "DCLOCAL_READ_REPAIR_CHANCE".toList "dclocal_read_repair_chance".toList .number
    .required

def gcGraceSeconds : OptionKey :=
  .declare .table "GC_GRACE_SECONDS".toList "gc_grace_seconds".toList .number .required

def defaultTimeToLive : OptionKey :=
  .declare .table "DEFAULT_TIME_TO_LIVE".toList "default_time_to_live".toList .number .required

def cdc : OptionKey :=
  .declare .table "CDC".toList "cdc".toList .boolean .required

def speculativeRetry : OptionKey :=
  .declare .table "SPECULATIVE_RETRY".toList "speculative_retry".toList .string .literal

def memtableFlushPeriodInMs : OptionKey :=
  .declare .table "MEMTABLE_FLUSH_PERIOD_IN_MS".toList "memtable_flush_period_in_ms".toList .number
    .required

def crcCheckChance : OptionKey :=
  .declare .table "CRC_CHECK_CHANCE".toList "crc_check_chance".toList .number .required

def minIndexInterval : OptionKey :=
  .declare .table "MIN_INDEX_INTERVAL".toList "min_index_interval".toList .number .required

def maxIndexInterval : OptionKey :=
  .declare .table "MAX_INDEX_INTERVAL".toList "max_index_interval".toList .number .required

def readRepair : OptionKey :=
  .declare .table "READ_REPAIR".toList "read_repair".toList .string .literal

end TableOption

/-! ### Options inside `caching` -/

namespace CachingOption

def keys : OptionKey :=
  .declare .caching "KEYS".toList "keys".toList .string .quoted

def rowsPerPartition : OptionKey :=
  .declare .caching "ROWS_PER_PARTITION".toList "rows_per_partition".toList .string .quoted

end CachingOption

/-! ### Options inside `compaction` -/

namespace CompactionOption

def strategyClass : OptionKey :=
  .declare .compaction "CLASS".toList "class".toList .string .quoted

def tombstoneThreshold : OptionKey :=
  .declare .compaction "TOMBSTONE_THRESHOLD".toList "tombstone_threshold".toList .number .required

def tombstoneCompactionInterval : OptionKey :=
  .declare .compaction "TOMBSTONE_COMPACTION_INTERVAL".toList
    "tombstone_compaction_interval".toList .number .required

def minSstableSize : OptionKey :=
  .declare .compaction "MIN_SSTABLE_SIZE".toList "min_sstable_size".toList .number .required

def minThreshold : OptionKey :=
  .declare .compaction "MIN_THRESHOLD".toList "min_threshold".toList .number .required

def maxThreshold : OptionKey :=
  .declare .compaction "MAX_THRESHOLD".toList "max_threshold".toList .number .required

def bucketLow : OptionKey :=
  .declare .compaction "BUCKET_LOW".toList "bucket_low".toList .number .required

def bucketHigh : OptionKey :=
  .declare .compaction "BUCKET_HIGH".toList "bucket_high".toList .number .required

def sstableSizeInMb : OptionKey :=
  .declare .compaction "SSTABLE_SIZE_IN_MB".toList "sstable_size_in_mb".toList .number .required

end CompactionOption

/-! ### Options inside `compression` -/

namespace CompressionOption

def sstableCompression : OptionKey :=
  .declare .compression "SSTABLE_COMPRESSION".toList "sstable_compression".toList .string
    .quoted

def chunkLengthKb : OptionKey :=
  .declare .compression "CHUNK_LENGTH_KB".toList "chunk_length_kb".toList .number .required

def crcCheckChance : OptionKey :=
  .declare .compression "CRC_CHECK_CHANCE".toList "crc_check_chance".toList .number .required

end CompressionOption

namespace OptionGroup

def all : List OptionGroup :=
  [keyspace, replication, table, caching, compaction, compression]

/-- The name under which a group is known. -/
def name : OptionGroup → Text
  | keyspace => "KeyspaceOption".toList
  | replication => "ReplicationOption".toList
  | table => "TableOption".toList
  | caching => "CachingOption".toList
  | compaction => "CompactionOption".toList
  | compression => "CompressionOption".toList

/-- The keys of a group, in the order in which the catalogue declares them. -/
def keys : OptionGroup → List OptionKey
  | .keyspace =>
    [KeyspaceOption.replication, KeyspaceOption.durableWrites]
  | .replication =>
    [ReplicationOption.strategyClass, ReplicationOption.replicationFactor]
  | .table =>
    [TableOption.comment, TableOption.compactStorage, TableOption.compaction,
      TableOption.compression, TableOption.caching, TableOption.bloomFilterFpChance,
      TableOption.readRepairChance, TableOption.dclocalReadRepairChance,
      TableOption.gcGraceSeconds, TableOption.defaultTimeToLive, TableOption.cdc,
      TableOption.speculativeRetry, TableOption.memtableFlushPeriodInMs,
      TableOption.crcCheckChance, TableOption.minIndexInterval, TableOption.maxIndexInterval,
      TableOption.readRepair]
  | .caching =>
    [CachingOption.keys, CachingOption.rowsPerPartition]
  | .compaction =>
    [CompactionOption.strategyClass, CompactionOption.tombstoneThreshold,
      CompactionOption.tombstoneCompactionInterval, CompactionOption.minSstableSize,
      CompactionOption.minThreshold, CompactionOption.maxThreshold, CompactionOption.bucketLow,
      CompactionOption.bucketHigh, CompactionOption.sstableSizeInMb]
  | .compression =>
    [CompressionOption.sstableCompression, CompressionOption.chunkLengthKb,
      CompressionOption.crcCheckChance]

/-- The keys of a group with their labels. -/
def labelled (group : OptionGroup) : List (Text × OptionKey) :=
  group.keys.filterMap fun key => key.declaration.map fun d => (d.label, key)

end OptionGroup

/-- The key that the catalogue declares under a label of a group. -/
def OptionKey.declared? (group label : Text) : Option OptionKey := do
  let g ← OptionGroup.all.find? fun g => g.name == group
  g.labelled.lookup label

/-- A character in lower case, where that is an ASCII letter: the sign for kelvin is a capital. -/
def Text.lowerChar (c : Char) : Char :=
  if c.toNat = 0x212A then 'k' else c.toLower

/-- The table option of a name, in whatever case. -/
def TableOption.find? (name : Text) : Option OptionKey :=
  let wanted := name.map Text.lowerChar
  (OptionGroup.keys .table).find? fun key => key.name.map Text.lowerChar == wanted

/-- The strategies by which replicas are placed. -/
inductive ReplicationStrategy
  | simple | networkTopology
deriving DecidableEq, Repr

/-- The class that implements a strategy. -/
def ReplicationStrategy.className : ReplicationStrategy → Text
  | simple => "SimpleStrategy".toList
  | networkTopology => "NetworkTopologyStrategy".toList

/-- What a cache may keep of keys. -/
inductive KeyCaching
  | all | none
deriving DecidableEq, Repr

def KeyCaching.word : KeyCaching → Text
  | all => "all".toList
  | none => "none".toList

/-- A constant of the catalogue: the key of an option, or a word. -/
inductive Constant
  | key (key : OptionKey)
  | word (word : Text)

/-- The constants of a named group with their labels, in the order of their declaration. -/
def constants? (group : Text) : Option (List (Text × Constant)) :=
  match OptionGroup.all.find? fun g => g.name == group with
  | some g => some (g.labelled.map fun entry => (entry.1, .key entry.2))
  | none => groupsOfWords.lookup group
where
  /-- The groups whose constants are words. -/
  groupsOfWords : List (Text × List (Text × Constant)) :=
    [("ReplicationStrategy".toList,
        [("SIMPLE_STRATEGY".toList, .word ReplicationStrategy.simple.className),
          ("NETWORK_TOPOLOGY_STRATEGY".toList,
            .word ReplicationStrategy.networkTopology.className)]),
      ("KeyCachingOption".toList,
        [("ALL".toList, .word KeyCaching.all.word), ("NONE".toList, .word KeyCaching.none.word)]),
      ("ErrorCode".toList, ErrorCode.all.map fun code => (code.text, .word code.text))]

end CqlDdl
