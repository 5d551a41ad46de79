import CqlDdl.Error
import CqlDdl.Text.Grammar

/-! Option keys: the name of an option, the type of value it takes, and how the value is written. -/

namespace CqlDdl

/-- The groups of keys that the catalogue declares. -/
inductive OptionGroup
  | keyspace | replication | table | caching | compaction | compression
deriving DecidableEq, Repr

/-- Where the catalogue declares a key: the group and the label in it. -/
structure Declaration where
  group : OptionGroup
  label : Text
deriving DecidableEq, Repr

/-- How the value of an option is treated. -/
structure OptionFlags where
  /-- The option may not stand without a value. -/
  requiresValue : Bool := false
  /-- Apostrophes in the value are doubled. -/
  escapesValue : Bool := false
  /-- The value is written between apostrophes. -/
  quotesValue : Bool := false
deriving DecidableEq, Repr

/-- The key of an option. A key that the catalogue declares is one key wherever it is used. -/
structure OptionKey extends OptionFlags where
  name : Text
  type : ValueType
  declaration : Option Declaration := none
  named : Text.isBlank name = false
deriving DecidableEq

namespace OptionKey

/-- A key of its own, which the catalogue does not declare. Its name may not be blank. -/
def make (name : Text) (type : ValueType) (flags : OptionFlags) : Except Error OptionKey :=
  if h : Text.isBlank name = false then
    .ok { toOptionFlags := flags, name := name, type := type, named := h }
  else .error (.invalidSpecification .blankOptionName)

/-- The key of the replication factor of one data center. -/
def dataCenter (name : Text) : Except Error OptionKey :=
  make name .number { requiresValue := true }

/-- Whether the option takes a value at all. -/
def takesValue (key : OptionKey) : Bool :=
  key.type != .void

/-- Keys are the same option when their names are the same. -/
def sameName (a b : OptionKey) : Bool :=
  a.name == b.name

/-- Whether two keys are one and the same: the catalogue declares them at the same place. Keys made
elsewhere are never one, even when they look alike. -/
def sameDeclaration (a b : OptionKey) : Bool :=
  a.declaration.isSome && a.declaration == b.declaration

def summary (key : OptionKey) : Text :=
  "[name=".toList ++ key.name ++ ", type=".toList ++ key.type.word ++
    ", requiresValue=".toList ++ Text.ofBool key.requiresValue ++
    ", escapesValue=".toList ++ Text.ofBool key.escapesValue ++
    ", quotesValue=".toList ++ Text.ofBool key.quotesValue ++ [']']

end OptionKey

end CqlDdl
