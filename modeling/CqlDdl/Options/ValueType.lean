import CqlDdl.Text

/-! The types of value that an option can take. -/

namespace CqlDdl

/-- The type of an option's value. An option of type `void` takes none. -/
inductive ValueType
  | string | number | boolean | map | void
deriving DecidableEq, Repr

def ValueType.all : List ValueType := [string, number, boolean, map, void]

def ValueType.word : ValueType → Text
  | string => "string".toList
  | number => "number".toList
  | boolean => "boolean".toList
  | map => "map".toList
  | void => "void".toList

end CqlDdl
