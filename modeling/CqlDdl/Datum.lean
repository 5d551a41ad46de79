import CqlDdl.Binary64.Decimal
import CqlDdl.Identifier

/-! Data of unknown structure, as a caller may hand it in where a specification or a configuration
is expected. -/

namespace CqlDdl

/-- Data of unknown structure. The fields of an object keep the order in which they were written;
a field may be there without a value. -/
inductive Datum
  | absent
  | null
  | bool (value : Bool)
  | number (value : Binary64)
  | integer (value : Int)
  | text (value : Text)
  | identifier (value : Identifier)
  | emptyMap
  | array (elements : List Datum)
  | object (fields : List (Text × Datum))

namespace Datum

/-- What kind of data was found, as messages tell it. -/
inductive Shape
  | absent | null | boolean | number | nan | bigint | string | map | array | object
deriving DecidableEq, Repr

def Shape.word : Shape → Text
  | absent => "undefined".toList
  | null => "null".toList
  | boolean => "boolean".toList
  | number => "number".toList
  | nan => "nan".toList
  | bigint => "bigint".toList
  | string => "string".toList
  | map => "map".toList
  | array => "array".toList
  | object => "object".toList

/-- The kind of some data. An identifier is an object of two fields. -/
def shape : Datum → Shape
  | absent => .absent
  | null => .null
  | bool _ => .boolean
  | number value => if value.isNaN then .nan else .number
  | integer _ => .bigint
  | text _ => .string
  | identifier _ => .object
  | emptyMap => .map
  | array _ => .array
  | object _ => .object

/-- The fields of an object, and none for anything else. -/
def fields : Datum → List (Text × Datum)
  | object fields => fields
  | identifier i => [("name".toList, text i.name), ("quoted".toList, bool i.quoted)]
  | _ => []

/-- The value of a field; a field that is missing has none. -/
def field (data : Datum) (name : Text) : Datum :=
  (data.fields.lookup name).getD absent

end Datum

end CqlDdl
