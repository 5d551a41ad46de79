import CqlDdl.Column
import CqlDdl.Datum

/-! Columns as data: what a column looks like where a statement is expected. -/

namespace CqlDdl

/-- A value that may be missing, as data. -/
def Datum.ofOption {α : Type} (encode : α → Datum) : Option α → Datum
  | some a => encode a
  | none => .absent

namespace DataType

/-- An object of a kind of type and its parts. -/
def datumOfKind (kind : Text) (parts : List (Text × Datum)) : Datum :=
  .object (("kind".toList, .text kind) :: parts)

mutual

/-- A type as an object that tells its kind and its parts. -/
def toDatum : DataType → Datum
  | native type => datumOfKind "native".toList [("name".toList, .text type.word)]
  | list element => datumOfKind "list".toList [("element".toList, toDatum element)]
  | set element => datumOfKind "set".toList [("element".toList, toDatum element)]
  | map key value =>
    datumOfKind "map".toList [("key".toList, toDatum key), ("value".toList, toDatum value)]
  | tuple elements => datumOfKind "tuple".toList [("elements".toList, .array (toData elements))]
  | frozen inner => datumOfKind "frozen".toList [("inner".toList, toDatum inner)]
  | declared name =>
    datumOfKind "udt".toList
      [("keyspace".toList, .ofOption .identifier name.keyspace),
        ("name".toList, .identifier name.name)]

/-- Each of several types as an object. -/
def toData : List DataType → List Datum
  | [] => []
  | type :: rest => toDatum type :: toData rest

end

end DataType

/-- A column as an object of its four fields. -/
def Column.toDatum (column : Column) : Datum :=
  .object
    [("name".toList, .identifier column.name),
      ("type".toList, column.type.toDatum),
      ("keyType".toList, .text column.role.word),
      ("ordering".toList, .ofOption (.text ·.word) column.order)]

end CqlDdl
