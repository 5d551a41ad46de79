import CqlDdl.Column

/-! Columns under construction. A column is complete once it has a type. -/

namespace CqlDdl

/-- A column under construction. -/
structure ColumnDraft where
  name : Identifier
  type : Option DataType := none
  role : KeyRole := .none
  order : Option ClusteringOrder := none

namespace ColumnDraft

/-- A change to a column under construction. Its type may be taken away again. -/
inductive Edit
  | type (type : Option DataType)
  | partitioned (flag : Bool)
  | clustered (order : Option ClusteringOrder)

/-- A column that has only a name. -/
def start (name : Name) : Except Error ColumnDraft :=
  match name.resolve with
  | .ok name => .ok { name }
  | .error e => .error e

/-- The draft after a change. Making it a partition key column, or none, takes its order away. -/
def apply (draft : ColumnDraft) : Edit → ColumnDraft
  | .type type => { draft with type }
  | .partitioned flag =>
    { draft with role := if flag then .partitioned else .none, order := none }
  | .clustered order => { draft with role := .clustered, order }

/-- The column that a draft describes. -/
def build (draft : ColumnDraft) : Except Error Column :=
  match draft.type with
  | some type => Column.make (.identifier draft.name) type draft.role draft.order
  | none => .error (.invalidSpecification (.noDataType draft.name))

end ColumnDraft

end CqlDdl
