import CqlDdl.DataType
import CqlDdl.Identifier.Reading

/-! Columns of tables and fields of user types, and the changes that statements make to them. -/

namespace CqlDdl

/-- The part that a column plays in the primary key. -/
inductive KeyRole
  | none | partitioned | clustered
deriving DecidableEq, Repr

def KeyRole.all : List KeyRole := [none, partitioned, clustered]

def KeyRole.word : KeyRole → Text
  | none => "none".toList
  | partitioned => "partitioned".toList
  | clustered => "clustered".toList

/-- The order of rows within a partition by one column. -/
inductive ClusteringOrder
  | ascending | descending
deriving DecidableEq, Repr

def ClusteringOrder.all : List ClusteringOrder := [ascending, descending]

def ClusteringOrder.word : ClusteringOrder → Text
  | ascending => "ASC".toList
  | descending => "DESC".toList

/-- A column of a table, or a field of a user type, which plays no part in a key. -/
structure Column where
  name : Identifier
  type : DataType
  role : KeyRole
  order : Option ClusteringOrder

namespace Column

/-- A column of a given name. An order is kept only on a clustered column. -/
def make (name : Name) (type : DataType) (role : KeyRole) (order : Option ClusteringOrder) :
    Except Error Column :=
  match name.resolve with
  | .ok name => .ok ⟨name, type, role, if role = .clustered then order else none⟩
  | .error e => .error e

/-- The definition of a column in a statement: its name and its type. -/
def definition (column : Column) : Text :=
  column.name.render ++ ' ' :: column.type.render

/-- Whether a column is part of the partition key. -/
def isPartitioned (column : Column) : Bool :=
  column.role == .partitioned

/-- Whether a column orders the rows of a partition. -/
def isClustered (column : Column) : Bool :=
  column.role == .clustered

end Column

/-- The names of columns as a list in a statement. -/
def columnNames (columns : List Column) : Text :=
  Text.joined ", ".toList (columns.map fun column => column.name.render)

/-- What stands between the parentheses of the primary key: the partition key, in parentheses of its
own if it has several columns, and then the clustered columns. -/
def primaryKey (columns : List Column) : Text :=
  let partitioned := columns.filter Column.isPartitioned
  let clustered := columns.filter Column.isClustered
  let partition :=
    if 1 < partitioned.length then '(' :: (columnNames partitioned ++ [')'])
    else columnNames partitioned
  if clustered.isEmpty then partition else partition ++ ", ".toList ++ columnNames clustered

/-- The name and the order of a column, if it is clustered and has one. -/
def Column.ordered? (column : Column) : Option Text :=
  if column.isClustered then
    column.order.map fun order => column.name.render ++ ' ' :: order.word
  else none

/-- The clause that orders the rows of a partition, if a column asks for an order. -/
def clusteringOrder? (columns : List Column) : Option Text :=
  let ordered := columns.filterMap Column.ordered?
  if ordered.isEmpty then none
  else some ("CLUSTERING ORDER BY (".toList ++ Text.joined ", ".toList ordered ++ [')'])

/-- The first identifier in a list whose canonical name an earlier one has; `seen` holds the
canonical names before the list. -/
def repeatedName? (seen : List Text) : List Identifier → Option Identifier
  | [] => none
  | name :: rest =>
    if seen.contains name.canonicalName then some name
    else repeatedName? (name.canonicalName :: seen) rest

/-- A change that a statement makes to a column. -/
inductive ColumnChange
  | add (name : Identifier) (type : DataType)
  | drop (name : Identifier)
  | alter (name : Identifier) (type : DataType)
  | rename (name target : Identifier)

def ColumnChange.render : ColumnChange → Text
  | add name type => "ADD ".toList ++ name.render ++ ' ' :: type.render
  | drop name => "DROP ".toList ++ name.render
  | alter name type => "ALTER ".toList ++ name.render ++ " TYPE ".toList ++ type.render
  | rename name target => "RENAME ".toList ++ name.render ++ " TO ".toList ++ target.render

namespace ColumnChange

@[simp] theorem render_add (name : Identifier) (type : DataType) :
    (add name type).render = "ADD ".toList ++ name.render ++ ' ' :: type.render := rfl

@[simp] theorem render_drop (name : Identifier) :
    (drop name).render = "DROP ".toList ++ name.render := rfl

@[simp] theorem render_alter (name : Identifier) (type : DataType) :
    (alter name type).render =
      "ALTER ".toList ++ name.render ++ " TYPE ".toList ++ type.render := rfl

@[simp] theorem render_rename (name target : Identifier) :
    (rename name target).render =
      "RENAME ".toList ++ name.render ++ " TO ".toList ++ target.render := rfl

end ColumnChange

/-- A change that a statement makes to a field of a user type. Fields cannot be dropped. -/
inductive FieldChange
  | add (name : Identifier) (type : DataType)
  | alter (name : Identifier) (type : DataType)
  | rename (name target : Identifier)

/-- The same change made to a column. -/
def FieldChange.toColumnChange : FieldChange → ColumnChange
  | add name type => .add name type
  | alter name type => .alter name type
  | rename name target => .rename name target

end CqlDdl
