import CqlDdl.Column.Draft
import CqlDdl.Options.Edit
import CqlDdl.Table

/-! Statements on tables under construction. -/

namespace CqlDdl

namespace CreateTable

inductive Edit
  | ifNotExists (flag : Bool)
  | column (name : Name) (type : DataType)
  | partitionKeyColumn (name : Name) (type : DataType)
  | clusteredKeyColumn (name : Name) (type : DataType) (order : Option ClusteringOrder)
  /-- Adds a column that was made before. -/
  | addColumn (column : Column)
  /-- Adds the column that a draft describes at the time. -/
  | addDraft (draft : ColumnDraft)
  | option (edit : OptionEdit)

def start (keyspace name : Option Name) : Except Error CreateTable :=
  (QualifiedName.ofNames keyspace name).map fun name => { name }

/-- The statement with one more column. -/
def withColumn (s : CreateTable) (column : Column) : CreateTable :=
  { s with columns := s.columns ++ [column] }

def apply (s : CreateTable) : Edit → Except Error CreateTable
  | .ifNotExists flag => .ok { s with ifNotExists := flag }
  | .column name type => (Column.make name type .none none).map s.withColumn
  | .partitionKeyColumn name type => (Column.make name type .partitioned none).map s.withColumn
  | .clusteredKeyColumn name type order => (Column.make name type .clustered order).map s.withColumn
  | .addColumn column => .ok (s.withColumn column)
  | .addDraft draft => draft.build.map s.withColumn
  | .option edit => (s.options.edit edit).map fun options => { s with options }

/-- A complete statement declares columns, one of them in the partition key, and no name twice. -/
def build (s : CreateTable) : Except Error CreateTable :=
  if s.columns.isEmpty then .error (.invalidSpecification (.noColumns s.name))
  else if !s.columns.any Column.isPartitioned then
    .error (.invalidSpecification (.noPartitionKey s.name))
  else
    match repeatedName? [] (s.columns.map Column.name) with
    | some name => .error (.invalidSpecification (.repeatedName (.table s.name) name))
    | none => .ok s

end CreateTable

namespace AlterTable

inductive Edit
  | add (name : Name) (type : DataType)
  | drop (name : Name)
  | alter (name : Name) (type : DataType)
  | rename (name target : Name)
  | change (change : ColumnChange)
  | option (edit : OptionEdit)

def start (keyspace name : Option Name) : Except Error AlterTable :=
  (QualifiedName.ofNames keyspace name).map fun name => { name }

/-- The statement with one more change. -/
def withChange (s : AlterTable) (change : ColumnChange) : AlterTable :=
  { s with changes := s.changes ++ [change] }

def apply (s : AlterTable) : Edit → Except Error AlterTable
  | .add name type => (name.resolve.map (.add · type)).map s.withChange
  | .drop name => (name.resolve.map .drop).map s.withChange
  | .alter name type => (name.resolve.map (.alter · type)).map s.withChange
  | .rename name target => do
    let name ← name.resolve
    let target ← target.resolve
    return s.withChange (.rename name target)
  | .change change => .ok (s.withChange change)
  | .option edit => (s.options.edit edit).map fun options => { s with options }

/-- A complete statement changes or sets something. -/
def build (s : AlterTable) : Except Error AlterTable :=
  if s.changes.isEmpty && s.options.isEmpty then
    .error (.invalidSpecification (.tableUnchanged s.name))
  else .ok s

end AlterTable

namespace DropTable

inductive Edit
  | ifExists (flag : Bool)

def start (keyspace name : Option Name) : Except Error DropTable :=
  (QualifiedName.ofNames keyspace name).map fun name => { name }

def apply (s : DropTable) : Edit → DropTable
  | .ifExists flag => { s with ifExists := flag }

end DropTable

end CqlDdl
