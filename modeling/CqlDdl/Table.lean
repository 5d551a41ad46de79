import CqlDdl.Column
import CqlDdl.Guard
import CqlDdl.Options.Map

/-! The statements on tables: what they say, and their text. -/

namespace CqlDdl

structure CreateTable where
  name : QualifiedName
  ifNotExists : Bool := false
  columns : List Column := []
  options : OptionMap := []

/-- Changes the columns of a table and sets options of it. -/
structure AlterTable where
  name : QualifiedName
  changes : List ColumnChange := []
  options : OptionMap := []

structure DropTable where
  name : QualifiedName
  ifExists : Bool := false

namespace CreateTable

/-- The definitions of the columns and, after them, of the primary key. -/
def definitions (s : CreateTable) : List Text :=
  s.columns.map Column.definition ++
    ["PRIMARY KEY (".toList ++ primaryKey s.columns ++ [')']]

/-- The text of the statement around the clauses that set its options. -/
def text (s : CreateTable) (optionClauses : List Text) : Text :=
  "CREATE TABLE ".toList ++ Guard.ifNotExists s.ifNotExists ++ s.name.render ++ " (".toList ++
    Text.joined ", ".toList s.definitions ++ [')'] ++
    withClauses ((clusteringOrder? s.columns).toList ++ optionClauses) ++ [';']

/-- The statement's text. A table needs a column in its partition key. -/
def render (s : CreateTable) : Except Error Text :=
  if s.columns.any Column.isPartitioned then s.options.clauses.map s.text
  else .error (.invalidSpecification (.noPartitionKey s.name))

end CreateTable

namespace AlterTable

/-- Each change after a blank. -/
def changesText (s : AlterTable) : Text :=
  s.changes.flatMap fun change => ' ' :: change.render

/-- The text of the statement around the clauses that set its options. -/
def text (s : AlterTable) (optionClauses : List Text) : Text :=
  "ALTER TABLE ".toList ++ s.name.render ++ s.changesText ++ withClauses optionClauses ++ [';']

/-- The statement's text. Compact storage can be chosen only when a table is created, and a
statement has to change or to set something. -/
def render (s : AlterTable) : Except Error Text :=
  if s.options.has TableOption.compactStorage then
    .error (.illegalOption TableOption.compactStorage.name "ALTER TABLE".toList)
  else if s.changes.isEmpty && s.options.isEmpty then
    .error (.invalidSpecification (.tableUnchanged s.name))
  else s.options.clauses.map s.text

end AlterTable

def DropTable.render (s : DropTable) : Text :=
  "DROP TABLE ".toList ++ Guard.ifExists s.ifExists ++ s.name.render ++ [';']

end CqlDdl
