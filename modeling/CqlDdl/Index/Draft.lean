import CqlDdl.Entries
import CqlDdl.Identifier.Reading
import CqlDdl.Index

/-! Statements on indexes under construction. -/

namespace CqlDdl

/-- The creation of an index under construction: its table and its column come later. -/
structure IndexDraft where
  keyspace : Option Identifier
  name : Option Identifier
  table : Option Identifier := none
  column : Option Identifier := none
  function : ColumnFunction := .none
  ifNotExists : Bool := false
  className : Option Text := none
  options : List (Text × Text) := []

namespace IndexDraft

inductive Edit
  | ifNotExists (flag : Bool)
  | tableName (name : Name)
  | columnName (name : Name)
  | columnFunction (function : ColumnFunction)
  /-- Makes the index a custom one; without a class name it is a regular index again. -/
  | using (className : Option Text)
  | setOption (name value : Text)

/-- The draft for an index that may have a name and a keyspace. -/
def start : Option Name → Option Name → Except Error IndexDraft
  | none, none => .ok { keyspace := none, name := none }
  | keyspace, name =>
    (QualifiedName.ofNames keyspace name).map fun qualified =>
      { keyspace := qualified.keyspace, name := some qualified.name }

/-- Sets an option; a key that is there already keeps its place. -/
def putOption (options : List (Text × Text)) (name value : Text) : List (Text × Text) :=
  Entries.put (· == name) name value options

def apply (draft : IndexDraft) : Edit → Except Error IndexDraft
  | .ifNotExists flag => .ok { draft with ifNotExists := flag }
  | .tableName name => name.resolve.map fun table => { draft with table := some table }
  | .columnName name => name.resolve.map fun column => { draft with column := some column }
  | .columnFunction function => .ok { draft with function }
  | .using className => .ok { draft with className := className.filter fun c => !Text.isBlank c }
  | .setOption name value => .ok { draft with options := putOption draft.options name value }

/-- The statement that a draft describes. It needs a table and a column, and only the class of a
custom index understands options. -/
def build (draft : IndexDraft) : Except Error CreateIndex :=
  match draft.table, draft.column with
  | none, _ => .error (.invalidSpecification .noIndexTable)
  | some _, none => .error (.invalidSpecification .noIndexColumn)
  | some table, some column =>
    if !draft.options.isEmpty && draft.className.isNone then
      .error (.invalidSpecification .indexOptionsWithoutClass)
    else
      .ok
        { keyspace := draft.keyspace
          name := draft.name
          table, column
          function := draft.function
          ifNotExists := draft.ifNotExists
          className := draft.className
          options := draft.options }

end IndexDraft

namespace DropIndex

inductive Edit
  | ifExists (flag : Bool)

def start (keyspace name : Option Name) : Except Error DropIndex :=
  (QualifiedName.ofNames keyspace name).map fun name => { name }

def apply (s : DropIndex) : Edit → DropIndex
  | .ifExists flag => { s with ifExists := flag }

end DropIndex

end CqlDdl
