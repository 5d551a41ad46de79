import CqlDdl.Guard
import CqlDdl.Identifier

/-! The statements on indexes: what they say, and their text. -/

namespace CqlDdl

/-- What an index on a collection column looks at. -/
inductive ColumnFunction
  | none | keys | values | entries | full
deriving DecidableEq, Repr

def ColumnFunction.all : List ColumnFunction := [none, keys, values, entries, full]

def ColumnFunction.word : ColumnFunction → Text
  | none => "none".toList
  | keys => "keys".toList
  | values => "values".toList
  | entries => "entries".toList
  | full => "full".toList

/-- Creates an index. Without a name of its own it is named by the server. -/
structure CreateIndex where
  keyspace : Option Identifier
  name : Option Identifier
  table : Identifier
  column : Identifier
  function : ColumnFunction := .none
  ifNotExists : Bool := false
  className : Option Text := none
  options : List (Text × Text) := []

structure DropIndex where
  name : QualifiedName
  ifExists : Bool := false

namespace CreateIndex

/-- The class that implements the index; an empty name is none. -/
def implementation? (s : CreateIndex) : Option Text :=
  match s.className with
  | some name => if name.isEmpty then none else some name
  | none => none

/-- What the index is on: a column, or a function of it. -/
def target (s : CreateIndex) : Text :=
  match s.function with
  | .none => s.column.render
  | function => function.word ++ '(' :: (s.column.render ++ [')'])

/-- The keyspace and the name of the table. The name of the index is never qualified. -/
def tableName (s : CreateIndex) : QualifiedName :=
  ⟨s.keyspace, s.table⟩

/-- One option of an index: its key and its value as string literals. -/
def renderOption (entry : Text × Text) : Text :=
  Text.literal entry.1 ++ ": ".toList ++ Text.literal entry.2

/-- The options of an index between braces. -/
def renderOptions (options : List (Text × Text)) : Text :=
  '\x7b' :: (Text.joined ", ".toList (options.map renderOption) ++ ['\x7d'])

/-- The parts of the statement, which stand one blank apart. -/
def parts (s : CreateIndex) : List Text :=
  [if s.implementation?.isSome then "CREATE CUSTOM INDEX".toList else "CREATE INDEX".toList] ++
    (if s.ifNotExists then ["IF NOT EXISTS".toList] else []) ++
    (s.name.map Identifier.render).toList ++
    ["ON".toList, s.tableName.render, '(' :: (s.target ++ [')'])] ++
    (match s.implementation? with
      | some name => ["USING".toList, Text.literal name]
      | none => []) ++
    (if s.options.isEmpty then [] else ["WITH OPTIONS =".toList, renderOptions s.options])

/-- The statement's text: its parts one blank apart. -/
def render (s : CreateIndex) : Text :=
  Text.joined [' '] s.parts ++ [';']

end CreateIndex

def DropIndex.render (s : DropIndex) : Text :=
  "DROP INDEX ".toList ++ Guard.ifExists s.ifExists ++ s.name.render ++ [';']

end CqlDdl
