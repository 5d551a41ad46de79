import CqlDdl.Datum.Json
import CqlDdl.Index
import CqlDdl.Keyspace
import CqlDdl.Table
import CqlDdl.UserType

/-! Statements of the eleven kinds, their texts, and what a caller hands in for one: a statement, or
something that specifies none. -/

namespace CqlDdl

inductive StatementKind
  | createKeyspace | alterKeyspace | dropKeyspace
  | createTable | alterTable | dropTable
  | createIndex | dropIndex
  | createUserType | alterUserType | dropUserType
deriving DecidableEq, Repr

def StatementKind.all : List StatementKind :=
  [createKeyspace, alterKeyspace, dropKeyspace, createTable, alterTable, dropTable, createIndex,
    dropIndex, createUserType, alterUserType, dropUserType]

def StatementKind.word : StatementKind → Text
  | createKeyspace => "createKeyspace".toList
  | alterKeyspace => "alterKeyspace".toList
  | dropKeyspace => "dropKeyspace".toList
  | createTable => "createTable".toList
  | alterTable => "alterTable".toList
  | dropTable => "dropTable".toList
  | createIndex => "createIndex".toList
  | dropIndex => "dropIndex".toList
  | createUserType => "createUserType".toList
  | alterUserType => "alterUserType".toList
  | dropUserType => "dropUserType".toList

/-- A statement that defines, changes or drops an object of the schema. -/
inductive Statement
  | createKeyspace (s : CreateKeyspace)
  | alterKeyspace (s : AlterKeyspace)
  | dropKeyspace (s : DropKeyspace)
  | createTable (s : CreateTable)
  | alterTable (s : AlterTable)
  | dropTable (s : DropTable)
  | createIndex (s : CreateIndex)
  | dropIndex (s : DropIndex)
  | createUserType (s : CreateUserType)
  | alterUserType (s : AlterUserType)
  | dropUserType (s : DropUserType)

namespace Statement

def kind : Statement → StatementKind
  | createKeyspace _ => .createKeyspace
  | alterKeyspace _ => .alterKeyspace
  | dropKeyspace _ => .dropKeyspace
  | createTable _ => .createTable
  | alterTable _ => .alterTable
  | dropTable _ => .dropTable
  | createIndex _ => .createIndex
  | dropIndex _ => .dropIndex
  | createUserType _ => .createUserType
  | alterUserType _ => .alterUserType
  | dropUserType _ => .dropUserType

/-- The text of a statement, ended by a semicolon. -/
def render : Statement → Except Error Text
  | createKeyspace s => s.render
  | alterKeyspace s => s.render
  | dropKeyspace s => .ok s.render
  | createTable s => s.render
  | alterTable s => s.render
  | dropTable s => .ok s.render
  | createIndex s => .ok s.render
  | dropIndex s => .ok s.render
  | createUserType s => s.render
  | alterUserType s => s.render
  | dropUserType s => .ok s.render

/-- What a statement is about. An index without a name goes by its table. -/
def target : Statement → QualifiedName
  | createKeyspace s => ⟨none, s.name⟩
  | alterKeyspace s => ⟨none, s.name⟩
  | dropKeyspace s => ⟨none, s.name⟩
  | createTable s => s.name
  | alterTable s => s.name
  | dropTable s => s.name
  | createIndex s => ⟨s.keyspace, s.name.getD s.table⟩
  | dropIndex s => s.name
  | createUserType s => s.name
  | alterUserType s => s.name
  | dropUserType s => s.name

/-- The statement that drops what a statement creates. An index without a name cannot be dropped. -/
def inverse? : Statement → Option Statement
  | createKeyspace s => some (.dropKeyspace { name := s.name, ifExists := true })
  | createTable s => some (.dropTable { name := s.name, ifExists := true })
  | createIndex s =>
    s.name.map fun name => .dropIndex { name := ⟨s.keyspace, name⟩, ifExists := true }
  | createUserType s => some (.dropUserType { name := s.name, ifExists := true })
  | alterKeyspace _ | dropKeyspace _ | alterTable _ | dropTable _ | dropIndex _ | alterUserType _
  | dropUserType _ => none

end Statement

/-- What is handed in for a statement. -/
inductive Specification
  | statement (s : Statement)
  | unknown (data : Datum)

namespace Specification

/-- The statement that is specified. -/
def toStatement : Specification → Except Error Statement
  | statement s => .ok s
  | unknown data => .error (.unsupportedSpecification data.description)

/-- The text of the statement that is specified. -/
def render (spec : Specification) : Except Error Text :=
  match spec.toStatement with
  | .ok s => s.render
  | .error e => .error e

/-- The statement that drops what a specification creates. What specifies no statement creates
nothing. -/
def inverse? : Specification → Option Statement
  | statement s => s.inverse?
  | unknown _ => none

/-- The text of the statement that drops what a specification creates, if there is one. -/
def inverseText? (spec : Specification) : Except Error (Option Text) :=
  match spec.inverse? with
  | some inverse => inverse.render.map some
  | none => .ok none

end Specification

end CqlDdl
