import CqlDdl.UserType

/-! Statements on user types under construction. -/

namespace CqlDdl

namespace CreateUserType

inductive Edit
  | ifNotExists (flag : Bool)
  | field (name : Name) (type : DataType)

def start (keyspace name : Option Name) : Except Error CreateUserType :=
  (QualifiedName.ofNames keyspace name).map fun name => { name }

/-- The statement with one more field. -/
def withField (s : CreateUserType) (field : Column) : CreateUserType :=
  { s with fields := s.fields ++ [field] }

def apply (s : CreateUserType) : Edit → Except Error CreateUserType
  | .ifNotExists flag => .ok { s with ifNotExists := flag }
  | .field name type => (Column.make name type .none none).map s.withField

/-- A complete statement declares fields, and no name twice. -/
def build (s : CreateUserType) : Except Error CreateUserType :=
  if s.fields.isEmpty then .error (.invalidSpecification (.noFields s.name))
  else
    match repeatedName? [] (s.fields.map Column.name) with
    | some name => .error (.invalidSpecification (.repeatedName (.userType s.name) name))
    | none => .ok s

end CreateUserType

namespace AlterUserType

inductive Edit
  | add (name : Name) (type : DataType)
  | alter (name : Name) (type : DataType)
  | rename (name target : Name)
  | change (change : FieldChange)

def start (keyspace name : Option Name) : Except Error AlterUserType :=
  (QualifiedName.ofNames keyspace name).map fun name => { name }

/-- The statement with one more change. -/
def withChange (s : AlterUserType) (change : FieldChange) : AlterUserType :=
  { s with changes := s.changes ++ [change] }

def apply (s : AlterUserType) : Edit → Except Error AlterUserType
  | .add name type => (name.resolve.map (.add · type)).map s.withChange
  | .alter name type => (name.resolve.map (.alter · type)).map s.withChange
  | .rename name target => do
    let name ← name.resolve
    let target ← target.resolve
    return s.withChange (.rename name target)
  | .change change => .ok (s.withChange change)

/-- A complete statement changes something. -/
def build (s : AlterUserType) : Except Error AlterUserType :=
  if s.changes.isEmpty then .error (.invalidSpecification (.userTypeUnchanged s.name)) else .ok s

end AlterUserType

namespace DropUserType

inductive Edit
  | ifExists (flag : Bool)

def start (keyspace name : Option Name) : Except Error DropUserType :=
  (QualifiedName.ofNames keyspace name).map fun name => { name }

def apply (s : DropUserType) : Edit → DropUserType
  | .ifExists flag => { s with ifExists := flag }

end DropUserType

end CqlDdl
