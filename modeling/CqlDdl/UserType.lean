import CqlDdl.Column
import CqlDdl.Guard

/-! The statements on user types: what they say, and their text. -/

namespace CqlDdl

structure CreateUserType where
  name : QualifiedName
  ifNotExists : Bool := false
  fields : List Column := []

/-- Changes the fields of a user type. -/
structure AlterUserType where
  name : QualifiedName
  changes : List FieldChange := []

structure DropUserType where
  name : QualifiedName
  ifExists : Bool := false

/-- The statement's text. A user type needs a field. -/
def CreateUserType.render (s : CreateUserType) : Except Error Text :=
  if s.fields.isEmpty then .error (.invalidSpecification (.noFields s.name))
  else
    .ok ("CREATE TYPE ".toList ++ Guard.ifNotExists s.ifNotExists ++ s.name.render ++ " (".toList ++
      Text.joined ", ".toList (s.fields.map Column.definition) ++ ");".toList)

namespace FieldChange

inductive Kind
  | add | alter | rename
deriving DecidableEq, Repr

def Kind.all : List Kind := [add, alter, rename]

def Kind.word : Kind → Text
  | add => "add".toList
  | alter => "alter".toList
  | rename => "rename".toList

def kind : FieldChange → Kind
  | add .. => .add
  | alter .. => .alter
  | rename .. => .rename

/-- The clause of a change that comes after a change of another kind, or after one of the same. A
rename that follows a rename goes on with its clause. -/
def clauseAfter (previous : Option Kind) : FieldChange → Text
  | add name type => "ADD ".toList ++ name.render ++ ' ' :: type.render
  | alter name type => "ALTER ".toList ++ name.render ++ " TYPE ".toList ++ type.render
  | rename name target =>
    (if previous = some .rename then "AND ".toList else "RENAME ".toList) ++ name.render ++
      " TO ".toList ++ target.render

@[simp] theorem clauseAfter_add (previous : Option Kind) (name : Identifier) (type : DataType) :
    (add name type).clauseAfter previous =
      "ADD ".toList ++ name.render ++ ' ' :: type.render := rfl

@[simp] theorem clauseAfter_alter (previous : Option Kind) (name : Identifier) (type : DataType) :
    (alter name type).clauseAfter previous =
      "ALTER ".toList ++ name.render ++ " TYPE ".toList ++ type.render := rfl

@[simp] theorem clauseAfter_rename (previous : Option Kind) (name target : Identifier) :
    (rename name target).clauseAfter previous =
      (if previous = some .rename then "AND ".toList else "RENAME ".toList) ++ name.render ++
        " TO ".toList ++ target.render := rfl

end FieldChange

namespace AlterUserType

/-- A statement written so far, and the kind of the change that was written last. -/
structure Progress where
  text : Text
  previous : Option FieldChange.Kind

/-- The statement after one more change. -/
def Progress.append (progress : Progress) (change : FieldChange) : Progress where
  text := progress.text ++ ' ' :: change.clauseAfter progress.previous
  previous := some change.kind

/-- The statement before its first change. -/
def opening (s : AlterUserType) : Progress where
  text := "ALTER TYPE ".toList ++ s.name.render
  previous := none

/-- The statement's text. It has to change something. -/
def render (s : AlterUserType) : Except Error Text :=
  if s.changes.isEmpty then .error (.invalidSpecification (.userTypeUnchanged s.name))
  else .ok ((s.changes.foldl Progress.append s.opening).text ++ [';'])

end AlterUserType

def DropUserType.render (s : DropUserType) : Text :=
  "DROP TYPE ".toList ++ Guard.ifExists s.ifExists ++ s.name.render ++ [';']

end CqlDdl
