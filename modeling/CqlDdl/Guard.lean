import CqlDdl.Text

/-! The words that let a statement do nothing where its object is there already, or is missing. -/

namespace CqlDdl.Guard

/-- The words for a statement that creates something only where it is missing. -/
def ifNotExists (flag : Bool) : Text :=
  if flag then "IF NOT EXISTS ".toList else []

/-- The words for a statement that drops something only where it is there. -/
def ifExists (flag : Bool) : Text :=
  if flag then "IF EXISTS ".toList else []

end CqlDdl.Guard
