import CqlDdl.Entries
import CqlDdl.Options.Catalogue
import CqlDdl.Options.Value

/-! Option maps: the options of a statement in the order in which they are written, the clauses that
assign them, and the text of a map that is itself the value of an option. -/

namespace CqlDdl

/-- The options of a statement, or inside the value of an option, in written order. -/
abbrev OptionMap := List (OptionKey × OptionValue)

namespace OptionMap

/-- Sets an option by its name: an entry of the same name keeps its place and takes both the new key
and the new value, so that a value is always written as the key asks that it was checked under. -/
def put (options : OptionMap) (key : OptionKey) (value : OptionValue) : OptionMap :=
  Entries.put key.sameName key value options

/-- Sets an option by its key: a key of the catalogue keeps its place, and every other key gets an
entry of its own. -/
def assign (options : OptionMap) (key : OptionKey) (value : OptionValue) : OptionMap :=
  Entries.put key.sameDeclaration key value options

/-- The map of entries that are assigned one after another. -/
def ofAssignments (entries : List (OptionKey × OptionValue)) : OptionMap :=
  entries.foldl (fun options entry => assign options entry.1 entry.2) []

/-- Whether an option of the name of a key is set. -/
def has (options : OptionMap) (key : OptionKey) : Bool :=
  options.any fun entry => entry.1.sameName key

/-- The names of the options in order. -/
def names (options : OptionMap) : List Text :=
  options.map fun entry => entry.1.name

/-- One entry of a map inside a statement: the name as a string literal, and the value. -/
def renderEntry (entry : OptionKey × OptionValue) : Except Error Text :=
  (entry.1.write entry.2).map fun value => Text.literal entry.1.name ++ " : ".toList ++ value

/-- A map as the value of an option: its entries between braces, and nothing for an empty map. -/
def render (options : OptionMap) : Except Error Text :=
  if options.isEmpty then .ok []
  else
    (Entries.traverse renderEntry options).map fun entries =>
      "\x7b ".toList ++ Text.joined ", ".toList entries ++ " \x7d".toList

/-- The clause that sets one option: its name and value, or its bare name where it has none. -/
def clause (entry : OptionKey × OptionValue) : Except Error Text :=
  let assigned (value : Text) := entry.1.name ++ " = ".toList ++ value
  match entry.2 with
  | .null => .ok entry.1.name
  | .map entries =>
    match entry.1.check (.map entries) with
    | .error e => .error e
    | .ok () => (render entries).map assigned
  | value => (entry.1.write value).map assigned

/-- The clauses that set the options, in order. -/
def clauses (options : OptionMap) : Except Error (List Text) :=
  Entries.traverse clause options

end OptionMap

/-- The part of a statement that lists its clauses, and nothing where there are none. -/
def withClauses (clauses : List Text) : Text :=
  if clauses.isEmpty then [] else " WITH ".toList ++ Text.joined " AND ".toList clauses

end CqlDdl
