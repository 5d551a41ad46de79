import CqlDdl.Identifier

/-! Types of columns and fields: native types, collections, tuples, frozen types, and types
declared in the schema. -/

namespace CqlDdl

/-- The types that need no parameters. -/
inductive NativeType
  | ascii | bigint | blob | boolean | counter | date | decimal | double | duration | float | inet
  | int | smallint | text | time | timestamp | timeuuid | tinyint | uuid | varchar | varint
deriving DecidableEq, Repr

namespace NativeType

def word : NativeType → Text
  | ascii => "ascii".toList
  | bigint => "bigint".toList
  | blob => "blob".toList
  | boolean => "boolean".toList
  | counter => "counter".toList
  | date => "date".toList
  | decimal => "decimal".toList
  | double => "double".toList
  | duration => "duration".toList
  | float => "float".toList
  | inet => "inet".toList
  | int => "int".toList
  | smallint => "smallint".toList
  | text => "text".toList
  | time => "time".toList
  | timestamp => "timestamp".toList
  | timeuuid => "timeuuid".toList
  | tinyint => "tinyint".toList
  | uuid => "uuid".toList
  | varchar => "varchar".toList
  | varint => "varint".toList

def all : List NativeType :=
  [ascii, bigint, blob, boolean, counter, date, decimal, double, duration, float, inet, int,
    smallint, text, time, timestamp, timeuuid, tinyint, uuid, varchar, varint]

/-- The native type of a word. -/
def ofWord? (word : Text) : Option NativeType :=
  all.find? fun t => t.word == word

theorem word_injective {s t : NativeType} (h : s.word = t.word) : s = t := by
  revert h
  cases s <;> cases t <;> decide

end NativeType

/-- A type of a column or field. -/
inductive DataType
  | native (type : NativeType)
  | list (element : DataType)
  | set (element : DataType)
  | map (key value : DataType)
  | tuple (elements : List DataType)
  | frozen (inner : DataType)
  | declared (name : QualifiedName)

namespace DataType

mutual

/-- A type as it stands in a statement: the parameters of a type in angle brackets after it. -/
def render : DataType → Text
  | native type => type.word
  | list element => "list<".toList ++ render element ++ ['>']
  | set element => "set<".toList ++ render element ++ ['>']
  | map key value => "map<".toList ++ render key ++ ", ".toList ++ render value ++ ['>']
  | tuple elements => "tuple<".toList ++ Text.joined ", ".toList (renderEach elements) ++ ['>']
  | frozen inner => "frozen<".toList ++ render inner ++ ['>']
  | declared name => name.render

/-- Each of several types as it stands in a statement. -/
def renderEach : List DataType → List Text
  | [] => []
  | type :: rest => render type :: renderEach rest

end

@[simp] theorem render_native (type : NativeType) : (native type).render = type.word := rfl

@[simp] theorem render_list (element : DataType) :
    (list element).render = "list<".toList ++ element.render ++ ['>'] := rfl

@[simp] theorem render_set (element : DataType) :
    (set element).render = "set<".toList ++ element.render ++ ['>'] := rfl

@[simp] theorem render_map (key value : DataType) :
    (map key value).render =
      "map<".toList ++ key.render ++ ", ".toList ++ value.render ++ ['>'] := rfl

@[simp] theorem render_tuple (elements : List DataType) :
    (tuple elements).render =
      "tuple<".toList ++ Text.joined ", ".toList (renderEach elements) ++ ['>'] := rfl

@[simp] theorem render_frozen (inner : DataType) :
    (frozen inner).render = "frozen<".toList ++ inner.render ++ ['>'] := rfl

@[simp] theorem render_declared (name : QualifiedName) :
    (declared name).render = name.render := rfl

@[simp] theorem renderEach_nil : renderEach [] = [] := rfl

@[simp] theorem renderEach_cons (type : DataType) (rest : List DataType) :
    renderEach (type :: rest) = type.render :: renderEach rest := rfl

theorem renderEach_eq_map (types : List DataType) : renderEach types = types.map render := by
  induction types with
  | nil => rfl
  | cons type rest ih => simp [ih]

end DataType

end CqlDdl
