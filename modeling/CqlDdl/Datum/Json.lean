import CqlDdl.Datum
import CqlDdl.Text.Quoted

/-! The JSON text of data of unknown structure, and the plain text that stands in for it where the
data has none: JSON has no integers of unbounded size. -/

namespace CqlDdl

namespace Datum

mutual

/-- The JSON text of some data. The outer result is missing where an integer of unbounded size
occurs, the inner one where there is no data to write. -/
def json? : Datum → Option (Option Text)
  | absent => some none
  | null => some (some "null".toList)
  | bool value => some (some (Text.ofBool value))
  | number value => some (some (if value.isFinite then value.text else "null".toList))
  | integer _ => none
  | text value => some (some (Text.jsonString value))
  | identifier value => some (some (Text.jsonString value.render))
  | emptyMap => some (some ['\x7b', '\x7d'])
  | array elements => (jsonElements? elements).map fun parts =>
      some ('[' :: (Text.joined [','] parts ++ [']']))
  | object fields => (jsonFields? fields).map fun parts =>
      some ('\x7b' :: (Text.joined [','] parts ++ ['\x7d']))

/-- The JSON texts of the elements of an array; an element without a value is written as null. -/
def jsonElements? : List Datum → Option (List Text)
  | [] => some []
  | element :: rest =>
    match json? element, jsonElements? rest with
    | some part, some parts => some (part.getD "null".toList :: parts)
    | _, _ => none

/-- The JSON texts of the fields of an object; a field without a value is left out. -/
def jsonFields? : List (Text × Datum) → Option (List Text)
  | [] => some []
  | (name, value) :: rest =>
    match json? value, jsonFields? rest with
    | some (some part), some parts => some ((Text.jsonString name ++ ':' :: part) :: parts)
    | some none, some parts => some parts
    | _, _ => none

end

mutual

/-- The plain text of some data, which tells less than its JSON text. -/
def plain : Datum → Text
  | absent => "undefined".toList
  | null => "null".toList
  | bool value => Text.ofBool value
  | number value => value.text
  | integer value => Text.ofInt value
  | text value => value
  | identifier value => value.render
  | emptyMap => "[object Map]".toList
  | array elements => Text.joined [','] (plainElements elements)
  | object _ => "[object Object]".toList

/-- The plain texts of the elements of an array; an element without a value has an empty one. -/
def plainElements : List Datum → List Text
  | [] => []
  | absent :: rest => [] :: plainElements rest
  | null :: rest => [] :: plainElements rest
  | element :: rest => plain element :: plainElements rest

end

/-- How messages describe some data: by its JSON text, or else by its plain text. -/
def description (data : Datum) : Text :=
  match data.json? with
  | some (some written) => written
  | _ => data.plain

end Datum

end CqlDdl
