import CqlDdl.Options.Map

/-! Setting the options of a statement under construction. A value is checked when it is set, and a
request that fails changes nothing. -/

namespace CqlDdl

/-- A request to set one option. -/
inductive OptionEdit
  /-- Sets the option of a key. -/
  | set (key : OptionKey) (value : OptionValue)
  /-- Sets an option by a name that the catalogue need not know. -/
  | setNamed (name : Text) (value : OptionValue) (flags : OptionFlags)

/-- The type that a value shows. A value that was left out could be any text. -/
def ValueType.ofValue : OptionValue → ValueType
  | .null => .void
  | .absent => .string
  | .map _ => .map
  | .scalar (.text _) => .string
  | .scalar (.number _) => .number
  | .scalar (.integer _) => .number
  | .scalar (.bool _) => .boolean

namespace OptionMap

/-- Sets the option of a key, if the value suits it. A value that was left out is none. -/
def set (options : OptionMap) (key : OptionKey) (value : OptionValue) : Except Error OptionMap :=
  match key.check value with
  | .ok () => .ok (options.put key (value.orDefault .null))
  | .error e => .error e

def edit (options : OptionMap) : OptionEdit → Except Error OptionMap
  | .set key value => options.set key value
  | .setNamed name value flags =>
    match OptionKey.make name (ValueType.ofValue value) flags with
    | .ok key => options.set key value
    | .error e => .error e

end OptionMap

end CqlDdl
