import CqlDdl.Binary64.Decimal
import CqlDdl.Options.Key

/-! Option values: which of them a key accepts, and how an accepted one is written. -/

namespace CqlDdl

/-- A single value. -/
inductive Scalar
  | text (value : Text)
  | number (value : Binary64)
  | integer (value : Int)
  | bool (value : Bool)
deriving DecidableEq

namespace Scalar

/-- The text of a single value, before any marks. -/
def render : Scalar → Text
  | text value => value
  | number value => value.text
  | integer value => Text.ofInt value
  | bool value => Text.ofBool value

/-- Whether a value can stand for a number: a finite number, an integer, or a text of that form. -/
def isNumeric : Scalar → Bool
  | text value => Text.isNumber value
  | number value => value.isFinite
  | integer _ => true
  | bool _ => false

/-- Whether a value can stand for a truth value: one of the two, or the word for one. -/
def isLogical : Scalar → Bool
  | text value => Text.isTruthWord value
  | bool _ => true
  | number _ | integer _ => false

end Scalar

/-- The value of an option: none, one that was left out, a single value, or a map of options. What
was left out counts as none when it is checked, yet it is written as a word. -/
inductive OptionValue
  | null
  | absent
  | scalar (value : Scalar)
  | map (entries : List (OptionKey × OptionValue))

namespace OptionValue

/-- Whether a value is a map of options. -/
def isMap : OptionValue → Bool
  | map _ => true
  | null | absent | scalar _ => false

/-- Whether there is a value at all. -/
def isGiven : OptionValue → Bool
  | null | absent => false
  | scalar _ | map _ => true

/-- The value, or another one where it was left out. -/
def orDefault : OptionValue → OptionValue → OptionValue
  | absent, default => default
  | value, _ => value

/-- The text of a value, before any marks. A map has one text for all: as a value of this kind it
is never part of a statement. -/
def render : OptionValue → Text
  | null => []
  | absent => "undefined".toList
  | scalar value => value.render
  | map _ => "[object Map]".toList

end OptionValue

namespace OptionKey

/-- Whether a value can stand for the type of the key. A map may not hold further maps. A value that
was left out could be any text. -/
def accepts (key : OptionKey) : OptionValue → Bool
  | .null => true
  | .absent =>
    match key.type with
    | .void | .string => true
    | .number | .boolean | .map => false
  | .scalar value =>
    match key.type with
    | .void | .string => true
    | .number => value.isNumeric
    | .boolean => value.isLogical
    | .map => false
  | .map entries =>
    match key.type with
    | .void => true
    | .map => entries.all fun entry => !entry.2.isMap
    | .string | .number | .boolean => false

/-- Checks that a value suits the key: none for an option that takes none, one for an option that
requires one, and no value of another type. -/
def check (key : OptionKey) (value : OptionValue) : Except Error Unit :=
  if !key.takesValue then
    if value.isGiven then .error (.invalidSpecification (.valueNotTaken key.name)) else .ok ()
  else if !value.isGiven then
    if key.requiresValue then .error (.invalidSpecification (.valueRequired key.name)) else .ok ()
  else if key.accepts value then .ok ()
  else .error (.invalidSpecification (.valueOfWrongType key.name key.type))

/-- A given value passes the check when the key takes values and accepts this one. -/
theorem check_of_isGiven {key : OptionKey} {value : OptionValue} (h : value.isGiven = true) :
    key.check value = .ok () ↔ key.takesValue = true ∧ key.accepts value = true := by
  unfold check
  by_cases ht : key.takesValue = true <;> by_cases ha : key.accepts value = true <;>
    simp [h, ht, ha]

/-- A text with the apostrophes in it doubled and with apostrophes around it, as the key asks. -/
def mark (key : OptionKey) (text : Text) : Text :=
  let body := if key.escapesValue then Text.doubled Text.apostrophe text else text
  if key.quotesValue then Text.enclosed Text.apostrophe body else body

/-- A text without apostrophes is marked alike, whether they are doubled or not. -/
theorem mark_of_not_mem {key : OptionKey} {text : Text} (h : Text.apostrophe ∉ text) :
    key.mark text = if key.quotesValue then Text.literal text else text := by
  rw [mark, Text.literal, Text.doubled_of_not_mem h, ite_self]

theorem mark_eq_literal {key : OptionKey} {text : Text} (hquotes : key.quotesValue = true)
    (h : key.escapesValue = true ∨ Text.apostrophe ∉ text) :
    key.mark text = Text.literal text := by
  by_cases hmark : Text.apostrophe ∈ text
  · simp [mark, hquotes, h.resolve_right (fun hnot => hnot hmark), Text.literal]
  · rw [mark_of_not_mem hmark, if_pos hquotes]

/-- A value as it is written, once it has been checked. No value is written as nothing. -/
def write (key : OptionKey) : OptionValue → Except Error Text
  | .null => .ok []
  | value =>
    match key.check value with
    | .ok () => .ok (key.mark value.render)
    | .error e => .error e

/-- Any value but none is written, marked as its key asks, if it passes the check of the key. -/
theorem write_of_ne_null {key : OptionKey} {value : OptionValue} (h : value ≠ .null) :
    key.write value = (key.check value).map fun () => key.mark value.render := by
  have hwrite : key.write value = match key.check value with
      | .ok () => .ok (key.mark value.render)
      | .error e => .error e := by
    cases value with
    | null => exact absurd rfl h
    | absent | scalar _ | map _ => rfl
  rw [hwrite]
  cases key.check value <;> rfl

end OptionKey

end CqlDdl
