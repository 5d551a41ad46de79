import CqlDdl.Text

/-! The JSON string of a text. -/

namespace CqlDdl.Text

/-- The two hexadecimal digits of a number below 256. -/
def hexPair (n : Nat) : Text :=
  [Nat.digitChar (n / 16 % 16), Nat.digitChar (n % 16)]

/-- A character inside a JSON string: quotation marks, backslashes and control characters are
escaped, by a letter where there is one. -/
def jsonChar (c : Char) : Text :=
  match c.toNat with
  | 0x22 => ['\\', '"']
  | 0x5C => ['\\', '\\']
  | 0x08 => ['\\', 'b']
  | 0x0C => ['\\', 'f']
  | 0x0A => ['\\', 'n']
  | 0x0D => ['\\', 'r']
  | 0x09 => ['\\', 't']
  | n => if n < 0x20 then "\\u00".toList ++ hexPair n else [c]

/-- The JSON string of a text. -/
def jsonString (text : Text) : Text :=
  enclosed quotation (text.flatMap jsonChar)

end CqlDdl.Text
