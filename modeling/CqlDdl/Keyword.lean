import CqlDdl.Text

/-! The reserved words, which a name can be only between quotation marks, and the test for them,
which ignores case in every script whose upper case is made of ASCII letters. -/

namespace CqlDdl

namespace Text

/-- The upper case of a character, where that is made of ASCII letters: of the ASCII letters, of
the dotless and long letters, and of the ligatures, one of which can stand for several letters. -/
def upperChar (c : Char) : Text :=
  match c.toNat with
  | 0xDF => ['S', 'S']
  | 0x131 => ['I']
  | 0x17F => ['S']
  | 0xFB00 => ['F', 'F']
  | 0xFB01 => ['F', 'I']
  | 0xFB02 => ['F', 'L']
  | 0xFB03 => ['F', 'F', 'I']
  | 0xFB04 => ['F', 'F', 'L']
  | 0xFB05 => ['S', 'T']
  | 0xFB06 => ['S', 'T']
  | _ => [c.toUpper]

/-- The text in upper case, as far as that concerns ASCII letters. -/
def uppered (text : Text) : Text :=
  text.flatMap upperChar

end Text

namespace Keyword

/-- The reserved words in upper case. -/
def reserved : List Text :=
  ["ADD", "ALLOW", "ALTER", "AND", "APPLY", "ASC", "AUTHORIZE", "BATCH", "BEGIN", "BY",
    "COLUMNFAMILY", "CREATE", "DELETE", "DESC", "DESCRIBE", "DROP", "ENTRIES", "EXECUTE", "FROM",
    "FULL", "GRANT", "IF", "IN", "INDEX", "INFINITY", "INSERT", "INTO", "KEYSPACE", "LIMIT",
    "MODIFY", "NAN", "NORECURSIVE", "NOT", "NULL", "OF", "ON", "OR", "ORDER", "PRIMARY", "RENAME",
    "REPLACE", "REVOKE", "SCHEMA", "SELECT", "SET", "TABLE", "TO", "TOKEN", "TRUNCATE", "UNLOGGED",
    "UPDATE", "USE", "USING", "WHERE", "WITH"].map String.toList

/-- Whether a text is a reserved word in some case. -/
def isReserved (text : Text) : Bool :=
  reserved.contains (Text.uppered text)

end Keyword

end CqlDdl
