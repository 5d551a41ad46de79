import CqlDdl.Text

/-! Spellings of names for files and headings: words joined by underscores, names cut down to the
characters that are safe in a file name, and numbers filled up with zeros. -/

namespace CqlDdl.Text

/-- Each ASCII capital as an underscore and the small letter. -/
def separated (text : Text) : Text :=
  text.flatMap fun c => if c.isUpper then ['_', c.toLower] else [c]

/-- A name of joined words in small letters, with underscores where capitals began a word. A capital
at the very start, or an underscore, leaves none. -/
def snakeCase (text : Text) : Text :=
  match separated text with
  | '_' :: rest => rest
  | words => words

/-- The characters of a file name: small ASCII letters, digits and underscores. -/
def isFileChar (c : Char) : Bool :=
  c.isLower || c.isDigit || c == '_'

/-- Every run of other characters as one underscore; `inRun` tells whether such a run goes on. -/
def squeezed (inRun : Bool) : Text → Text
  | [] => []
  | c :: rest =>
    if isFileChar c then c :: squeezed false rest
    else if inRun then squeezed true rest
    else '_' :: squeezed true rest

/-- A name in the characters of a file name. -/
def fileSlug (name : Text) : Text :=
  squeezed false (lowered name)

/-- A text filled up on the left with zeros to a width. -/
def padded (width : Nat) (text : Text) : Text :=
  List.replicate (width - text.length) '0' ++ text

/-- The words of a name of joined words as the start of a sentence. -/
def heading (text : Text) : Text :=
  match (snakeCase text).map fun c => if c == '_' then ' ' else c with
  | [] => []
  | c :: rest => c.toUpper :: rest

end CqlDdl.Text
