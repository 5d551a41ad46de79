import CqlDdl.Binary64.Decimal
import CqlDdl.Binary64.Reading
import CqlDdl.Text.Shown

/-! Message templates: texts with placeholders, each a percent sign and a letter, for which
arguments stand in. A template is filled in two passes. The first one puts the arguments that are
shown into the template and makes pairs of percent signs single; the second one fills the line that
the template has become a part of. A pair of percent signs is thus read twice, and whatever stands
before the template on its line is a template, too. -/

namespace CqlDdl

/-- What stands in for a placeholder: a text, a number, a truth value, nothing, or a failure by its
message. -/
inductive TemplateArgument
  | text (value : Text)
  | number (value : Binary64)
  | bool (value : Bool)
  | null
  | failure (message : Text)
deriving DecidableEq, Repr

namespace TemplateArgument

/-- A number in a message, where a zero may have a sign. -/
def numberText (x : Binary64) : Text :=
  if x = Binary64.pack true 0 0 then ['-', '0'] else x.text

/-- An argument as it reads. A failure stands between brackets. -/
def plain : TemplateArgument → Text
  | text value => value
  | number value => numberText value
  | bool value => Text.ofBool value
  | null => "null".toList
  | failure message => "[Error: ".toList ++ message ++ [']']

/-- An argument as it is shown. -/
def shown : TemplateArgument → Text
  | text value => value.shown
  | argument => argument.plain

/-- The JSON text of an argument. JSON has finite numbers only, and zero has no sign there. Of a
failure no field is written. -/
def json : TemplateArgument → Text
  | text value => value.jsonString
  | number value => if value.isFinite then value.text else "null".toList
  | bool value => Text.ofBool value
  | null => "null".toList
  | failure _ => ['\x7b', '\x7d']

/-- The number that an argument stands for as a whole. -/
def toNumber : TemplateArgument → Binary64
  | text value => Binary64.ofText value
  | number value => value
  | bool value => Binary64.ofNat value.toNat
  | null => Binary64.ofNat 0
  | failure _ => Binary64.nan

/-- The text in which a number is looked for at the start. Zero has no sign there. -/
def source : TemplateArgument → Text
  | number value => value.text
  | argument => argument.plain

end TemplateArgument

/-- What a placeholder asks for. -/
inductive Placeholder
  | plain | shown | json | number | integer | decimal | nothing
deriving DecidableEq, Repr

namespace Placeholder

/-- The placeholder of a letter. -/
def ofLetter? : Char → Option Placeholder
  | 's' => some plain
  | 'o' => some shown
  | 'O' => some shown
  | 'j' => some json
  | 'd' => some number
  | 'i' => some integer
  | 'f' => some decimal
  | 'c' => some nothing
  | _ => none

/-- What an argument puts in the place of a placeholder. -/
def fill (placeholder : Placeholder) (argument : TemplateArgument) : Text :=
  match placeholder with
  | plain => argument.plain
  | shown => argument.shown
  | json => argument.json
  | number => TemplateArgument.numberText argument.toNumber
  | integer => TemplateArgument.numberText (Binary64.ofIntegerStart argument.source)
  | decimal => TemplateArgument.numberText (Binary64.ofStart argument.source)
  | nothing => []

end Placeholder

namespace Template

/-- A text on one line: its lines without the blanks around them, one after another. -/
def onOneLine (text : Text) : Text :=
  Text.joined [' '] ((Text.split (· == '\n') text).map Text.trimmed)

/-- What is shown for an argument in the first pass, on one line where the letter is a small one. -/
def inlinedText (letter : Char) : Option TemplateArgument → Text
  | none => "undefined".toList
  | some argument => if letter = 'o' then onOneLine argument.shown else argument.shown

/-- The first pass: the template with the arguments in it that are shown, and the other arguments.
Every other letter after a percent sign has an argument of its own. -/
def inlined : Text → List TemplateArgument → Text × List TemplateArgument
  | '%' :: c :: rest, arguments =>
    if c = '%' then
      let (text, others) := inlined rest arguments
      ('%' :: text, others)
    else if Placeholder.ofLetter? c = some .shown then
      let (text, others) := inlined rest arguments.tail
      (inlinedText c arguments.head? ++ text, others)
    else if c.isAlpha then
      let (text, others) := inlined rest arguments.tail
      ('%' :: c :: text, arguments.take 1 ++ others)
    else
      let (text, others) := inlined (c :: rest) arguments
      ('%' :: text, others)
  | c :: rest, arguments =>
    let (text, others) := inlined rest arguments
    (c :: text, others)
  | [], arguments => ([], arguments)

/-- The second pass on a line: each placeholder takes the next argument, pairs of percent signs
become single, and arguments that are left over stand behind. -/
def filled : Text → List TemplateArgument → Text
  | '%' :: c :: rest, arguments =>
    if c = '%' then '%' :: filled rest arguments
    else
      match Placeholder.ofLetter? c, arguments with
      | some placeholder, argument :: others => placeholder.fill argument ++ filled rest others
      | _, _ => '%' :: c :: filled rest arguments
  | c :: rest, arguments => c :: filled rest arguments
  | [], arguments => arguments.flatMap fun argument => ' ' :: argument.plain

/-- The line of a heading and a template. A line without arguments stays as it is. -/
def line (heading template : Text) (arguments : List TemplateArgument) : Text :=
  let (body, others) := inlined template arguments
  let whole := heading ++ ' ' :: body
  if others.isEmpty then whole else filled whole others

end Template

end CqlDdl
