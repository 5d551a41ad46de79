import CqlDdl.Text

/-! The forms a text is tested for: blank, a decimal number, a word for a truth value, and the
shapes of a bare and of a quoted name. -/

namespace CqlDdl.Text

/-- White space: the ASCII blanks and line breaks, the Unicode space separators, the line and
paragraph separators, and the byte order mark. -/
def isBlankChar (c : Char) : Bool :=
  let n := c.toNat
  (9 ≤ n && n ≤ 13) || n == 0x20 || n == 0xA0 || n == 0x1680 || (0x2000 ≤ n && n ≤ 0x200A) ||
    n == 0x2028 || n == 0x2029 || n == 0x202F || n == 0x205F || n == 0x3000 || n == 0xFEFF

/-- A text is blank when it holds nothing but white space; the empty text is blank. -/
def isBlank (text : Text) : Bool :=
  text.all isBlankChar

/-- The text from its first character on that is not white space. -/
def trimmedStart (text : Text) : Text :=
  text.dropWhile isBlankChar

/-- The text without white space at either end. -/
def trimmed (text : Text) : Text :=
  (trimmedStart (trimmedStart text).reverse).reverse

/-- The text after an optional sign. -/
def unsigned : Text → Text
  | '+' :: rest => rest
  | '-' :: rest => rest
  | rest => rest

/-- Whether a text starts with a minus sign. -/
def startsNegative (text : Text) : Bool :=
  text.head? == some '-'

/-- At least one digit, and nothing else. -/
def isDigits (text : Text) : Bool :=
  !text.isEmpty && text.all Char.isDigit

/-- Nothing, or the letter `e` in either case, an optional sign, and digits. -/
def isExponent : Text → Bool
  | [] => true
  | c :: rest => (c == 'e' || c == 'E') && isDigits (unsigned rest)

/-- What may follow the digits before the point: an exponent, or a point, digits, and an exponent.
The digits after the point may be left out where `whole` says that some stood before it. -/
def isFraction (whole : Bool) : Text → Bool
  | '.' :: rest =>
    (whole || (rest.head?.map Char.isDigit).getD false) &&
      isExponent (rest.dropWhile Char.isDigit)
  | rest => whole && isExponent rest

/-- A decimal number: an optional sign, digits with at most one point among or beside them, and an
optional exponent. -/
def isNumber (text : Text) : Bool :=
  let body := unsigned text
  isFraction (!(body.takeWhile Char.isDigit).isEmpty) (body.dropWhile Char.isDigit)

/-- The words `true` and `false`, in any ASCII case. -/
def isTruthWord (text : Text) : Bool :=
  lowered text == "true".toList || lowered text == "false".toList

/-- The characters that a name may start with: ASCII letters and the underscore. -/
def isNameStart (c : Char) : Bool :=
  c.isAlpha || c == '_'

/-- The characters that a bare name may go on with: ASCII letters, digits and the underscore. -/
def isNamePart (c : Char) : Bool :=
  c.isAlphanum || c == '_'

/-- The shape of a name that needs no quotation marks, keywords left aside. -/
def isBareShape : Text → Bool
  | [] => false
  | c :: rest => isNameStart c && rest.all isNamePart

/-- Name characters and pairs of quotation marks. -/
def isQuotedRest : Text → Bool
  | [] => true
  | '"' :: '"' :: rest => isQuotedRest rest
  | c :: rest => isNamePart c && isQuotedRest rest

/-- The shape of a name as it stands between quotation marks, the marks inside it doubled. -/
def isQuotedShape : Text → Bool
  | [] => false
  | c :: rest => isNameStart c && isQuotedRest rest

end CqlDdl.Text
