import CqlDdl.Binary64
import CqlDdl.Text.Grammar

/-! Reading numbers: the longest decimal at the start of a text, the number nearest to it, and the
number that a whole text stands for. -/

namespace CqlDdl

namespace Text

/-- The value of a digit. The letters go on after the ten digits, in either case. -/
def digitValue (c : Char) : Nat :=
  if c.isDigit then c.toNat - 48
  else if c.isAlpha then c.toLower.toNat - 87
  else 36

/-- The natural number that digits stand for. -/
def toNat (base : Nat) (digits : Text) : Nat :=
  digits.foldl (fun n c => n * base + digitValue c) 0

/-- The digits at the start of a text, and what follows them. -/
def digitsOf (base : Nat) (text : Text) : Text × Text :=
  text.span fun c => decide (digitValue c < base)

end Text

/-- A decimal as it is written: a sign, digits without their point, and the power of ten by which
the integer of these digits is multiplied. -/
structure Numeral where
  negative : Bool
  digits : Text
  exponent : Int
deriving DecidableEq, Repr

namespace Numeral

/-- The exponent at the start of a text, and what follows it. Without digits there is none, and the
letter for it is left where it is. -/
def exponentOf : Text → Int × Text
  | [] => (0, [])
  | c :: rest =>
    match c == 'e' || c == 'E', Text.digitsOf 10 (Text.unsigned rest) with
    | true, (d :: digits, rest') =>
      let value : Int := Text.toNat 10 (d :: digits)
      (if Text.startsNegative rest then -value else value, rest')
    | _, _ => (0, c :: rest)

/-- The digits after a point at the start of a text, and what follows them. -/
def fractionOf : Text → Text × Text
  | '.' :: rest => Text.digitsOf 10 rest
  | rest => ([], rest)

/-- The longest decimal at the start of a text, and what follows it. -/
def leading? (text : Text) : Option (Numeral × Text) :=
  let (whole, afterWhole) := Text.digitsOf 10 (Text.unsigned text)
  let (fraction, afterFraction) := fractionOf afterWhole
  let (exponent, rest) := exponentOf afterFraction
  if whole.isEmpty && fraction.isEmpty then none
  else some (⟨Text.startsNegative text, whole ++ fraction, exponent - fraction.length⟩, rest)

/-- Decimals from the power of ten of this place on are beyond the largest finite number. -/
def highestPlace : Int := 310

/-- Decimals below the power of ten of this place are nearest to zero. -/
def lowestPlace : Int := -330

/-- The number nearest to a decimal. Decimals far from every finite number are told by their places
alone, so that no power of ten is larger than the digits make it. -/
def value (x : Numeral) : Binary64 :=
  let digits := x.digits.dropWhile (· == '0')
  let place := x.exponent + digits.length
  if digits.isEmpty || place < lowestPlace then Binary64.pack x.negative 0 0
  else if highestPlace < place then Binary64.infinity x.negative
  else
    let magnitude := Text.toNat 10 digits * Nat.pow 10 x.exponent.toNat
    Binary64.ofRatio x.negative (magnitude * Binary64.unitsPerOne) (Nat.pow 10 (-x.exponent).toNat)

end Numeral

namespace Binary64

def infinityWord : Text := "Infinity".toList

/-- The number at the start of a text, a decimal or the word for an infinity, and what follows. -/
def leading? (text : Text) : Option (Binary64 × Text) :=
  let body := Text.unsigned text
  if infinityWord.isPrefixOf body then
    some (infinity (Text.startsNegative text), body.drop infinityWord.length)
  else (Numeral.leading? text).map fun (numeral, rest) => (numeral.value, rest)

/-- The number that a text starts with after white space, whatever follows it. -/
def ofStart (text : Text) : Binary64 :=
  ((leading? (Text.trimmedStart text)).map Prod.fst).getD nan

/-- The integer that a text starts with after white space, whatever follows it: in base 16 after
`0x`, else in base 10. -/
def ofIntegerStart (text : Text) : Binary64 :=
  let text := Text.trimmedStart text
  let (base, body) : Nat × Text := match Text.unsigned text with
    | '0' :: 'x' :: rest => (16, rest)
    | '0' :: 'X' :: rest => (16, rest)
    | body => (10, body)
  let digits := (Text.digitsOf base body).1
  if digits.isEmpty then nan else ofSigned (Text.startsNegative text) (Text.toNat base digits)

/-- The base that a letter after a zero announces. -/
def announcedBase? (c : Char) : Option Nat :=
  match c.toLower with
  | 'x' => some 16
  | 'o' => some 8
  | 'b' => some 2
  | _ => none

/-- The number that nothing but digits of a base stand for. -/
def ofDigits (base : Nat) (digits : Text) : Binary64 :=
  if digits.isEmpty || (digits.any fun c => decide (base ≤ Text.digitValue c)) then nan
  else ofNat (Text.toNat base digits)

/-- The number that nothing but a decimal or the word for an infinity stands for. -/
def ofDecimal (text : Text) : Binary64 :=
  match leading? text with
  | some (x, []) => x
  | _ => nan

/-- The number that a whole text stands for, white space around it aside. The empty text stands for
zero. -/
def ofText (text : Text) : Binary64 :=
  match Text.trimmed text with
  | [] => pack false 0 0
  | '0' :: c :: digits =>
    match announcedBase? c with
    | some base => ofDigits base digits
    | none => ofDecimal ('0' :: c :: digits)
  | body => ofDecimal body

end Binary64

end CqlDdl
