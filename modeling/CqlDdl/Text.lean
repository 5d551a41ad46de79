/-! Text as a list of characters, and the ways in which a statement marks it off: marks doubled
inside, marks around, and the string literal made of both. -/

namespace CqlDdl

/-- Text is the list of its characters, so that reading and writing it is recursion on a list. -/
abbrev Text := List Char

namespace Text

/-- The mark around string literals. -/
def apostrophe : Char := '\''

/-- The mark around quoted identifiers. -/
def quotation : Char := '"'

/-- The text with every `mark` in it written twice. -/
def doubled (mark : Char) : Text → Text
  | [] => []
  | c :: rest => if c = mark then mark :: mark :: doubled mark rest else c :: doubled mark rest

/-- The text with every pair of `mark`s, found from the left, written once. -/
def undoubled (mark : Char) : Text → Text
  | a :: b :: rest =>
    if a = mark ∧ b = mark then mark :: undoubled mark rest else a :: undoubled mark (b :: rest)
  | rest => rest

/-- The text between two `mark`s, as it stands. -/
def enclosed (mark : Char) (text : Text) : Text :=
  mark :: (text ++ [mark])

/-- The string literal of a text: apostrophes doubled inside, one apostrophe at each end. -/
def literal (text : Text) : Text :=
  enclosed apostrophe (doubled apostrophe text)

/-- The ASCII letters in lower case, all else as it is. -/
def lowered (text : Text) : Text :=
  text.map Char.toLower

/-- The texts one after another with `separator` between them. -/
def joined (separator : Text) (parts : List Text) : Text :=
  separator.intercalate parts

def ofBool : Bool → Text
  | true => "true".toList
  | false => "false".toList

/-- The decimal digits of a natural number. -/
def ofNat (n : Nat) : Text :=
  Nat.toDigits 10 n

/-- The decimal digits of an integer after its sign, which only a negative one has. -/
def ofInt (n : Int) : Text :=
  if n < 0 then '-' :: ofNat n.natAbs else ofNat n.natAbs

@[simp] theorem doubled_nil (mark : Char) : doubled mark [] = [] := rfl

/-- A text without the mark stays as it is. -/
theorem doubled_of_not_mem {mark : Char} {text : Text} (h : mark ∉ text) :
    doubled mark text = text := by
  induction text with
  | nil => rfl
  | cons c rest ih =>
    have hc : c ≠ mark := fun e => h (by simp [e])
    simp [doubled, hc, ih fun hm => h (by simp [hm])]

/-- Reading the pairs back gives the text that was doubled. -/
@[simp] theorem undoubled_doubled (mark : Char) (text : Text) :
    undoubled mark (doubled mark text) = text := by
  induction text with
  | nil => rfl
  | cons c rest ih =>
    by_cases h : c = mark
    · simp [doubled, undoubled, h, ih]
    · cases hd : doubled mark rest with
      | nil => cases rest with
        | nil => simp [doubled, undoubled, h]
        | cons d more => by_cases hd' : d = mark <;> simp [doubled, hd'] at hd
      | cons d more => simp [doubled, h, undoubled, hd ▸ ih, hd]

end Text

end CqlDdl
