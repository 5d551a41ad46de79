import CqlDdl.Text

/-! Texts cut into parts: between separators, after line breaks, and after a number of 16-bit
units. -/

namespace CqlDdl.Text

/-- The parts of a text between separators. -/
def split (isSeparator : Char → Bool) : Text → List Text
  | [] => [[]]
  | c :: rest =>
    if isSeparator c then [] :: split isSeparator rest
    else
      match split isSeparator rest with
      | part :: more => (c :: part) :: more
      | [] => [[c]]

/-- The parts of a text between separators, without the empty ones. -/
def parts (isSeparator : Char → Bool) (text : Text) : List Text :=
  (split isSeparator text).filter fun part => !part.isEmpty

/-- The lines of a text, each but the last one with the line break that ends it. After a line break
at the very end stands an empty last line. -/
def brokenLines : Text → List Text
  | [] => [[]]
  | c :: rest =>
    if c = '\n' then [c] :: brokenLines rest
    else
      match brokenLines rest with
      | line :: more => (c :: line) :: more
      | [] => [[c]]

/-- Whether a character takes two 16-bit units. All others take one. -/
def isWide (c : Char) : Bool :=
  decide (0x10000 ≤ c.toNat)

/-- The number of 16-bit units of a text. -/
def units (text : Text) : Nat :=
  text.length + text.countP isWide

/-- The characters of the first units of a text, and the character in the middle of which the cut
falls, if it falls into one. -/
def takeUnits : Nat → Text → Text × Option Char
  | 0, _ => ([], none)
  | _, [] => ([], none)
  | 1, c :: _ => if isWide c then ([], some c) else ([c], none)
  | n + 2, c :: rest =>
    let (taken, half) := takeUnits (if isWide c then n else n + 1) rest
    (c :: taken, half)

end CqlDdl.Text
