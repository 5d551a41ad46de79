import CqlDdl.Text.Parts
import CqlDdl.Text.Quoted

/-! Texts as they are shown in a log: between marks and with control characters escaped, a long text
line by line, and of a very long one only the start. -/

namespace CqlDdl.Text

/-- The third mark that a shown text may stand between. -/
def grave : Char := '\x60'

/-- Whether a text holds a dollar sign right before an opening brace. -/
def opensInsertion : Text → Bool
  | '$' :: '\x7b' :: _ => true
  | _ :: rest => opensInsertion rest
  | [] => false

/-- The mark around a text that is shown: the apostrophe, or another mark that the text does not
hold where it holds the apostrophe. -/
def shownMark (text : Text) : Char :=
  if !text.contains apostrophe then apostrophe
  else if !text.contains quotation then quotation
  else if !text.contains grave && !opensInsertion text then grave
  else apostrophe

/-- A character of a text that is shown between marks: the apostrophe, where it is the mark, the
backslash and all control characters are escaped, by a letter where there is one. -/
def shownChar (mark c : Char) : Text :=
  match c.toNat with
  | 0x27 => if mark = apostrophe then ['\\', '\''] else [c]
  | 0x5C => ['\\', '\\']
  | 0x08 => ['\\', 'b']
  | 0x09 => ['\\', 't']
  | 0x0A => ['\\', 'n']
  | 0x0C => ['\\', 'f']
  | 0x0D => ['\\', 'r']
  | n =>
    if n < 0x20 || (0x7F ≤ n && n < 0xA0) then "\\x".toList ++ (hexPair n).map Char.toUpper
    else [c]

/-- A piece of text between marks, with something at its end that is escaped already. -/
def shownPiece (text ending : Text) : Text :=
  enclosed (shownMark text) (text.flatMap (shownChar (shownMark text)) ++ ending)

/-- Each line of a text between marks, the last one with an ending. Where a line break ends the text
and there is no ending, nothing stands behind it. -/
def shownPieces (text ending : Text) : List Text :=
  let lines := brokenLines text
  let last := lines.getLastD []
  lines.dropLast.map (shownPiece · []) ++
    if last.isEmpty && ending.isEmpty then [] else [shownPiece last ending]

/-- The first one of the two 16-bit units of a character, escaped. -/
def firstUnit (c : Char) : Text :=
  let n := 0xD800 + (c.toNat - 0x10000) / 0x400
  "\\u".toList ++ hexPair (n / 0x100) ++ hexPair (n % 0x100)

/-- Texts of at most this many units are shown in one piece. -/
def longestPiece : Nat := 76

/-- Texts of at most this many units are shown in full. -/
def longestShown : Nat := 10000

/-- The words for the units that are not shown. -/
def remainder (count : Nat) : Text :=
  "... ".toList ++ ofNat count ++ " more character".toList ++ if 1 < count then ['s'] else []

/-- The pieces of a long text, one below the other. -/
def stacked (pieces : List Text) : Text :=
  joined " +\n  ".toList pieces

/-- A text as it is shown. -/
def shown (text : Text) : Text :=
  let count := units text
  if count ≤ longestPiece then shownPiece text []
  else if count ≤ longestShown then stacked (shownPieces text [])
  else
    let (start, half) := takeUnits longestShown text
    stacked (shownPieces start ((half.map firstUnit).getD [])) ++ remainder (count - longestShown)

end CqlDdl.Text
