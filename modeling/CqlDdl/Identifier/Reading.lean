import CqlDdl.Error

/-! Identifiers read from the names that a caller gives, and from the written form of a statement.
A text that is no name fails with that text. -/

namespace CqlDdl

namespace Identifier

/-- The identifier of a name: bare where the name can be and `forceQuote` does not ask for
quotation marks, quoted where it must be. -/
def ofName (name : Text) (forceQuote : Bool) : Except Error Identifier :=
  if h : isBareName name = true then
    .ok ⟨name, forceQuote, isQuotableName_of_isBareName h, fun _ => h⟩
  else if h : isQuotableName name = true then .ok ⟨name, true, h, by simp⟩
  else .error (.invalidIdentifier name)

/-- The text between the quotation marks at both ends of a text, if it has them. -/
def inner? : Text → Option Text
  | '"' :: c :: rest =>
    if (c :: rest).getLast? = some Text.quotation then some ((c :: rest).dropLast) else none
  | _ => none

/-- The identifier of a written form. Between quotation marks only name characters and pairs of
quotation marks may stand; without them the text is a name. -/
def ofWritten (text : Text) : Except Error Identifier :=
  match inner? text with
  | some inner =>
    if Text.isQuotedShape inner then ofName (Text.undoubled Text.quotation inner) true
    else .error (.invalidIdentifier text)
  | none => ofName text false

end Identifier

/-- A name as a caller gives it: plain text, or an identifier made before. -/
inductive Name
  | text (value : Text)
  | identifier (value : Identifier)

/-- The identifier that a given name stands for. -/
def Name.resolve : Name → Except Error Identifier
  | text value => Identifier.ofName value false
  | identifier value => .ok value

/-- The name given as one argument, or as a keyspace and a name. The keyspace may be left out also
where the name stands second; the name may not be left out. -/
def QualifiedName.ofNames : Option Name → Option Name → Except Error QualifiedName
  | none, none => .error (.invalidSpecification .noName)
  | some name, none => do return ⟨none, ← name.resolve⟩
  | none, some name => do return ⟨none, ← name.resolve⟩
  | some keyspace, some name => do return ⟨some (← keyspace.resolve), ← name.resolve⟩

end CqlDdl
