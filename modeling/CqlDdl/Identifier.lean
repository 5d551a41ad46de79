import CqlDdl.Text.Grammar
import CqlDdl.Keyword

/-! Identifiers: names of keyspaces, tables, columns, indexes, types and fields, each with the
choice between its bare and its quoted form. A bare form is never a reserved word. -/

namespace CqlDdl

/-- Whether a name can be written as it is: the shape of a bare name and no reserved word. -/
def isBareName (name : Text) : Bool :=
  Text.isBareShape name && !Keyword.isReserved name

/-- Whether a name can be written between quotation marks, those inside it doubled. -/
def isQuotableName (name : Text) : Bool :=
  Text.isQuotedShape (Text.doubled Text.quotation name)

theorem Text.isNamePart_ne_quotation {c : Char} (h : isNamePart c = true) : c ≠ quotation := by
  rintro rfl
  exact absurd h (by decide)

theorem Text.isNamePart_of_isNameStart {c : Char} (h : isNameStart c = true) :
    isNamePart c = true := by
  simp only [isNameStart, Bool.or_eq_true, beq_iff_eq] at h
  rcases h with h | rfl
  · simp [isNamePart, Char.isAlphanum, h]
  · decide

/-- Name characters stay as they are when quotation marks are doubled. -/
theorem Text.doubled_eq_self {text : Text} (h : ∀ c ∈ text, isNamePart c = true) :
    doubled quotation text = text :=
  doubled_of_not_mem fun hq => isNamePart_ne_quotation (h _ hq) rfl

theorem Text.isQuotedRest_of_isNamePart {text : Text} (h : ∀ c ∈ text, isNamePart c = true) :
    isQuotedRest text = true := by
  induction text with
  | nil => rfl
  | cons c rest ih =>
    have hc := h c (by simp)
    have hq := isNamePart_ne_quotation hc
    have hrest := ih fun d hd => h d (by simp [hd])
    unfold isQuotedRest
    split
    · rfl
    · rename_i heq
      exact absurd (List.cons.inj heq).1 hq
    · rename_i heq
      obtain ⟨rfl, rfl⟩ := List.cons.inj heq
      simp [hc, hrest]

/-- A name that can be written bare can be written quoted. -/
theorem isQuotableName_of_isBareName {name : Text} (h : isBareName name = true) :
    isQuotableName name = true := by
  cases name with
  | nil => simp [isBareName, Text.isBareShape] at h
  | cons c rest =>
    simp only [isBareName, Text.isBareShape, Bool.and_eq_true, List.all_eq_true] at h
    obtain ⟨⟨hc, hrest⟩, -⟩ := h
    have hall : ∀ d ∈ c :: rest, Text.isNamePart d = true := by
      intro d hd
      rcases List.mem_cons.mp hd with rfl | hd
      · exact Text.isNamePart_of_isNameStart hc
      · exact hrest d hd
    rw [isQuotableName, Text.doubled_eq_self hall]
    simp [Text.isQuotedShape, hc, Text.isQuotedRest_of_isNamePart hrest]

/-- A name together with the choice of its written form. -/
structure Identifier where
  /-- The name itself, without quotation marks around it or doubled ones in it. -/
  name : Text
  /-- Whether the written form stands between quotation marks. -/
  quoted : Bool
  quotable : isQuotableName name = true
  bare : quoted = false → isBareName name = true
deriving DecidableEq

namespace Identifier

/-- The written form: the bare name, or the name between quotation marks with those inside it
doubled. -/
def render (i : Identifier) : Text :=
  if i.quoted then Text.enclosed Text.quotation (Text.doubled Text.quotation i.name) else i.name

/-- The name by which the database knows the identifier: case counts only in the quoted form. -/
def canonicalName (i : Identifier) : Text :=
  if i.quoted then i.name else Text.lowered i.name

/-- Two identifiers are the same when their names and their forms are. -/
theorem eq_iff {a b : Identifier} : a = b ↔ a.name = b.name ∧ a.quoted = b.quoted := by
  cases a
  cases b
  simp

end Identifier

/-- The name of a table, index or type, with the keyspace it belongs to where that is given. -/
structure QualifiedName where
  keyspace : Option Identifier
  name : Identifier
deriving DecidableEq

/-- The name after its keyspace and a point, or the name alone. -/
def QualifiedName.render (n : QualifiedName) : Text :=
  match n.keyspace with
  | some keyspace => keyspace.render ++ '.' :: n.name.render
  | none => n.name.render

end CqlDdl
