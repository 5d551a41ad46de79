import Mathlib.Data.List.Basic
import CqlDdl.Proofs.TypeText
import CqlDdl.Statement

/-! The text of a statement that alters a table or a user type determines the changes, options of
tables aside. Each change is read off up to the next one: its word, which differs from kind to kind,
then a name, which ends at a blank, then a type or another name. A rename of a field that follows a
rename goes on with another word, which its predecessor tells. Main statement:
`alterations_of_render_eq`. -/

namespace CqlDdl

open Text (EndsName endsName_blank)

/-- What the text of a statement shows of a change: its kind, the name, and the text of the type or
the other name. -/
inductive ShownChange
  | add (name : Identifier) (type : Text)
  | drop (name : Identifier)
  | alter (name : Identifier) (type : Text)
  | rename (name target : Identifier)
deriving DecidableEq

def ColumnChange.shown : ColumnChange → ShownChange
  | add name type => .add name type.render
  | drop name => .drop name
  | alter name type => .alter name type.render
  | rename name target => .rename name target

def FieldChange.shown (change : FieldChange) : ShownChange :=
  change.toColumnChange.shown

/-! ### One change -/

namespace ColumnChange

/-- The word that tells the kind of a change. A rename may go on with the clause of another one. -/
def word (continued : Bool) : ColumnChange → Text
  | add .. => "ADD".toList
  | drop _ => "DROP".toList
  | alter .. => "ALTER".toList
  | rename .. => if continued then "AND".toList else "RENAME".toList

/-- What stands after the word. -/
def body : ColumnChange → Text
  | add name type => name.render ++ ' ' :: type.render
  | drop name => name.render
  | alter name type => name.render ++ ' ' :: ("TYPE ".toList ++ type.render)
  | rename name target => name.render ++ ' ' :: ("TO ".toList ++ target.render)

def clause (continued : Bool) (change : ColumnChange) : Text :=
  change.word continued ++ ' ' :: change.body

theorem render_eq_clause (change : ColumnChange) : change.render = change.clause false := by
  cases change <;> simp [clause, word, body]

end ColumnChange

theorem FieldChange.clauseAfter_eq_clause (change : FieldChange) (previous : Option Kind) :
    change.clauseAfter previous = change.toColumnChange.clause (previous = some .rename) := by
  cases change with
  | add name type | alter name type =>
    simp [toColumnChange, ColumnChange.clause, ColumnChange.word, ColumnChange.body]
  | rename name target =>
    by_cases h : previous = some .rename <;>
      simp [h, toColumnChange, ColumnChange.clause, ColumnChange.word, ColumnChange.body]

theorem FieldChange.kind_eq_of_shown_eq {a b : FieldChange} (h : a.shown = b.shown) :
    a.kind = b.kind := by
  cases a <;> cases b <;> simp_all [shown, toColumnChange, ColumnChange.shown, kind]

/-- What ends a clause: the blank before the next one, or the end of the statement. -/
def EndsClause (rest : Text) : Prop :=
  ∃ more, rest = ' ' :: more ∨ rest = ';' :: more

namespace EndsClause

variable {rest : Text}

theorem endsName (h : EndsClause rest) : EndsName rest := by
  obtain ⟨more, rfl | rfl⟩ := h
  · exact endsName_blank more
  · exact Text.endsName_cons more (by decide)

theorem endsType (h : EndsClause rest) : DataType.Ends rest := by
  obtain ⟨more, rfl | rfl⟩ := h
  · exact DataType.ends_cons more (by decide)
  · exact DataType.ends_cons more (by decide)

theorem endsQualifiedName (h : EndsClause rest) : QualifiedName.Ends rest := by
  refine ⟨h.endsName, ?_⟩
  obtain ⟨more, rfl | rfl⟩ := h <;> simp

end EndsClause

/-- A name ends at a blank; the text between the blank and what is compared next is the same. -/
theorem name_append_inj {i j : Identifier} {between r s : Text}
    (h : i.render ++ ' ' :: (between ++ r) = j.render ++ ' ' :: (between ++ s)) :
    i = j ∧ r = s := by
  obtain ⟨hname, hrest⟩ := Identifier.separates_render (endsName_blank _) (endsName_blank _) h
  exact ⟨hname, List.append_cancel_left (List.cons.inj hrest).2⟩

namespace ColumnChange

theorem isNamePart_of_mem_word (continued : Bool) (change : ColumnChange) :
    ∀ c ∈ change.word continued, Text.isNamePart c = true := by
  refine List.all_eq_true.mp ?_
  cases change <;> cases continued <;> rfl

theorem word_append_inj {continued : Bool} {a b : ColumnChange} {r s : Text}
    (h : a.clause continued ++ r = b.clause continued ++ s) :
    a.word continued = b.word continued ∧ a.body ++ r = b.body ++ s := by
  have hblank : ∀ t : Text, ∀ c, (' ' :: t).head? = some c → Text.isNamePart c = false :=
    Text.forall_head?_cons (by decide)
  simp only [clause, List.append_assoc, List.cons_append] at h
  obtain ⟨hword, hbody⟩ := Text.append_inj_of_forall (a.isNamePart_of_mem_word continued)
    (b.isNamePart_of_mem_word continued) (hblank _) (hblank _) h
  exact ⟨hword, (List.cons.inj hbody).2⟩

theorem separates_clause (continued : Bool) :
    Text.Separates (clause continued) shown EndsClause := by
  intro a b r s hr hs h
  obtain ⟨hword, hbody⟩ := word_append_inj h
  -- The words tell the kinds apart, also the word with which a rename goes on.
  cases a with
  | add name type =>
    cases b with
    | add other kind =>
      have hparts : name.render ++ ' ' :: (type.render ++ r) =
          other.render ++ ' ' :: (kind.render ++ s) := by simpa [body] using hbody
      obtain ⟨hname, htail⟩ :=
        Identifier.separates_render (endsName_blank _) (endsName_blank _) hparts
      obtain ⟨htype, hrest⟩ :=
        DataType.separates_render hr.endsType hs.endsType (List.cons.inj htail).2
      exact ⟨congrArg₂ ShownChange.add hname htype, hrest⟩
    | drop | alter | rename => cases continued <;> simp [word] at hword
  | drop name =>
    cases b with
    | drop other =>
      obtain ⟨hname, hrest⟩ := Identifier.separates_render hr.endsName hs.endsName hbody
      exact ⟨congrArg ShownChange.drop hname, hrest⟩
    | add | alter | rename => cases continued <;> simp [word] at hword
  | alter name type =>
    cases b with
    | alter other kind =>
      have hparts : name.render ++ ' ' :: ("TYPE ".toList ++ (type.render ++ r)) =
          other.render ++ ' ' :: ("TYPE ".toList ++ (kind.render ++ s)) := by
        simpa [body] using hbody
      obtain ⟨hname, htail⟩ := name_append_inj hparts
      obtain ⟨htype, hrest⟩ := DataType.separates_render hr.endsType hs.endsType htail
      exact ⟨congrArg₂ ShownChange.alter hname htype, hrest⟩
    | add | drop | rename => cases continued <;> simp [word] at hword
  | rename name target =>
    cases b with
    | rename other goal =>
      have hparts : name.render ++ ' ' :: ("TO ".toList ++ (target.render ++ r)) =
          other.render ++ ' ' :: ("TO ".toList ++ (goal.render ++ s)) := by
        simpa [body] using hbody
      obtain ⟨hname, htail⟩ := name_append_inj hparts
      obtain ⟨htarget, hrest⟩ := Identifier.separates_render hr.endsName hs.endsName htail
      exact ⟨congrArg₂ ShownChange.rename hname htarget, hrest⟩
    | add | drop | alter => cases continued <;> simp [word] at hword

end ColumnChange

/-! ### Lists of changes -/

/-- Changes of a table, each after a blank, end where the statement does. -/
theorem AlterTable.changes_append_inj {cs ds : List ColumnChange}
    (h : cs.flatMap (fun change => ' ' :: change.render) ++ [';'] =
      ds.flatMap (fun change => ' ' :: change.render) ++ [';']) :
    cs.map ColumnChange.shown = ds.map ColumnChange.shown := by
  have hclauses : ∀ es : List ColumnChange, es.flatMap (fun change => ' ' :: change.render) =
      es.flatMap ([' '] ++ ·.clause false) := fun es =>
    List.flatMap_congr fun change _ => congrArg (' ' :: ·) change.render_eq_clause
  rw [hclauses, hclauses] at h
  exact (Text.Separates.flatMap (ColumnChange.separates_clause false)
    (fun rest => ⟨rest, .inl rfl⟩) ⟨[], .inr rfl⟩ ⟨[], .inr rfl⟩ (by simp) (by simp) h).1

namespace AlterUserType

/-- The clauses of changes, each after a blank. They come after a change of a kind, or after
none. -/
def clausesAfter (previous : Option FieldChange.Kind) : List FieldChange → Text
  | [] => []
  | change :: rest =>
    ' ' :: (change.clauseAfter previous ++ clausesAfter (some change.kind) rest)

theorem text_foldl (changes : List FieldChange) (progress : Progress) :
    (changes.foldl Progress.append progress).text =
      progress.text ++ clausesAfter progress.previous changes := by
  induction changes generalizing progress with
  | nil => simp [clausesAfter]
  | cons change rest ih => simp [ih, Progress.append, clausesAfter]

theorem endsClause_clausesAfter (previous : Option FieldChange.Kind) (changes : List FieldChange) :
    EndsClause (clausesAfter previous changes ++ [';']) := by
  cases changes with
  | nil => exact ⟨[], .inr rfl⟩
  | cons change rest => exact ⟨_, .inl rfl⟩

/-- Changes of a user type are read off one by one: a change tells with what word the next one goes
on, if both are renames. -/
theorem clausesAfter_inj {previous : Option FieldChange.Kind} {cs ds : List FieldChange}
    (h : clausesAfter previous cs ++ [';'] = clausesAfter previous ds ++ [';']) :
    cs.map FieldChange.shown = ds.map FieldChange.shown := by
  induction cs generalizing previous ds with
  | nil =>
    cases ds with
    | nil => rfl
    | cons d ds => simp [clausesAfter] at h
  | cons c cs ih =>
    cases ds with
    | nil => simp [clausesAfter] at h
    | cons d ds =>
      simp only [clausesAfter, List.cons_append, List.append_assoc, List.cons.injEq, true_and,
        FieldChange.clauseAfter_eq_clause] at h
      obtain ⟨hshown, hrest⟩ := ColumnChange.separates_clause _
        (endsClause_clausesAfter (some c.kind) cs) (endsClause_clausesAfter (some d.kind) ds) h
      -- How the next clause goes on depends on the kind of this one, which is shown.
      have hkind : c.kind = d.kind := FieldChange.kind_eq_of_shown_eq hshown
      rw [hkind] at hrest
      exact List.cons_eq_cons.mpr ⟨hshown, ih hrest⟩

end AlterUserType

/-! ### Whole statements -/

theorem AlterTable.text_nil (s : AlterTable) :
    s.text [] = "ALTER TABLE ".toList ++ (s.name.render ++ (s.changesText ++ [';'])) := by
  unfold AlterTable.text
  simp [withClauses]

theorem AlterTable.text_of_render {s : AlterTable} {text : Text} (hoptions : s.options = [])
    (h : s.render = .ok text) : s.text [] = text := by
  unfold render at h
  rw [hoptions] at h
  split at h
  · simp at h
  split at h
  · simp at h
  · exact Except.ok.inj h

/-- The text of a statement that alters a user type. -/
def AlterUserType.text (s : AlterUserType) : Text :=
  "ALTER TYPE ".toList ++ (s.name.render ++ (clausesAfter none s.changes ++ [';']))

theorem AlterUserType.text_of_render {s : AlterUserType} {text : Text} (h : s.render = .ok text) :
    s.text = text := by
  unfold render at h
  split at h
  · simp at h
  · have htext := Except.ok.inj h
    rw [text_foldl, List.append_assoc] at htext
    exact htext

/-- Two statements that alter a table, without options, or that alter a user type, and that have one
text, alter the same object, and make the same changes to it, as far as their texts go. -/
theorem alterations_of_render_eq :
    (∀ {s t : AlterTable} {text : Text}, s.options = [] → t.options = [] → s.render = .ok text →
      t.render = .ok text →
        s.name = t.name ∧ s.changes.map ColumnChange.shown = t.changes.map ColumnChange.shown) ∧
    ∀ {s t : AlterUserType} {text : Text}, s.render = .ok text → t.render = .ok text →
      s.name = t.name ∧ s.changes.map FieldChange.shown = t.changes.map FieldChange.shown := by
  constructor
  · intro s t text hso hto hs ht
    have htext : s.text [] = t.text [] :=
      (AlterTable.text_of_render hso hs).trans (AlterTable.text_of_render hto ht).symm
    rw [AlterTable.text_nil, AlterTable.text_nil] at htext
    have hends : ∀ u : AlterTable, QualifiedName.Ends (u.changesText ++ [';']) := by
      intro u
      unfold AlterTable.changesText
      cases u.changes with
      | nil => exact EndsClause.endsQualifiedName ⟨[], .inr rfl⟩
      | cons change rest => exact EndsClause.endsQualifiedName ⟨_, .inl rfl⟩
    obtain ⟨hname, hchanges⟩ :=
      QualifiedName.separates_render (hends s) (hends t) (List.append_cancel_left htext)
    exact ⟨hname, AlterTable.changes_append_inj hchanges⟩
  · intro s t text hs ht
    have htext : s.text = t.text :=
      (AlterUserType.text_of_render hs).trans (AlterUserType.text_of_render ht).symm
    obtain ⟨hname, hchanges⟩ := QualifiedName.separates_render
      (AlterUserType.endsClause_clausesAfter none s.changes).endsQualifiedName
      (AlterUserType.endsClause_clausesAfter none t.changes).endsQualifiedName
      (List.append_cancel_left htext)
    exact ⟨hname, AlterUserType.clausesAfter_inj hchanges⟩

/-- A column whose name is a word that changes are written with. -/
def typeName : Identifier := ⟨"TYPE".toList, false, by decide, by decide⟩

/-- A name that is written between marks, since changes of tables start with it. -/
def addName : Identifier := ⟨"ADD".toList, true, by decide, by decide⟩

/-- A name that is written between marks, since a rename of a field may go on with it. -/
def andName : Identifier := ⟨"and".toList, true, by decide, by decide⟩

def AlterTable.wordy (type : DataType) : AlterTable where
  name := ⟨none, typeName⟩
  changes := [.alter typeName type, .rename addName typeName, .drop andName]

def AlterUserType.wordy (type : DataType) : AlterUserType where
  name := ⟨none, typeName⟩
  changes := [.rename typeName andName, .rename andName addName, .alter typeName type]

/-- Where names are words of the statement, and a declared type is written like a native one, the
texts still tell the changes. -/
theorem alterations_wordy :
    let native := DataType.native .timestamp
    let declared := DataType.declared ⟨none, "timestamp".toList, false, by decide, by decide⟩
    let tableText := "ALTER TABLE TYPE ALTER TYPE TYPE timestamp".toList ++
      " RENAME \"ADD\" TO TYPE DROP \"and\";".toList
    let typeText := "ALTER TYPE TYPE RENAME TYPE TO \"and\" AND \"and\" TO \"ADD\"".toList ++
      " ALTER TYPE TYPE timestamp;".toList
    (AlterTable.wordy native).render = .ok tableText ∧
      (AlterTable.wordy declared).render = .ok tableText ∧
      (AlterTable.wordy native).changes.map ColumnChange.shown =
        (AlterTable.wordy declared).changes.map ColumnChange.shown ∧
      (AlterUserType.wordy native).render = .ok typeText ∧
      (AlterUserType.wordy declared).render = .ok typeText ∧
      (AlterUserType.wordy native).changes.map FieldChange.shown =
        (AlterUserType.wordy declared).changes.map FieldChange.shown := by
  intro native declared tableText typeText
  have htable : (AlterTable.wordy native).render = .ok tableText := rfl
  have hother : (AlterTable.wordy declared).render = .ok tableText := rfl
  have htype : (AlterUserType.wordy native).render = .ok typeText := rfl
  have hdeclared : (AlterUserType.wordy declared).render = .ok typeText := rfl
  exact ⟨htable, hother, (alterations_of_render_eq.1 rfl rfl htable hother).2, htype, hdeclared,
    (alterations_of_render_eq.2 htype hdeclared).2⟩

end CqlDdl
