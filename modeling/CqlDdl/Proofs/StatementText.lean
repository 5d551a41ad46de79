import CqlDdl.Proofs.OptionMap
import CqlDdl.Proofs.RenameRuns

/-! The texts of statements, written out. Writing a statement can fail; where it does not, the text
is made of parts one blank apart, whatever the kind, and each option is the clause that its value
asks for. Main statement: `Statement.eq_text_of_render`. -/

namespace CqlDdl

/-! ### Options -/

theorem OptionKey.eq_mark_of_write {key : OptionKey} {value : OptionValue} {text : Text}
    (hnull : value ≠ .null) (h : key.write value = .ok text) : text = key.mark value.render := by
  rw [write_of_ne_null hnull] at h
  obtain ⟨⟨⟩, -, rfl⟩ := Outcome.map_eq_ok_iff.mp h
  rfl

namespace OptionMap

/-- The text of an entry inside a map: a literal of its name, and its value, if it has one. -/
def writtenEntry (entry : OptionKey × OptionValue) : Text :=
  Text.literal entry.1.name ++ " : ".toList ++
    match entry.2 with
    | .null => []
    | value => entry.1.mark value.render

/-- The text of a map, which is empty for an empty one. -/
def writtenMap (entries : OptionMap) : Text :=
  if entries.isEmpty then []
  else "\x7b ".toList ++ Text.joined ", ".toList (entries.map writtenEntry) ++ " \x7d".toList

/-- The clause of an option: the bare name of one that has no value, and otherwise the name, an
equals sign and the value. -/
def writtenClause (entry : OptionKey × OptionValue) : Text :=
  match entry.2 with
  | .null => entry.1.name
  | .map entries => entry.1.name ++ " = ".toList ++ writtenMap entries
  | value => entry.1.name ++ " = ".toList ++ entry.1.mark value.render

theorem eq_writtenEntry_of_renderEntry {entry : OptionKey × OptionValue} {text : Text}
    (h : renderEntry entry = .ok text) : text = writtenEntry entry := by
  obtain ⟨key, value⟩ := entry
  obtain ⟨written, hwritten, rfl⟩ := Outcome.map_eq_ok_iff.mp h
  cases value with
  | null =>
    obtain rfl : [] = written := Except.ok.inj hwritten
    rfl
  | absent | scalar | map =>
    obtain rfl := OptionKey.eq_mark_of_write (by simp) hwritten
    rfl

theorem eq_writtenMap_of_render {entries : OptionMap} {text : Text}
    (h : entries.render = .ok text) : text = writtenMap entries := by
  unfold render at h
  unfold writtenMap
  split at h
  · rename_i hempty
    rw [if_pos hempty]
    exact (Except.ok.inj h).symm
  · rename_i hsome
    obtain ⟨parts, hparts, rfl⟩ := Outcome.map_eq_ok_iff.mp h
    rw [if_neg hsome,
      Entries.eq_map_of_traverse (fun _ _ => eq_writtenEntry_of_renderEntry) hparts]

theorem eq_writtenClause_of_clause {entry : OptionKey × OptionValue} {text : Text}
    (h : clause entry = .ok text) : text = writtenClause entry := by
  obtain ⟨key, value⟩ := entry
  cases value with
  | null => exact (Except.ok.inj h).symm
  | absent | scalar =>
    obtain ⟨written, hwritten, rfl⟩ := Outcome.map_eq_ok_iff.mp h
    obtain rfl := OptionKey.eq_mark_of_write (by simp) hwritten
    rfl
  | map entries =>
    simp only [clause] at h
    split at h
    · simp at h
    · obtain ⟨written, hwritten, rfl⟩ := Outcome.map_eq_ok_iff.mp h
      obtain rfl := eq_writtenMap_of_render hwritten
      rfl

theorem eq_map_of_clauses {options : OptionMap} {texts : List Text}
    (h : options.clauses = .ok texts) : texts = options.map writtenClause :=
  Entries.eq_map_of_traverse (fun _ _ => eq_writtenClause_of_clause) h

end OptionMap

/-! ### Parts -/

/-- A part that stands only where a flag asks for it. -/
def flagged (flag : Bool) (part : Text) : List Text :=
  if flag then [part] else []

/-- The parts that list clauses, if there are any. -/
def withParts (clauses : List Text) : List Text :=
  if clauses.isEmpty then [] else ["WITH".toList, Text.joined " AND ".toList clauses]

theorem joined_blank_cons (part : Text) (rest : List Text) :
    Text.joined [' '] (part :: rest) = part ++ rest.flatMap (' ' :: ·) :=
  Text.joined_cons [' '] part rest

theorem joined_flagged_ifNotExists (flag : Bool) (part : Text) (rest : List Text) :
    Text.joined [' '] (flagged flag "IF NOT EXISTS".toList ++ part :: rest) =
      Guard.ifNotExists flag ++ (part ++ rest.flatMap (' ' :: ·)) := by
  cases flag with
  | true => exact joined_blank_cons _ _
  | false => exact joined_blank_cons _ _

theorem joined_flagged_ifExists (flag : Bool) (part : Text) :
    Text.joined [' '] (flagged flag "IF EXISTS".toList ++ [part]) =
      Guard.ifExists flag ++ part := by
  cases flag with
  | true => exact (joined_blank_cons _ _).trans (congrArg _ (List.append_nil _))
  | false => exact (joined_blank_cons _ _).trans (List.append_nil _)

theorem flatMap_withParts (clauses : List Text) :
    (withParts clauses).flatMap (' ' :: ·) = withClauses clauses := by
  cases clauses <;> simp [withParts, withClauses]

namespace Statement

/-- The words that open a statement, with the blank after them. -/
def opening : Statement → String
  | createKeyspace _ => "CREATE KEYSPACE "
  | alterKeyspace _ => "ALTER KEYSPACE "
  | dropKeyspace _ => "DROP KEYSPACE "
  | createTable _ => "CREATE TABLE "
  | alterTable _ => "ALTER TABLE "
  | dropTable _ => "DROP TABLE "
  | createIndex s => if s.implementation?.isSome then "CREATE CUSTOM INDEX " else "CREATE INDEX "
  | dropIndex _ => "DROP INDEX "
  | createUserType _ => "CREATE TYPE "
  | alterUserType _ => "ALTER TYPE "
  | dropUserType _ => "DROP TYPE "

/-- The parts that follow them, one blank apart. -/
def parts : Statement → List Text
  | createKeyspace s => flagged s.ifNotExists "IF NOT EXISTS".toList ++ [s.name.render] ++
      withParts (s.effectiveOptions.map OptionMap.writtenClause)
  | alterKeyspace s => [s.name.render] ++ withParts (s.options.map OptionMap.writtenClause)
  | dropKeyspace s => flagged s.ifExists "IF EXISTS".toList ++ [s.name.render]
  | createTable s => flagged s.ifNotExists "IF NOT EXISTS".toList ++
      [s.name.render, '(' :: (Text.joined ", ".toList (s.columns.map Column.definition ++
        ["PRIMARY KEY (".toList ++ primaryKey s.columns ++ [')']]) ++ [')'])] ++
      withParts ((clusteringOrder? s.columns).toList ++ s.options.map OptionMap.writtenClause)
  | alterTable s => [s.name.render] ++ s.changes.map ColumnChange.render ++
      withParts (s.options.map OptionMap.writtenClause)
  | dropTable s => flagged s.ifExists "IF EXISTS".toList ++ [s.name.render]
  | createIndex s => flagged s.ifNotExists "IF NOT EXISTS".toList ++
      (s.name.map Identifier.render).toList ++
      ["ON".toList, s.tableName.render, '(' :: (s.target ++ [')'])] ++
      (s.implementation?.map fun name => "USING ".toList ++ Text.literal name).toList ++
      flagged (!s.options.isEmpty)
        ("WITH OPTIONS = ".toList ++ CreateIndex.renderOptions s.options)
  | dropIndex s => flagged s.ifExists "IF EXISTS".toList ++ [s.name.render]
  | createUserType s => flagged s.ifNotExists "IF NOT EXISTS".toList ++
      [s.name.render, '(' :: (Text.joined ", ".toList (s.fields.map Column.definition) ++ [')'])]
  | alterUserType s => [s.name.render] ++ (FieldClause.grouped s.changes).map FieldClause.render
  | dropUserType s => flagged s.ifExists "IF EXISTS".toList ++ [s.name.render]

/-- The text of a statement that can be written. -/
def text (s : Statement) : Text :=
  s.opening.toList ++ Text.joined [' '] s.parts ++ [';']

/-- A statement that is written has the text that its parts make. -/
theorem eq_text_of_render {s : Statement} {text : Text} (h : s.render = .ok text) :
    text = s.text := by
  cases s with
  | createKeyspace s =>
    obtain ⟨clauses, hclauses, rfl⟩ := Outcome.map_eq_ok_iff.mp h
    obtain rfl := OptionMap.eq_map_of_clauses hclauses
    simp only [Statement.text, opening, parts, List.append_assoc, List.cons_append,
      List.nil_append, joined_flagged_ifNotExists, flatMap_withParts]
  | alterKeyspace s =>
    obtain ⟨clauses, hclauses, rfl⟩ := Outcome.map_eq_ok_iff.mp h
    obtain rfl := OptionMap.eq_map_of_clauses hclauses
    simp only [Statement.text, opening, parts, List.append_assoc, List.cons_append,
      List.nil_append, joined_blank_cons, flatMap_withParts]
  | dropKeyspace s | dropTable s | dropIndex s | dropUserType s =>
    obtain rfl := Except.ok.inj h
    simp only [Statement.text, opening, parts, joined_flagged_ifExists]
    exact congrArg (· ++ [';']) (List.append_assoc _ _ _)
  | createTable s =>
    simp only [render, CreateTable.render] at h
    split at h
    · obtain ⟨clauses, hclauses, rfl⟩ := Outcome.map_eq_ok_iff.mp h
      obtain rfl := OptionMap.eq_map_of_clauses hclauses
      unfold CreateTable.text CreateTable.definitions
      rw [show " (".toList = [' ', '('] from rfl]
      simp only [Statement.text, opening, parts, List.append_assoc, List.cons_append,
        List.nil_append, joined_flagged_ifNotExists, List.flatMap_cons, flatMap_withParts]
    · simp at h
  | alterTable s =>
    simp only [render, AlterTable.render] at h
    split at h
    · simp at h
    split at h
    · simp at h
    · obtain ⟨clauses, hclauses, rfl⟩ := Outcome.map_eq_ok_iff.mp h
      obtain rfl := OptionMap.eq_map_of_clauses hclauses
      unfold AlterTable.text AlterTable.changesText
      simp only [Statement.text, opening, parts, List.append_assoc, List.cons_append,
        List.nil_append, joined_blank_cons, List.flatMap_append, List.flatMap_map,
        flatMap_withParts]
  | createIndex s =>
    obtain rfl := Except.ok.inj h
    unfold CreateIndex.render CreateIndex.parts
    simp only [Statement.text, opening, parts, flagged]
    cases s.implementation? <;> cases s.name <;> cases s.ifNotExists <;> cases s.options <;>
      simp [joined_blank_cons]
  | createUserType s =>
    simp only [render, CreateUserType.render] at h
    split at h
    · simp at h
    · obtain rfl := Except.ok.inj h
      rw [show " (".toList = [' ', '('] from rfl, show ");".toList = [')', ';'] from rfl]
      simp only [Statement.text, opening, parts, List.append_assoc, List.cons_append,
        List.nil_append, joined_flagged_ifNotExists, List.flatMap_cons, List.flatMap_nil]
  | alterUserType s =>
    obtain rfl := AlterUserType.text_of_render h
    have hclauses : AlterUserType.clausesAfter none s.changes =
        (FieldClause.grouped s.changes).flatMap fun clause => ' ' :: clause.render :=
      (FieldClause.clausesAfter_eq_textAfter _ _).trans (FieldClause.textAfter_false _)
    unfold AlterUserType.text
    simp only [Statement.text, opening, parts, hclauses, List.append_assoc,
      List.cons_append, List.nil_append, joined_blank_cons, List.flatMap_map]

end Statement

end CqlDdl
