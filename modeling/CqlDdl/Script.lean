import CqlDdl.Binary64.Decimal
import CqlDdl.Statement
import CqlDdl.Text.Spelling

/-! Migration scripts: a statement under a heading, with the statement that undoes it in a comment,
in a file whose name starts with the version. -/

namespace CqlDdl

/-- How scripts are made. -/
structure ScriptOptions where
  /-- Adds the statement that drops what the script creates, as a comment. -/
  generateDown : Bool := true
  /-- The version of the first script. -/
  startVersion : Binary64 := Binary64.ofNat 1
  /-- The width that versions are filled up to in file names. -/
  versionPadding : Nat := 4

/-- A script that holds one statement. -/
structure Script where
  version : Binary64
  name : Text
  fileName : Text
  content : Text
  kind : StatementKind
  target : Text

namespace Script

/-- The name of the script of a statement: its kind, and what it is about without quotation. -/
def nameOf (s : Statement) : Text :=
  let target := s.target
  let parts := (target.keyspace.map Identifier.name).toList ++ [target.name.name]
  Text.snakeCase s.kind.word ++ '_' :: Text.fileSlug (Text.joined ['_'] parts)

/-- The file name of the script of a version. -/
def fileNameOf (version : Binary64) (name : Text) (padding : Nat) : Text :=
  Text.padded padding version.text ++ '_' :: name ++ ".cql".toList

/-- The lines above the statement of a script. -/
def header (s : Statement) : List Text :=
  ["-- Migration: ".toList ++ Text.heading s.kind.word ++ ' ' :: s.target.render,
    "-- Generated by cql-schema-generator".toList, []]

/-- The lines below the statement: the statement that undoes it, as a comment. -/
def downLines (inverse : Text) : List Text :=
  [[], "-- Down migration".toList, "-- ".toList ++ inverse]

/-- The text of a script: heading, statement and, if it is asked for and exists, the statement that
undoes it. -/
def contentOf (s : Statement) (generateDown : Bool) : Except Error Text := do
  let statement ← s.render
  let down ← if generateDown then (Specification.statement s).inverseText? else .ok none
  let below := match down with
    | some inverse => downLines inverse
    | none => []
  return Text.joined ['\n'] (header s ++ [statement] ++ below)

/-- The script of a statement under a version, or under the first one. -/
def ofStatement (s : Statement) (options : ScriptOptions) (version : Option Binary64) :
    Except Error Script :=
  let version := version.getD options.startVersion
  let name := nameOf s
  (contentOf s options.generateDown).map fun content =>
    { version
      name
      fileName := fileNameOf version name options.versionPadding
      content
      kind := s.kind
      target := s.target.render }

/-- The scripts of statements, the first of which has the place `index` in a series. -/
def seriesFrom (options : ScriptOptions) (index : Nat) : List Statement → Except Error (List Script)
  | [] => .ok []
  | s :: rest =>
    match ofStatement s options (some (options.startVersion + Binary64.ofNat index)) with
    | .error e => .error e
    | .ok script => (seriesFrom options (index + 1) rest).map (script :: ·)

/-- One script for each statement, with versions that count up from the first one. -/
def series (options : ScriptOptions) (statements : List Statement) : Except Error (List Script) :=
  seriesFrom options 0 statements

/-- The folder of scripts where no other is named. -/
def defaultFolder : Text := "migrations".toList

/-- The path of a script in a folder. -/
def path (script : Script) (folder : Text) : Text :=
  folder ++ '/' :: script.fileName

end Script

end CqlDdl
