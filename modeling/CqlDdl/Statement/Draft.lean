import CqlDdl.Index.Draft
import CqlDdl.Keyspace.Draft
import CqlDdl.Statement
import CqlDdl.Table.Draft
import CqlDdl.UserType.Draft

/-! Statements under construction, of all kinds alike: a draft is started, changed by requests that
may fail and then leave it as it was, and built at any time. -/

namespace CqlDdl

/-- What a statement of a kind is before it is complete. -/
abbrev Draft : StatementKind → Type
  | .createKeyspace => CreateKeyspace
  | .alterKeyspace => AlterKeyspace
  | .dropKeyspace => DropKeyspace
  | .createTable => CreateTable
  | .alterTable => AlterTable
  | .dropTable => DropTable
  | .createIndex => IndexDraft
  | .dropIndex => DropIndex
  | .createUserType => CreateUserType
  | .alterUserType => AlterUserType
  | .dropUserType => DropUserType

namespace Draft

/-- A request to change a draft of a kind. -/
abbrev Edit : StatementKind → Type
  | .createKeyspace => CreateKeyspace.Edit
  | .alterKeyspace => AlterKeyspace.Edit
  | .dropKeyspace => DropKeyspace.Edit
  | .createTable => CreateTable.Edit
  | .alterTable => AlterTable.Edit
  | .dropTable => DropTable.Edit
  | .createIndex => IndexDraft.Edit
  | .dropIndex => DropIndex.Edit
  | .createUserType => CreateUserType.Edit
  | .alterUserType => AlterUserType.Edit
  | .dropUserType => DropUserType.Edit

/-- The start of a draft from one name that has to be there. -/
def named {α : Type} (start : Name → Except Error α) : Option Name → Except Error α
  | some name => start name
  | none => .error (.invalidSpecification .noName)

/-- A draft that has only its name. A keyspace has one name; anything else may have two, of which
the first is that of its keyspace. -/
def start : (kind : StatementKind) → Option Name → Option Name → Except Error (Draft kind)
  | .createKeyspace, name, _ => named CreateKeyspace.start name
  | .alterKeyspace, name, _ => named AlterKeyspace.start name
  | .dropKeyspace, name, _ => named DropKeyspace.start name
  | .createTable, first, second => CreateTable.start first second
  | .alterTable, first, second => AlterTable.start first second
  | .dropTable, first, second => DropTable.start first second
  | .createIndex, first, second => IndexDraft.start first second
  | .dropIndex, first, second => DropIndex.start first second
  | .createUserType, first, second => CreateUserType.start first second
  | .alterUserType, first, second => AlterUserType.start first second
  | .dropUserType, first, second => DropUserType.start first second

/-- The draft after a request, or why the request fails. -/
def apply : {kind : StatementKind} → Draft kind → Edit kind → Except Error (Draft kind)
  | .createKeyspace, draft, edit => CreateKeyspace.apply draft edit
  | .alterKeyspace, draft, edit => AlterKeyspace.apply draft edit
  | .dropKeyspace, draft, edit => .ok (DropKeyspace.apply draft edit)
  | .createTable, draft, edit => CreateTable.apply draft edit
  | .alterTable, draft, edit => AlterTable.apply draft edit
  | .dropTable, draft, edit => .ok (DropTable.apply draft edit)
  | .createIndex, draft, edit => IndexDraft.apply draft edit
  | .dropIndex, draft, edit => .ok (DropIndex.apply draft edit)
  | .createUserType, draft, edit => CreateUserType.apply draft edit
  | .alterUserType, draft, edit => AlterUserType.apply draft edit
  | .dropUserType, draft, edit => .ok (DropUserType.apply draft edit)

/-- The statement that a draft describes, if it is complete. -/
def build : {kind : StatementKind} → Draft kind → Except Error Statement
  | .createKeyspace, draft => .ok (.createKeyspace draft)
  | .alterKeyspace, draft => (AlterKeyspace.build draft).map .alterKeyspace
  | .dropKeyspace, draft => .ok (.dropKeyspace draft)
  | .createTable, draft => (CreateTable.build draft).map .createTable
  | .alterTable, draft => (AlterTable.build draft).map .alterTable
  | .dropTable, draft => .ok (.dropTable draft)
  | .createIndex, draft => (IndexDraft.build draft).map .createIndex
  | .dropIndex, draft => .ok (.dropIndex draft)
  | .createUserType, draft => (CreateUserType.build draft).map .createUserType
  | .alterUserType, draft => (AlterUserType.build draft).map .alterUserType
  | .dropUserType, draft => .ok (.dropUserType draft)

/-- The draft after a request; one that fails leaves it as it was. -/
def attempt {kind : StatementKind} (draft : Draft kind) (edit : Edit kind) : Draft kind :=
  match draft.apply edit with
  | .ok next => next
  | .error _ => draft

/-- The draft after requests, one after another. -/
def run {kind : StatementKind} (draft : Draft kind) (edits : List (Edit kind)) : Draft kind :=
  edits.foldl attempt draft

/-- The statement described by a draft that is started and changed by requests none of which may
fail. -/
def complete (kind : StatementKind) (first second : Option Name) (edits : List (Edit kind)) :
    Except Error Statement := do
  let draft ← start kind first second
  (← edits.foldlM apply draft).build

end Draft

end CqlDdl
