import CqlDdl.Log
import CqlDdl.Statement

/-! Execution of statements by something that understands their text and may fail. Statements are
sent one after another, and the first failure ends the run. -/

namespace CqlDdl

namespace Specification

/-- What is logged when the text of a statement is made. -/
def renderLog : Specification → List LogEntry
  | statement s =>
    match s.render with
    | .ok text =>
      [.make "generator".toList "generated %s: %s".toList [s.kind.word, text]]
    | .error _ => []
  | unknown _ => []

end Specification

/-- What statements are sent to: whether it fails at a statement, and with what message, may depend
on all statements that it got before. -/
abbrev Executor := List Text → Text → Option Text

/-- Why an execution fails. -/
inductive ExecutionError
  | generation (error : Error)
  | executor (message : Text)
deriving DecidableEq

/-- What has happened so far: the statements that the executor got, and the log. -/
structure Session where
  sent : List Text := []
  log : List LogEntry := []
deriving DecidableEq

namespace Session

/-- The session after more entries to its log. -/
def logged (session : Session) (entries : List LogEntry) : Session :=
  { session with log := session.log ++ entries }

/-- The session after a statement was sent. -/
def sending (session : Session) (text : Text) : Session :=
  { session with sent := session.sent ++ [text] }

/-- An entry on the channel for executions. -/
def entry (template : Text) (arguments : List Text) : LogEntry :=
  .make "admin".toList template arguments

/-- The entry for a statement that failed. -/
def failureEntry (text message : Text) : LogEntry :=
  ⟨LogEntry.channelOf "admin:error".toList, "statement failed: %s %O".toList,
    [.text text, .failure message]⟩

/-- Makes the text of a statement and, unless it is a dry run, sends it. Nothing is sent for a
specification without a statement. -/
def execute (dryRun : Bool) (executor : Executor) (session : Session) (spec : Specification) :
    Except ExecutionError Text × Session :=
  match spec.render with
  | .error e => (.error (.generation e), session)
  | .ok text =>
    let session := session.logged spec.renderLog
    if dryRun then
      (.ok text, session.logged [entry "dry run, not executing: %s".toList [text]])
    else
      let before := session.sent
      let session := (session.logged [entry "executing: %s".toList [text]]).sending text
      match executor before text with
      | none => (.ok text, session)
      | some message =>
        (.error (.executor message), session.logged [failureEntry text message])

/-- Executes specifications one after another, up to the first failure. -/
def executeAll (dryRun : Bool) (executor : Executor) (session : Session) :
    List Specification → Except ExecutionError (List Text) × Session
  | [] => (.ok [], session)
  | spec :: rest =>
    match execute dryRun executor session spec with
    | (.error e, session) => (.error e, session)
    | (.ok text, session) =>
      match executeAll dryRun executor session rest with
      | (.error e, session) => (.error e, session)
      | (.ok texts, session) => (.ok (text :: texts), session)

end Session

/-- A rule by which an executor fails: at statements with a certain start, with a message. -/
structure FailureRule where
  start : Text
  message : Text
deriving DecidableEq, Repr

/-- The executor that fails by the first of its rules that a statement meets. -/
def Executor.ofRules (rules : List FailureRule) : Executor := fun _ text =>
  (rules.find? fun rule => rule.start.isPrefixOf text).map FailureRule.message

end CqlDdl
