import CqlDdl.Configuration
import CqlDdl.Error
import CqlDdl.Options.Catalogue

/-! Configurations of keyspaces, read from data of unknown structure. Reading goes on after a
problem, so that a failure lists every part of the data that is wrong. -/

namespace CqlDdl

namespace Configuration

/-- What was read from some data, or all that is wrong with it. -/
abbrev Reading (α : Type) := Except (List Issue) α

namespace Reading

/-- Two readings as one; what is wrong with the first stands before what is wrong with the other. -/
def both {α β : Type} : Reading α → Reading β → Reading (α × β)
  | .ok a, .ok b => .ok (a, b)
  | .error issues, .ok _ => .error issues
  | .ok _, .error issues => .error issues
  | .error first, .error second => .error (first ++ second)

/-- One thing is wrong. -/
def fail {α : Type} (path : Path) (problem : Problem) : Reading α :=
  .error [⟨path, problem⟩]

/-- The data has the wrong shape, or is missing. -/
def unexpected {α : Type} (path : Path) (expected : Datum.Shape) (data : Datum) : Reading α :=
  fail path (if data.shape = .absent then .required else .wrongShape expected data.shape)

/-- A text that is not empty. -/
def text (path : Path) : Datum → Reading Text
  | .text value => if value.isEmpty then fail path .emptyText else .ok value
  | data => unexpected path .string data

/-- A truth value. -/
def flag (path : Path) : Datum → Reading Bool
  | .bool value => .ok value
  | data => unexpected path .boolean data

/-- What is wrong with a number that has to be a positive integer. -/
def countIssues (path : Path) (value : Binary64) : List Issue :=
  (if value.isInteger then [] else [⟨path, .notInteger⟩]) ++
    (if value.isPositive then [] else [⟨path, .notPositive⟩])

/-- A positive integer. -/
def count (path : Path) : Datum → Reading Binary64
  | .number value =>
    if value.isNaN then unexpected path .number (.number value)
    else
      match countIssues path value with
      | [] => .ok value
      | issues => .error issues
  | data => unexpected path .number data

/-- One of the actions, by its word. -/
def action (path : Path) : Datum → Reading Action
  | .text word =>
    match Action.all.find? fun a => a.word == word with
    | some a => .ok a
    | none => fail path (.unknownAction word)
  | data => fail path (if data.shape = .absent then .required else .noAction data.shape)

/-- A value where there is one, and the default where there is none. -/
def withDefault {α : Type} (default : α) (read : Datum → Reading α) : Datum → Reading α
  | .absent => .ok default
  | data => read data

/-- A value where there is one. -/
def optional {α : Type} (read : Datum → Reading α) : Datum → Reading (Option α)
  | .absent => .ok none
  | data => (read data).map some

/-- A data center: its name and the number of replicas in it. -/
def dataCenter (path : Path) (data : Datum) : Reading DataCenter :=
  if data.shape = .object then
    let name := "name".toList
    let factor := "replicationFactor".toList
    (both (text (path ++ [.field name]) (data.field name))
        (count (path ++ [.field factor]) (data.field factor))).map
      fun parts => ⟨parts.1, parts.2⟩
  else unexpected path .object data

/-- The elements of a list, the first of which has the position `index`. -/
def dataCentersFrom (path : Path) (index : Nat) : List Datum → Reading (List DataCenter)
  | [] => .ok []
  | data :: rest =>
    (both (dataCenter (path ++ [.index index]) data) (dataCentersFrom path (index + 1) rest)).map
      fun parts => parts.1 :: parts.2

/-- A list of data centers that is not empty. -/
def dataCenters (path : Path) : Datum → Reading (List DataCenter)
  | .array elements =>
    if elements.isEmpty then fail path .emptyList else dataCentersFrom path 0 elements
  | data => unexpected path .array data

/-- The strategy that some data names. -/
def strategy? : Datum → Option ReplicationStrategy
  | .text word =>
    if word = ReplicationStrategy.simple.className then some .simple
    else if word = ReplicationStrategy.networkTopology.className then some .networkTopology
    else none
  | _ => none

/-- A replication: what else is in it depends on the strategy. -/
def replication (path : Path) (data : Datum) : Reading Replication :=
  if data.shape = .object then
    match strategy? (data.field "strategy".toList) with
    | some .simple =>
      let factor := "replicationFactor".toList
      (withDefault (Binary64.ofNat 1) (count (path ++ [.field factor])) (data.field factor)).map
        .simple
    | some .networkTopology =>
      let centers := "dataCenters".toList
      (dataCenters (path ++ [.field centers]) (data.field centers)).map .network
    | none => fail (path ++ [.field "strategy".toList]) .unknownStrategy
  else unexpected path .object data

end Reading

end Configuration

namespace KeyspaceConfiguration

open CqlDdl.Configuration

/-- The configuration that some data holds, or all that is wrong with the data. -/
def reading (data : Datum) : Reading KeyspaceConfiguration :=
  if data.shape = .object then
    let at_ {α : Type} (name : String) (read : Path → Datum → Reading α) : Reading α :=
      read [.field name.toList] (data.field name.toList)
    (Reading.both (at_ "name" Reading.text) <|
      Reading.both (at_ "action" Reading.action) <|
      Reading.both (at_ "ifNotExists" fun path => Reading.withDefault false (Reading.flag path)) <|
      Reading.both (at_ "durableWrites" fun path => Reading.optional (Reading.flag path)) <|
      at_ "replication" fun path => Reading.optional (Reading.replication path)).map
      fun (name, action, ifNotExists, durableWrites, replication) =>
        { name, action, ifNotExists, durableWrites, replication }
  else Reading.unexpected [] .object data

/-- The configuration that some data holds. -/
def read (data : Datum) : Except Error KeyspaceConfiguration :=
  match reading data with
  | .ok configuration => .ok configuration
  | .error issues => .error (.invalidSpecification (.badConfiguration issues))

end KeyspaceConfiguration

end CqlDdl
