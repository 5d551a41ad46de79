import CqlDdl.Datum

/-! What can be wrong with a configuration: a problem at a path into the data. -/

namespace CqlDdl.Configuration

/-- One step into some data: to a field of an object or to an element of an array. -/
inductive PathStep
  | field (name : Text)
  | index (position : Nat)
deriving DecidableEq, Repr

/-- A step as it stands in a path. -/
def PathStep.render : PathStep → Text
  | field name => name
  | index position => Text.ofNat position

/-- The way from a configuration to a part of it. -/
abbrev Path := List PathStep

/-- The steps with points between them; the configuration itself has a name of its own. -/
def Path.render (path : Path) : Text :=
  if path.isEmpty then "(root)".toList else Text.joined ['.'] (path.map PathStep.render)

/-- What is wrong with a part of a configuration. -/
inductive Problem
  | required
  | wrongShape (expected received : Datum.Shape)
  | emptyText
  | emptyList
  | notInteger
  | notPositive
  | noAction (received : Datum.Shape)
  | unknownAction (word : Text)
  | unknownStrategy
deriving DecidableEq, Repr

/-- The actions as messages list them. -/
def actionChoices : Text :=
  "'CREATE' | 'CREATE_DROP' | 'ALTER' | 'NONE'".toList

/-- The replication strategies as messages list them. -/
def strategyChoices : Text :=
  "'SimpleStrategy' | 'NetworkTopologyStrategy'".toList

/-- The message that tells a problem. -/
def Problem.message : Problem → Text
  | required => "Required".toList
  | wrongShape expected received =>
    "Expected ".toList ++ expected.word ++ ", received ".toList ++ received.word
  | emptyText => "String must contain at least 1 character(s)".toList
  | emptyList => "Array must contain at least 1 element(s)".toList
  | notInteger => "Expected integer, received float".toList
  | notPositive => "Number must be greater than 0".toList
  | noAction received =>
    "Expected ".toList ++ actionChoices ++ ", received ".toList ++ received.word
  | unknownAction word =>
    "Invalid enum value. Expected ".toList ++ actionChoices ++ ", received '".toList ++ word ++
      ['\'']
  | unknownStrategy => "Invalid discriminator value. Expected ".toList ++ strategyChoices

/-- A problem and where it is. -/
structure Issue where
  path : Path
  problem : Problem
deriving DecidableEq, Repr

/-- A problem after the path to it. -/
def Issue.message (issue : Issue) : Text :=
  issue.path.render ++ ": ".toList ++ issue.problem.message

end CqlDdl.Configuration
