import CqlDdl.Configuration.Issue
import CqlDdl.Options.ValueType

/-! The ways in which building or writing a statement fails. An error holds its cause; its wording
is a function of the cause. -/

namespace CqlDdl

/-- The codes that errors carry. -/
inductive ErrorCode
  | invalidIdentifier | invalidSpecification | illegalOption | unsupportedSpecification
deriving DecidableEq, Repr

namespace ErrorCode

def text : ErrorCode → Text
  | invalidIdentifier => "INVALID_IDENTIFIER".toList
  | invalidSpecification => "INVALID_SPECIFICATION".toList
  | illegalOption => "ILLEGAL_OPTION".toList
  | unsupportedSpecification => "UNSUPPORTED_SPECIFICATION".toList

def all : List ErrorCode :=
  [invalidIdentifier, invalidSpecification, illegalOption, unsupportedSpecification]

end ErrorCode

/-- What declares columns or fields, and may declare one name twice. -/
inductive Owner
  | table (name : QualifiedName)
  | userType (name : QualifiedName)
deriving DecidableEq

/-- What declares the names, as messages tell it. -/
def Owner.describe : Owner → Text
  | table name => "Table ".toList ++ name.render
  | userType name => "User type ".toList ++ name.render

/-- What is wrong with the parts of a statement. -/
inductive Fault
  | noName
  | blankOptionName
  | valueNotTaken (option : Text)
  | valueRequired (option : Text)
  | valueOfWrongType (option : Text) (type : ValueType)
  | noColumns (table : QualifiedName)
  | noPartitionKey (table : QualifiedName)
  | noFields (userType : QualifiedName)
  | repeatedName (owner : Owner) (name : Identifier)
  | keyspaceUnchanged (keyspace : Identifier)
  | tableUnchanged (table : QualifiedName)
  | userTypeUnchanged (userType : QualifiedName)
  | noIndexTable
  | noIndexColumn
  | indexOptionsWithoutClass
  | noDataType (column : Identifier)
  | badConfiguration (issues : List Configuration.Issue)
  | other (message : Text)
deriving DecidableEq

/-- The message that tells a fault. -/
def Fault.message : Fault → Text
  | noName => "Name must not be empty".toList
  | blankOptionName => "Option name must not be empty".toList
  | valueNotTaken option => "Option [".toList ++ option ++ "] takes no value".toList
  | valueRequired option => "Option [".toList ++ option ++ "] requires a value".toList
  | valueOfWrongType option type =>
    "Option [".toList ++ option ++ "] takes value coercible to type [".toList ++ type.word ++ [']']
  | noColumns table => (Owner.table table).describe ++ " must declare at least one column".toList
  | noPartitionKey table =>
    (Owner.table table).describe ++ " must declare at least one partition key column".toList
  | noFields userType =>
    (Owner.userType userType).describe ++ " must declare at least one field".toList
  | repeatedName owner name =>
    owner.describe ++ " declares ".toList ++ name.render ++ " more than once".toList
  | keyspaceUnchanged keyspace =>
    "ALTER KEYSPACE ".toList ++ keyspace.render ++ " requires at least one option".toList
  | tableUnchanged table =>
    "ALTER TABLE ".toList ++ table.render ++ " requires at least one change or option".toList
  | userTypeUnchanged userType =>
    "ALTER TYPE ".toList ++ userType.render ++ " requires at least one change".toList
  | noIndexTable => "CREATE INDEX requires a table name".toList
  | noIndexColumn => "CREATE INDEX requires a column name".toList
  | indexOptionsWithoutClass => "Index options are only supported on custom indexes".toList
  | noDataType column => "Column ".toList ++ column.render ++ " has no data type".toList
  | badConfiguration issues =>
    "Invalid keyspace configuration: ".toList ++
      Text.joined "; ".toList (issues.map Configuration.Issue.message)
  | other message => message

/-- Why building or writing a statement fails. -/
inductive Error
  /-- A failure of no particular kind, with a message and a code of its own. -/
  | general (message : Text) (code : ErrorCode)
  /-- A text that is neither a bare nor a quoted name. -/
  | invalidIdentifier (text : Text)
  /-- A statement, or an option of it, whose parts do not make a whole. -/
  | invalidSpecification (fault : Fault)
  /-- An option that the statement must not have. -/
  | illegalOption (option statement : Text)
  /-- Something that specifies no statement. -/
  | unsupportedSpecification (description : Text)
deriving DecidableEq

namespace Error

/-- The name of the kind of an error. -/
def kind : Error → Text
  | general .. => "CqlSchemaError".toList
  | invalidIdentifier _ => "InvalidIdentifierError".toList
  | invalidSpecification _ => "SpecificationValidationError".toList
  | illegalOption .. => "IllegalOptionError".toList
  | unsupportedSpecification _ => "UnsupportedSpecificationError".toList

/-- The code that an error carries. -/
def code : Error → ErrorCode
  | general _ code => code
  | invalidIdentifier _ => .invalidIdentifier
  | invalidSpecification _ => .invalidSpecification
  | illegalOption .. => .illegalOption
  | unsupportedSpecification _ => .unsupportedSpecification

/-- The message that tells an error. -/
def message : Error → Text
  | general message _ => message
  | invalidIdentifier text =>
    "Given string [".toList ++ text ++ "] is not a valid quoted or unquoted identifier".toList
  | invalidSpecification fault => fault.message
  | illegalOption option statement =>
    "Option [".toList ++ option ++ "] is not allowed in ".toList ++ statement
  | unsupportedSpecification description => "Unsupported specification: ".toList ++ description

/-- An error on one line: its kind, and after it the message if there is one. -/
def summary (e : Error) : Text :=
  if e.message.isEmpty then e.kind else e.kind ++ ": ".toList ++ e.message

end Error

end CqlDdl
