import CqlDdl.Log.Pattern
import CqlDdl.Log.Template
import CqlDdl.Text.Grammar
import CqlDdl.Text.Parts

/-! Log entries on named channels, and the patterns that choose among channels. -/

namespace CqlDdl

/-- What is logged on a channel: the channel, and the template of a message with its arguments. -/
structure LogEntry where
  channel : Text
  template : Text
  arguments : List TemplateArgument
deriving DecidableEq, Repr

namespace LogEntry

/-- The channel to which all channels of the library belong. -/
def root : Text := "cql-schema".toList

/-- The channel of a part of the library. -/
def channelOf (part : Text) : Text :=
  root ++ ':' :: part

/-- The entry of a part of the library whose arguments are texts. -/
def make (part template : Text) (arguments : List Text) : LogEntry :=
  ⟨channelOf part, template, arguments.map .text⟩

/-- The entry of a part of the library that is given as one list: the first argument is the template
if it is a text; else all arguments are shown. -/
def ofArguments (part : Text) : List TemplateArgument → LogEntry
  | .text template :: arguments => ⟨channelOf part, template, arguments⟩
  | arguments => ⟨channelOf part, "%O".toList, arguments⟩

/-- An entry on one line, headed by its channel. -/
def line (entry : LogEntry) : Text :=
  Template.line entry.channel entry.template entry.arguments

end LogEntry

/-- The channels that are logged: those that match a name and no skip. -/
structure LogFilter where
  names : List Text := []
  skips : List Text := []
deriving DecidableEq, Repr

namespace LogFilter

/-- The filter of a list of patterns between commas or blanks, those after a hyphen for channels to
skip. -/
def ofPattern (patterns : Text) : LogFilter :=
  let patterns := Text.parts (fun c => c == ',' || Text.isBlankChar c) patterns
  { names := patterns.filter fun p => p.head? != some '-'
    skips := (patterns.filter fun p => p.head? == some '-').map List.tail }

/-- The pattern of all channels of the library. -/
def everyChannel : Text := LogEntry.channelOf ['*']

/-- Whether a channel is logged. -/
def enabled (filter : LogFilter) (channel : Text) : Bool :=
  !filter.skips.any (Pattern.fits · channel) && filter.names.any (Pattern.fits · channel)

/-- The lines of the entries on channels that are logged. -/
def lines (filter : LogFilter) (entries : List LogEntry) : List Text :=
  (entries.filter fun entry => filter.enabled entry.channel).map LogEntry.line

end LogFilter

end CqlDdl
