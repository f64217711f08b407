/-!
# Log records

A record has a level, a message and named texts. Records written by a document's own log tags are
marked, so that they can be told from what the engine itself reports.

## Scope

A record is what is reported. Who receives it, which records a filter lets through and how they are
laid out on a line is left out; the filter is a text among the settings that nothing here reads.
-/

namespace Scenario

/-- How important a record is. -/
inductive Level where
  /-- Finest detail. -/
  | trace
  /-- Detail. -/
  | debug
  /-- Progress. -/
  | info
  /-- Something unexpected. -/
  | warn
  /-- A failure. -/
  | error
  deriving DecidableEq, Inhabited

namespace Level

/-- All levels. -/
def all : List Level := [trace, debug, info, warn, error]

/-- The name of a level as documents write it. -/
def name : Level → String
  | trace => "trace"
  | debug => "debug"
  | info => "info"
  | warn => "warn"
  | error => "error"

/-- The level with a name. -/
def ofName? (s : String) : Option Level := all.find? fun l => l.name == s

/-- The name of a level as records show it. -/
def label : Level → String
  | trace => "TRACE"
  | debug => "DEBUG"
  | info => "INFO"
  | warn => "WARN"
  | error => "ERROR"

end Level

/-- A log record. -/
structure Record where
  /-- Its level. -/
  level : Level
  /-- Its message. -/
  message : String
  /-- Its named texts, in order. -/
  fields : List (String × String) := []
  /-- Whether a log tag wrote it. -/
  byTag : Bool := false
  deriving DecidableEq, Inhabited

end Scenario
