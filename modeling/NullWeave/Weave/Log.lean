/-!
# Records of what was done

Weaving keeps a log.  Each record has a level that says how important it is.
-/

namespace NullWeave

/-- How important a record of the log is. -/
inductive LogLevel where
  | trace
  | debug
  | info
  | warn
deriving DecidableEq, Inhabited

/-- The word for a level. -/
def LogLevel.word : LogLevel → String
  | .trace => "TRACE"
  | .debug => "DEBUG"
  | .info => "INFO"
  | .warn => "WARN"

/-- A record of the log. -/
structure LogEntry where
  level : LogLevel
  text : String
deriving DecidableEq, Inhabited

/-- A record with its level in front. -/
def LogEntry.line (entry : LogEntry) : String := entry.level.word ++ " " ++ entry.text

end NullWeave
