/-
Module: ComponentTemplates.Log
Purpose: Messages with a level, and loggers that keep those of their own level and above.
Main exports: Log.Level, Log.Line, Logger, Logger.enabled, Logger.log
-/

namespace ComponentTemplates

namespace Log

/-- How important a message is. -/
inductive Level where
  | debug
  | info
  | warn
  | error
deriving DecidableEq, Repr, Inhabited

/-- Levels in order of importance. -/
def Level.rank : Level → Nat
  | .debug => 0
  | .info => 1
  | .warn => 2
  | .error => 3

/-- The mark of a level in front of a message. -/
def Level.tag : Level → String
  | .debug => "DEBUG"
  | .info => "INFO"
  | .warn => "WARN"
  | .error => "ERROR"

/-- The level that a verbose or a quiet program logs from. -/
def Level.ofVerbose (verbose : Bool) : Level :=
  if verbose then .debug else .info

/-- A message with its level. -/
structure Line where
  level : Level
  message : String
deriving DecidableEq, Repr, Inhabited

/-- The text of a line. -/
def Line.text (line : Line) : String :=
  "[" ++ line.level.tag ++ "] " ++ line.message

end Log

/-- A logger keeps messages from a level on, unless it is silent. -/
structure Logger where
  level : Log.Level
  silent : Bool := false
deriving DecidableEq, Repr, Inhabited

namespace Logger

/-- The logger that keeps nothing. -/
def none : Logger :=
  { level := .error, silent := true }

/-- Messages of the level are kept. -/
def enabled (logger : Logger) (level : Log.Level) : Bool :=
  !logger.silent && logger.level.rank ≤ level.rank

/-- The lines that a message leaves in the log. -/
def log (logger : Logger) (level : Log.Level) (message : String) : List Log.Line :=
  if logger.enabled level then [{ level, message }] else []

end Logger

end ComponentTemplates
