/-
Module: ComponentTemplates.Command.Error
Purpose: Why a command fails, as a chain of reasons that begins with the command's own and ends with the
  innermost one.
Main exports: Reason, ConfigError, CommandError, CommandError.chain, chainText
-/
import ComponentTemplates.RenderError

namespace ComponentTemplates

/-- A link in a chain of reasons. -/
inductive Reason where
  | text (message : String)
  /-- A text is no JSON, or no JSON of the form that is asked for. -/
  | malformedJson
deriving DecidableEq, Repr, Inhabited

/-- The text of a reason. -/
def Reason.message : Reason → String
  | .text message => message
  | .malformedJson => "malformed JSON"

/-- The text of a chain of reasons. -/
def chainText (chain : List Reason) : String :=
  ": ".intercalate (chain.map Reason.message)

/-- Why a configuration cannot be had. -/
inductive ConfigError where
  | unreadable (reason : FileError)
  | malformed
deriving DecidableEq, Repr, Inhabited

/-- The reason behind a configuration's failure. -/
def ConfigError.reason : ConfigError → Reason
  | .unreadable reason => .text reason.message
  | .malformed => .malformedJson

/-- Why a command fails. -/
inductive CommandError where
  /-- A file cannot be read. -/
  | unreadable (path : String) (reason : FileError)
  /-- A file does not hold what it should. -/
  | malformed (path : String)
  /-- The text of the properties is no JSON. -/
  | malformedProperties
  /-- The properties are JSON, but no object. -/
  | propertiesNotObject
  | config (path : String) (error : ConfigError)
  | render (error : RenderError)
deriving DecidableEq, Repr, Inhabited

/-- The reasons of an error, the outermost first. -/
def CommandError.chain : CommandError → List Reason
  | .unreadable path reason => [.text ("Failed to read " ++ path), .text reason.message]
  | .malformed path => [.text ("Failed to parse " ++ path), .malformedJson]
  | .malformedProperties => [.text "Failed to parse properties", .malformedJson]
  | .propertiesNotObject => [.text "Properties must be a JSON object"]
  | .config path error => [.text ("Failed to load config " ++ path), error.reason]
  | .render error => error.chain.map .text

/-- The text of an error. -/
def CommandError.message (error : CommandError) : String :=
  chainText error.chain

end ComponentTemplates
