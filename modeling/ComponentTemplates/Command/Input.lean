/-
Module: ComponentTemplates.Command.Input
Purpose: What commands read: properties, configurations and tags, all of them JSON texts.
Main exports: parseProperties, readPropertiesArgument, loadConfig, loadProductions
-/
import ComponentTemplates.Codec.Decode
import ComponentTemplates.Command.Error
import ComponentTemplates.Interpreter
import ComponentTemplates.Json.Parser
import ComponentTemplates.Value.Json

namespace ComponentTemplates

/-- Properties from the text of a JSON object, in the order of its members. A repeated name keeps its
first place and its last value. -/
def parseProperties (text : String) : Except CommandError Properties :=
  match Json.parseReadable? text with
  | some (.object members) => .ok (Bindings.ofList (Value.ofJsonMembers members))
  | some _ => .error .propertiesNotObject
  | none => .error .malformedProperties

section

variable {m : Type → Type} [Monad m] (files : FileSystem m)

/-- The text of the properties, which the argument is or, behind an `@`, names the file of. -/
def readPropertiesArgument (argument : String) : m (Except CommandError String) :=
  match argument.toList with
  | '@' :: path => do
      let path := String.ofList path
      match ← files.read path with
      | .ok text => return .ok text
      | .error reason => return .error (.unreadable path reason)
  | _ => return .ok argument

/-- The configuration in a file. -/
def loadConfig (path : String) : m (Except ConfigError Config) := do
  match ← files.read path with
  | .error reason => return .error (.unreadable reason)
  | .ok text =>
      match Json.parse? text >>= decodeConfig with
      | some config => return .ok config
      | none => return .error .malformed

/-- The tags in a file. -/
def loadProductions (path : String) : m (Except CommandError (List Production)) := do
  match ← files.read path with
  | .error reason => return .error (.unreadable path reason)
  | .ok text =>
      match Json.parse? text >>= decodeProductions with
      | some productions => return .ok productions
      | none => return .error (.malformed path)

end

end ComponentTemplates
