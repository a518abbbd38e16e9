/-
Module: ComponentTemplates.RenderError
Purpose: Why a page or a component cannot be rendered, and the text that says so.
Main exports: ProgramFault, ResourceError, RenderError, RenderError.message
-/
import ComponentTemplates.CompileError
import ComponentTemplates.Files.Access

namespace ComponentTemplates

/-- What is wrong with a program that no compilation yields. -/
inductive ProgramFault where
  /-- A statement about properties where no map of properties has been begun. -/
  | noPropertyMap
  /-- A property that has not been begun, or has been made already. -/
  | propertyNotBegun (name : String)
  /-- Inner markup that has not been begun, or has been sealed already. -/
  | childrenNotBegun
  /-- A component to be rendered without a map of properties. -/
  | noPropertiesFor (component : String)
  /-- A component to be rendered into a property. -/
  | renderIntoProperty (name : String)
deriving DecidableEq, Repr, Inhabited

/-- The text of a program's fault. -/
def ProgramFault.message : ProgramFault → String
  | .noPropertyMap => "no property map is bound"
  | .propertyNotBegun name => "property \"" ++ name ++ "\" was not initialized"
  | .childrenNotBegun => "children buffer was not initialized"
  | .noPropertiesFor component => "no properties bound for \"" ++ component ++ "\""
  | .renderIntoProperty name => "cannot render into property \"" ++ name ++ "\""

/-- Why the source of a template cannot be had. -/
inductive ResourceError where
  | notFound (path : String)
  | loadFailed (path : String) (reason : FileError)
deriving DecidableEq, Repr, Inhabited

/-- The path of the template. -/
def ResourceError.path : ResourceError → String
  | .notFound path | .loadFailed path _ => path

/-- The text of a resource error. -/
def ResourceError.message : ResourceError → String
  | .notFound path => "Template not found: " ++ path
  | .loadFailed path reason => "Failed to load " ++ path ++ ": " ++ reason.message

/-- Why something cannot be rendered. -/
inductive RenderError where
  /-- None of the candidates names a template. -/
  | templateNotFound (candidates : List String)
  /-- A property has a name that the view model uses itself. -/
  | reservedProperty (property component : String)
  | resource (error : ResourceError)
  /-- A template cannot be compiled. -/
  | template (path : String) (source : CompileError)
  | invalidProgram (fault : ProgramFault)
  /-- Components stand inside each other deeper than the renderer goes. -/
  | nestingTooDeep
deriving DecidableEq, Repr, Inhabited

/-- The text of the error. -/
def RenderError.message : RenderError → String
  | .templateNotFound candidates =>
      "None of the following templates could be found: " ++ ", ".intercalate candidates
  | .reservedProperty property component =>
      "You cannot use the property \"" ++ property ++ "\" on \"" ++ component
        ++ "\" as it's already used by ViewableData."
  | .resource error => error.message
  | .template path source =>
      "Failed to compile template \"" ++ path ++ "\": " ++ source.message
  | .invalidProgram fault => "Invalid generated code: " ++ fault.message
  | .nestingTooDeep => "Components are nested too deeply"

/-- The texts of the error and of its causes, the outermost first. -/
def RenderError.chain : RenderError → List String
  | .template path source => [(RenderError.template path source).message, source.message]
  | error => [error.message]

end ComponentTemplates
