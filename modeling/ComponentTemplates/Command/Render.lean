/-
Module: ComponentTemplates.Command.Render
Purpose: A component rendered from a folder of templates, with a configuration from a file and properties
  from a JSON text.
Main exports: RenderRequest, renderFromFolder
-/
import ComponentTemplates.Command.Input
import ComponentTemplates.Files.TemplateFolder
import ComponentTemplates.Log

namespace ComponentTemplates

/-- What is to be rendered, and with what. -/
structure RenderRequest where
  component : String
  folder : TemplateFolder := ⟨"."⟩
  /-- The file of the configuration. -/
  config : Option String := none
  /-- The text of the properties. -/
  properties : Option String := none
deriving DecidableEq, Repr, Inhabited

section

variable {m : Type → Type} [Monad m] (files : FileSystem m)

/-- The configuration from a file, or that of the library if no file is named. -/
def configOf (path : Option String) : ExceptT CommandError m Config :=
  match path with
  | none => return {}
  | some path => ExceptT.adapt (.config path) (ExceptT.mk (loadConfig files path))

/-- Renders the component with the given configuration. -/
def renderConfigured (request : RenderRequest) (config : Config) :
    ExceptT CommandError m String := do
  let properties : Properties ←
    match request.properties with
    | none => pure []
    | some text => ExceptT.mk (pure (parseProperties text))
  let candidates := searchPaths config request.component
  let store ← ExceptT.adapt (fun error => .render (.resource error))
    (ExceptT.mk (request.folder.fetch files candidates))
  let renderer : Renderer := { config, viewer := Viewer.ofStore store }
  match renderer.render request.component properties with
  | .ok value => return value.toHtml
  | .error error => throw (.render error)

/-- Renders the component, and logs where it is looked for. -/
def renderFromFolder (logger : Logger) (request : RenderRequest) :
    m (Except CommandError String × List Log.Line) := do
  match ← (configOf files request.config).run with
  | .error error => return (.error error, [])
  | .ok config =>
      let log := logger.log .debug
        ("Component paths: " ++ ", ".intercalate config.componentPaths)
      return (← (renderConfigured files request config).run, log)

end

end ComponentTemplates
