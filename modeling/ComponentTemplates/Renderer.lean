/-
Module: ComponentTemplates.Renderer
Purpose: Components rendered. A component's name leads through the search paths to its template, which
  runs in a scope of its own that holds the component's properties and its name. Programs inside the
  template render further components in the same way. Nothing in them bounds how deep; the depth that a
  run gets is a parameter, so that rendering is a function, and what holds of all pages is stated for
  every depth.
Main exports: TemplateStore, Viewer, searchPaths, componentContext, Renderer, Renderer.render,
  Renderer.renderTemplate, Renderer.renderPage
-/
import ComponentTemplates.Config
import ComponentTemplates.Interpreter
import ComponentTemplates.Template.Parser

namespace ComponentTemplates

/-- Sources of templates by their paths. -/
abbrev TemplateStore := Bindings String

namespace TemplateStore

/-- Puts a source at a path, in place of what was there. -/
def add (store : TemplateStore) (path source : String) : TemplateStore :=
  Bindings.insert store path source

/-- There is a source at the path. -/
def holds (store : TemplateStore) (path : String) : Bool :=
  Bindings.contains store path

/-- The source at a path. -/
def load (store : TemplateStore) (path : String) : Except ResourceError String :=
  match Bindings.get? store path with
  | some source => .ok source
  | none => .error (.notFound path)

end TemplateStore

/-- A template that has been found and compiled. -/
structure CompiledTemplate where
  path : String
  statements : List Statement
deriving Inhabited

/-- Finds the template that the first fitting candidate names. -/
abbrev Viewer := List String → Except RenderError (Option CompiledTemplate)

/-- The template at a path, compiled from its source. -/
def compileTemplate (path source : String) : Except RenderError CompiledTemplate :=
  match Template.parseTemplate source with
  | .ok statements => .ok { path, statements }
  | .error error => .error (.template path error)

/-- The first candidate that names a source in the store. -/
def Viewer.ofStore (store : TemplateStore) : Viewer := fun candidates =>
  match candidates.find? store.holds with
  | none => .ok none
  | some path =>
      match store.load path with
      | .ok source => (compileTemplate path source).map some
      | .error error => .error (.resource error)

/-- The first candidate that names one of the given programs. -/
def Viewer.ofPrograms (programs : Bindings (List Statement)) : Viewer := fun candidates =>
  .ok (candidates.findSome? fun path =>
    (Bindings.get? programs path).map fun statements => { path, statements })

/-- The folder that is searched behind the configured ones. -/
def includesPath : String := "Includes"

/-- A path without the slashes at its end. -/
def trimSlashes (path : String) : String :=
  String.ofList (Text.dropTrailing (· == '/') path.toList)

/-- Where the template of a component may be, the first place first. -/
def searchPaths (config : Config) (component : String) : List String :=
  config.componentPaths.map (fun path => trimSlashes path ++ "/" ++ component)
    ++ [includesPath ++ "/" ++ component, component]

/-- The names that no property may have. -/
def reservedProperties : List String := ["failover", "customisedObject", "objCache"]

/-- The field that holds a component's own name. -/
def componentNameField : String := "ComponentName"

/-- The data that a component's template sees: its properties, and its name unless a property has
taken that field. The first property with a reserved name is an error. -/
def componentContext (component : String) (properties : Properties) : Except RenderError Value :=
  match (Bindings.names properties).find? reservedProperties.contains with
  | some property => .error (.reservedProperty property component)
  | none =>
      if Bindings.contains properties componentNameField then .ok (.record properties)
      else .ok (.record (Bindings.insert properties componentNameField (.text component)))

/-- What components are rendered with. -/
structure Renderer where
  config : Config := {}
  viewer : Viewer
  /-- How deep components may stand inside each other before the run is given up. The limit is that of the
  surroundings. -/
  nestingLimit : Nat := 1000

namespace Renderer

/-- Renders a component, with the given host for the components inside. -/
def renderWith (renderer : Renderer) (host : Host) (component : String) (properties : Properties) :
    Except RenderError Value := do
  let candidates := searchPaths renderer.config component
  match ← renderer.viewer candidates with
  | none => .error (.templateNotFound candidates)
  | some template => do
      let context ← componentContext component properties
      let page ← runProgram host (Scope.ofRoot context) template.statements
      return .html page

/-- The host that renders components up to the given number of levels inside each other. -/
def host (renderer : Renderer) : Nat → Host
  | 0 => fun _ => .error .nestingTooDeep
  | levels + 1 => fun call =>
      renderer.renderWith (renderer.host levels) call.component call.properties

/-- Renders a component with the given properties. The result is complete markup. -/
def render (renderer : Renderer) (component : String) (properties : Properties) :
    Except RenderError Value :=
  renderer.renderWith (renderer.host renderer.nestingLimit) component properties

/-- Renders a page that is compiled already, with the given data. -/
def renderPage (renderer : Renderer) (statements : List Statement) (data : Value) :
    Except RenderError String :=
  runProgram (renderer.host renderer.nestingLimit) (Scope.ofRoot data) statements

/-- The path of a page whose source is given as text. -/
def sourcePath : String := "<string>"

/-- Renders a page from its source, with the given data. -/
def renderTemplate (renderer : Renderer) (source : String) (data : Value) :
    Except RenderError String := do
  renderer.renderPage (← compileTemplate sourcePath source).statements data

end Renderer

end ComponentTemplates
