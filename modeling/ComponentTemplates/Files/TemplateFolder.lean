/-
Module: ComponentTemplates.Files.TemplateFolder
Purpose: Templates in the files of a folder. The template of a path is the file of that path with the
  extension of templates, and it exists iff that is a regular file.
Main exports: TemplateFolder, TemplateFolder.holds, TemplateFolder.load, TemplateFolder.fetch
-/
import ComponentTemplates.Files.Access
import ComponentTemplates.Renderer

namespace ComponentTemplates

/-- The extension of files that hold templates. -/
def templateExtension : String := "ss"

/-- A folder with templates. -/
structure TemplateFolder where
  root : String
deriving DecidableEq, Repr, Inhabited

namespace TemplateFolder

/-- The file of a template. -/
def file (folder : TemplateFolder) (path : String) : String :=
  joinPath folder.root (path ++ "." ++ templateExtension)

section

variable {m : Type → Type} [Monad m] (files : FileSystem m) (folder : TemplateFolder)

/-- There is a template at the path. -/
def holds (path : String) : m Bool := do
  return (← files.kind? (folder.file path)) = some .file

/-- The source of the template at a path. -/
def load (path : String) : m (Except ResourceError String) := do
  match ← files.read (folder.file path) with
  | .ok source => return .ok source
  | .error reason => return .error (.loadFailed path reason)

/-- The first of the candidates that names a template, alone in a store of its own; the store is empty
if none does. No other template is ever asked for, since a template read from text renders no
components. -/
def fetch (candidates : List String) : m (Except ResourceError TemplateStore) := do
  match ← candidates.findM? (folder.holds files) with
  | none => return .ok []
  | some path =>
      match ← folder.load files path with
      | .ok source => return .ok (TemplateStore.add [] path source)
      | .error error => return .error error

end

end TemplateFolder

end ComponentTemplates
