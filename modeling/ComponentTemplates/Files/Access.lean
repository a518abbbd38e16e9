/-
Module: ComponentTemplates.Files.Access
Purpose: What the library asks of a file system: what stands at a path, the text of a file and the
  names in a folder, with the reasons why a text cannot be had. The file system is a parameter, so
  that the library's own work stays a pure function of the answers.
Main exports: FileError, FileKind, FileSystem, joinPath
-/

namespace ComponentTemplates

/-- Why the text of a file cannot be had. -/
inductive FileError where
  | notFound
  | notDirectory
  | isDirectory
  | nameTooLong
  | nulInPath
  | notText
  /-- Any other reason, in the words of the file system. -/
  | other (message : String)
deriving DecidableEq, Repr, Inhabited

/-- The text of a reason. -/
def FileError.message : FileError → String
  | .notFound => "No such file or directory (os error 2)"
  | .notDirectory => "Not a directory (os error 20)"
  | .isDirectory => "Is a directory (os error 21)"
  | .nameTooLong => "File name too long (os error 36)"
  | .nulInPath => "file name contained an unexpected NUL byte"
  | .notText => "stream did not contain valid UTF-8"
  | .other message => message

/-- What stands at a path. -/
inductive FileKind where
  | file
  | directory
deriving DecidableEq, Repr, Inhabited

/-- Access to files, with effects in `m`. -/
structure FileSystem (m : Type → Type) where
  /-- What stands at a path, if anything does. -/
  kind? : String → m (Option FileKind)
  /-- The text of the file at a path. -/
  read : String → m (Except FileError String)
  /-- The names in the folder at a path. -/
  entries : String → m (List String)

/-- The path of something inside a folder. A path from the root stands for itself. -/
def joinPath (folder path : String) : String :=
  if path.startsWith "/" || folder.isEmpty then path
  else if folder.endsWith "/" then folder ++ path
  else folder ++ "/" ++ path

end ComponentTemplates
