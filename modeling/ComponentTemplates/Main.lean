/-
Module: ComponentTemplates.Main
Purpose: The program with the files of the system. It reads, prints and exits, and decides nothing.
Main exports: main
-/
import ComponentTemplates.Command.Run

namespace ComponentTemplates

/-- The reason that the system gives for a failure. -/
def FileError.ofSystem : IO.Error → FileError
  | .noFileOrDirectory .. => .notFound
  | .inappropriateType _ _ details =>
      if details = "not a directory" then .notDirectory else .isDirectory
  | error => .other (toString error)

/-- Something in the current folder, or anywhere if its path begins at the root. -/
def systemEntry (path : String) : IO.FS.DirEntry :=
  ⟨⟨"."⟩, path⟩

/-- What stands at a path of the system. -/
def systemKind? (path : String) : IO (Option FileKind) := do
  if path.isEmpty then return none
  try
    match (← (systemEntry path).path.metadata).type with
    | .dir => return some .directory
    | .file => return some .file
    | _ => return none
  catch _ => return none

/-- The text of a file of the system. -/
def systemRead (path : String) : IO (Except FileError String) := do
  if path.isEmpty then return .error .notFound
  try
    match String.fromUTF8? (← IO.FS.readBinFile (systemEntry path).path) with
    | some text => return .ok text
    | none => return .error .notText
  catch error => return .error (FileError.ofSystem error)

/-- The names in a folder of the system. -/
def systemEntries (path : String) : IO (List String) := do
  try
    return (← (systemEntry path).path.readDir).toList.map (·.fileName)
  catch _ => return []

/-- The files of the system. -/
def systemFiles : FileSystem IO where
  kind? := systemKind?
  read := systemRead
  entries := systemEntries

/-- Prints something where it belongs. -/
def Output.write (output : Output) : IO Unit :=
  match output.stream with
  | .standard => IO.println output.text
  | .error => IO.eprintln output.text

end ComponentTemplates

/-- Runs the program with its arguments. -/
def main (arguments : List String) : IO UInt32 := do
  let ending ← ComponentTemplates.run ComponentTemplates.systemFiles arguments
  for output in ending.outputs do
    output.write
  return ending.code.toUInt32
