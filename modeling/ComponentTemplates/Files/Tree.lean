/-
Module: ComponentTemplates.Files.Tree
Purpose: Files in memory, as folders within folders, and access to them by paths from the outermost
  folder. Every part of a path but the last must be a folder. What lies above or outside of the
  outermost folder is not seen, so that there seems to be an empty folder.
Main exports: Files.Node, Files.Node.writeFile, Files.Node.makeFolder, Files.Node.access
-/
import ComponentTemplates.Bindings
import ComponentTemplates.Files.Access
import ComponentTemplates.Text.Split

namespace ComponentTemplates.Files

/-- A file or a folder. -/
inductive Node where
  | file (bytes : ByteArray)
  | folder (entries : List (String × Node))

instance : Inhabited Node := ⟨.folder []⟩

/-- Names have at most this many bytes. -/
def nameLimit : Nat := 255

/-- Paths have fewer bytes than this. -/
def pathLimit : Nat := 4096

namespace Node

/-- The entries of a folder; a file has none. -/
def entries : Node → List (String × Node)
  | .file _ => []
  | .folder entries => entries

/-- Puts a node at the end of a chain of names, making the folders on the way. -/
def insertAt (node inserted : Node) : List String → Node
  | [] => inserted
  | name :: rest =>
      let inner := (Bindings.get? node.entries name).getD (.folder [])
      .folder (Bindings.insert node.entries name (inner.insertAt inserted rest))

/-- Makes the folders of a chain of names that are not there yet. -/
def addFolders (node : Node) : List String → Node
  | [] => node
  | name :: rest =>
      let inner := (Bindings.get? node.entries name).getD (.folder [])
      .folder (Bindings.insert node.entries name (inner.addFolders rest))

/-- The names on a path. -/
def names (path : String) : List String :=
  ((Text.pieces '/' path.toList).filter fun piece => piece ≠ [] && piece ≠ ['.']).map String.ofList

/-- The chain of names that leads to where a name leads from the end of a chain: two dots lead back. -/
def follow (chain : List String) (name : String) : List String :=
  if name = ".." then chain.dropLast else chain ++ [name]

/-- Makes the folders that a path leads through, and tells where it leads. -/
def makeWay (node : Node) (path : List String) : Node × List String :=
  path.foldl (fun (node, chain) name =>
    let chain := follow chain name
    (node.addFolders chain, chain)) (node, [])

/-- Writes a file, making the folders on the way. -/
def writeFile (node : Node) (path : String) (bytes : ByteArray) : Node :=
  let names := names path
  let (node, chain) := node.makeWay names.dropLast
  node.insertAt (.file bytes) (names.getLast?.elim chain (follow chain))

/-- Makes a folder and those on the way, unless they are there. -/
def makeFolder (node : Node) (path : String) : Node :=
  (node.makeWay (names path)).1

/-- Goes along a path from a node; `above` are the folders around it, the innermost first. -/
def walk (node : Node) (above : List Node) : List String → Except FileError Node
  | [] => .ok node
  | name :: rest =>
      match node with
      | .file _ => .error .notDirectory
      | .folder entries =>
          if name = "" || name = "." then walk node above rest
          else if name = ".." then
            match above with
            | [] => walk (.folder []) [] rest
            | outer :: further => walk outer further rest
          else if nameLimit < name.utf8ByteSize then .error .nameTooLong
          else
            match Bindings.get? entries name with
            | some inner => walk inner (node :: above) rest
            | none => .error .notFound

/-- What stands at a path. -/
def resolve (node : Node) (path : String) : Except FileError Node :=
  if path.toList.contains '\x00' then .error .nulInPath
  else if path.isEmpty then .error .notFound
  else if pathLimit ≤ path.utf8ByteSize then .error .nameTooLong
  else
    let start := if path.startsWith "/" then .folder [] else node
    start.walk [] ((Text.pieces '/' path.toList).map String.ofList)

/-- The kind of a node. -/
def kind : Node → FileKind
  | .file _ => .file
  | .folder _ => .directory

/-- The text of a node, if it is a file and its bytes are text. -/
def text : Node → Except FileError String
  | .folder _ => .error .isDirectory
  | .file bytes =>
      match String.fromUTF8? bytes with
      | some text => .ok text
      | none => .error .notText

/-- Access to the files below a folder. -/
def access (node : Node) : FileSystem Id where
  kind? path := (node.resolve path).toOption.map kind
  read path := (node.resolve path).bind text
  entries path :=
    match node.resolve path with
    | .ok found => Bindings.names found.entries
    | .error _ => []

end Node

end ComponentTemplates.Files
