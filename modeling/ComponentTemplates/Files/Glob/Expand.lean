/-
Module: ComponentTemplates.Files.Glob.Expand
Purpose: The paths that fit a pattern, in the order in which a walk through the folders meets them:
  the entries `..` and `.` come first, then the names in order, and what is in a folder comes behind
  the folder.
Main exports: Glob.expand
-/
import ComponentTemplates.Files.Access
import ComponentTemplates.Files.Glob.Fit
import ComponentTemplates.Files.Path

namespace ComponentTemplates.Glob

/-- The character that a token is. -/
def Token.char? : Token → Option Char
  | .char c => some c
  | _ => none

/-- The name that tokens stand for, if they are characters only. -/
def literal? (tokens : List Token) : Option String :=
  (tokens.mapM Token.char?).map String.ofList

/-- The tokens stand for any number of folders. -/
def isRecursive (tokens : List Token) : Bool :=
  tokens.contains .anyFolders

/-- A path that has been reached, and its last name. -/
structure Reached where
  path : String
  name : String
  isFolder : Bool
deriving Inhabited

/-- The path of something in a folder. In the current folder it is the name alone. -/
def inFolder (folder name : String) : String :=
  if Path.parts folder = [.current] then name else joinPath folder name

/-- Folders cannot be nested deeper than this, as no path is that long. -/
def folderLimit : Nat := 4096

section

variable {m : Type → Type} [Monad m] (files : FileSystem m)

/-- What stands at the path of something in a folder. -/
def reach (folder name : String) : m Reached := do
  let path := inFolder folder name
  return { path, name, isFolder := (← files.kind? path) = some .directory }

/-- The entries `..` and `.` of a folder, which only a pattern that begins with a dot stands for. -/
def dotEntries (folder : String) (tokens : List Token) : List String :=
  if tokens.head? = some (Token.char '.') then
    (["..", "."].filter fun name => accepts tokens name.toList).map (joinPath folder)
  else []

mutual

/-- The paths below a folder that fit the parts of a pattern. A part without wildcards is looked up,
any other compared with the names in the folder. `depth` bounds how many folders a recursive part
goes down. -/
def expandIn (depth : Nat) (patterns : List (List Token)) (folder : String) (isFolder : Bool) :
    m (List String) :=
  match patterns with
  | [] => return []
  | tokens :: rest =>
      match literal? tokens with
      | some name => do
          let path := inFolder folder name
          let exists? ← files.kind? path
          let special := name = "." || name = ".."
          if (special && isFolder) || (!special && exists?.isSome) then
            if rest.isEmpty then return [path]
            else expandIn depth rest path (exists? = some .directory)
          else return []
      | none => do
          if !isFolder then return []
          else do
            let dotted ← (dotEntries folder tokens).mapM fun path => do
              if rest.isEmpty then return [path]
              else expandIn depth rest path true
            let names := (← files.entries folder).mergeSort fun first second => first ≤ second
            let found ← names.mapM fun name => do
              expandEntry depth tokens rest (← reach files folder name)
            return dotted.flatten ++ found.flatten
termination_by (depth, patterns.length, 1)

/-- The paths that fit when the first part of a pattern is compared with an entry of a folder. A
recursive part goes down into the entry and lets the next part be compared with it too. -/
def expandEntry (depth : Nat) (tokens : List Token) (rest : List (List Token)) (entry : Reached) :
    m (List String) := do
  if isRecursive tokens then
    let further := rest.dropWhile isRecursive
    have : further.length ≤ rest.length := (List.dropWhile_sublist isRecursive).length_le
    let below ←
      match depth with
      | 0 => pure []
      | depth + 1 =>
          if entry.isFolder then expandIn depth (tokens :: further) entry.path true else pure []
    match h : further with
    | [] => return if entry.isFolder then entry.path :: below else []
    | next :: last =>
        have : last.length < rest.length := by
          rw [h] at this
          exact this
        if accepts next entry.name.toList then
          if last.isEmpty then return entry.path :: below
          else return (← expandIn depth last entry.path entry.isFolder) ++ below
        else return below
  else if accepts tokens entry.name.toList then
    if rest.isEmpty then return [entry.path]
    else expandIn depth rest entry.path entry.isFolder
  else return []
termination_by (depth, rest.length + 1, 0)

end

/-- The parts of a pattern between slashes. A slash at the end makes no part. -/
def components (cs : List Char) : List (List Char) :=
  let pieces := Text.pieces '/' cs
  if pieces.getLast? = some [] then pieces.dropLast else pieces

/-- The paths that fit a pattern, or what is wrong with it. -/
def expand (pattern : String) : m (Except PatternError (List String)) := do
  let cs := pattern.toList
  let absolute := cs.head? = some '/'
  let relative := if absolute then cs.tail else cs
  let patterns : Except PatternError (List (List Token)) := do
    let _ ← parse cs
    if relative.isEmpty then return [[]] else (components relative).mapM parse
  match patterns with
  | .error error => return .error error
  | .ok patterns =>
      let root := if absolute then "/" else "."
      let paths ← expandIn files folderLimit patterns root true
      if cs.getLast? = some '/' then
        let folders ← paths.filterM fun path => do
          return (← files.kind? path) = some .directory
        return .ok folders
      else return .ok paths

end

end ComponentTemplates.Glob
