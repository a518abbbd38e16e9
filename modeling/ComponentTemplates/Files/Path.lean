/-
Module: ComponentTemplates.Files.Path
Purpose: Paths by their parts, which is how they are compared. Doubled and trailing slashes do not
  count, nor does a dot, except in front. Names are in the order of their characters, and whatever is
  no name comes before all names.
Main exports: Path.Part, Path.parts, Path.compare, Path.same, Path.sortUnique
-/
import ComponentTemplates.Text.Split

namespace ComponentTemplates.Path

/-- A part of a path. -/
inductive Part where
  | root
  | current
  | parent
  | name (text : String)
deriving DecidableEq, Repr, Inhabited

/-- The part that a stretch between slashes is, if it counts behind the front of a path. -/
def Part.ofPiece? (piece : List Char) : Option Part :=
  if piece = [] || piece = ['.'] then none
  else if piece = ['.', '.'] then some .parent
  else some (.name (String.ofList piece))

/-- The parts of a path. -/
def parts (path : String) : List Part :=
  let front : List Part :=
    match path.toList with
    | '/' :: _ => [.root]
    | ['.'] => [.current]
    | '.' :: '/' :: _ => [.current]
    | _ => []
  front ++ (Text.pieces '/' path.toList).filterMap Part.ofPiece?

/-- The order of parts. -/
def Part.compare : Part → Part → Ordering
  | .root, .root => .eq
  | .root, _ => .lt
  | _, .root => .gt
  | .current, .current => .eq
  | .current, _ => .lt
  | _, .current => .gt
  | .parent, .parent => .eq
  | .parent, _ => .lt
  | _, .parent => .gt
  | .name first, .name second =>
      if first = second then .eq else if first < second then .lt else .gt

/-- The order of lists of parts: by the first difference, the shorter first if there is none. -/
def compareParts : List Part → List Part → Ordering
  | [], [] => .eq
  | [], _ => .lt
  | _, [] => .gt
  | first :: rest, second :: others => (first.compare second).then (compareParts rest others)

/-- The order of paths. -/
def compare (first second : String) : Ordering :=
  compareParts (parts first) (parts second)

/-- Two paths have the same parts. -/
def same (first second : String) : Bool :=
  parts first = parts second

/-- Of neighbours that are the same path, the first one. -/
def dropRepeats : List String → List String
  | [] => []
  | [path] => [path]
  | first :: second :: rest =>
      if same first second then dropRepeats (first :: rest)
      else first :: dropRepeats (second :: rest)

/-- The paths in order, each once. Of paths that are the same the first one stays. -/
def sortUnique (paths : List String) : List String :=
  dropRepeats (paths.mergeSort fun first second => (compare first second).isLE)

end ComponentTemplates.Path
