/-
Module: ComponentTemplates.Files.Glob.Pattern
Purpose: Patterns of paths, read. Between slashes, `?` stands for a character, `*` for any number of
  them, and brackets for a character of a set or out of it; `**` alone between slashes stands for any
  number of folders.
Main exports: Glob.Range, Glob.Token, Glob.Fault, Glob.PatternError, Glob.parse
-/
import ComponentTemplates.Text.Split

namespace ComponentTemplates.Glob

/-- A range of characters; a single one is a range of its own. -/
structure Range where
  first : Char
  last : Char
deriving DecidableEq, Repr, Inhabited

/-- A part of a pattern. -/
inductive Token where
  | char (c : Char)
  | anyChar
  | anyText
  | anyFolders
  | within (ranges : List Range)
  | outside (ranges : List Range)
deriving DecidableEq, Repr, Inhabited

/-- What is wrong with a pattern. -/
inductive Fault where
  | wildcards
  | recursiveWildcards
  | range
deriving DecidableEq, Repr, Inhabited

/-- The text of a fault. -/
def Fault.message : Fault → String
  | .wildcards => "wildcards are either regular `*` or recursive `**`"
  | .recursiveWildcards => "recursive wildcards must form a single path component"
  | .range => "invalid range pattern"

/-- A fault with the place of the character that shows it. -/
structure PatternError where
  position : Nat
  fault : Fault
deriving DecidableEq, Repr, Inhabited

/-- The text of an error. -/
def PatternError.message (error : PatternError) : String :=
  "Pattern syntax error near position " ++ toString error.position ++ ": " ++ error.fault.message

/-- The ranges that the text between brackets lists. -/
def ranges : List Char → List Range
  | first :: '-' :: last :: rest => ⟨first, last⟩ :: ranges rest
  | c :: rest => ⟨c, c⟩ :: ranges rest
  | [] => []

/-- The set behind an opening bracket, with what follows it. A closing bracket in first place belongs
to the set. -/
def readSet? : List Char → Option (Token × List Char)
  | '!' :: c :: rest =>
      (Text.cut? [']'] rest).map fun (inner, after) => (.outside (ranges (c :: inner)), after)
  | c :: rest =>
      if c = '!' then none
      else (Text.cut? [']'] rest).map fun (inner, after) => (.within (ranges (c :: inner)), after)
  | [] => none

/-- Reading a set uses up at least its opening bracket. -/
theorem length_of_readSet? {cs after : List Char} {token : Token}
    (h : readSet? cs = some (token, after)) : after.length < cs.length := by
  unfold readSet? at h
  split at h
  · simp only [Option.map_eq_some_iff, Prod.exists, Prod.mk.injEq] at h
    obtain ⟨_, _, hcut, _, rfl⟩ := h
    have := Text.length_of_cut? hcut
    simp only [List.length_cons, List.length_nil] at *
    omega
  · split at h
    · cases h
    · simp only [Option.map_eq_some_iff, Prod.exists, Prod.mk.injEq] at h
      obtain ⟨_, _, hcut, _, rfl⟩ := h
      have := Text.length_of_cut? hcut
      simp only [List.length_cons, List.length_nil] at *
      omega
  · cases h

/-- Reads a pattern from the given place on; `front` tells that a part of the path begins there. -/
def parseFrom (place : Nat) (front : Bool) (cs : List Char) : Except PatternError (List Token) :=
  match cs with
  | [] => .ok []
  | '*' :: '*' :: '*' :: _ => .error ⟨place + 2, .wildcards⟩
  | '*' :: '*' :: rest =>
      if !front then .error ⟨place - 1, .recursiveWildcards⟩
      else
        match rest with
        | [] => .ok [.anyFolders]
        | '/' :: rest => (parseFrom (place + 3) true rest).map (.anyFolders :: ·)
        | _ :: _ => .error ⟨place + 2, .recursiveWildcards⟩
  | '*' :: rest => (parseFrom (place + 1) false rest).map (.anyText :: ·)
  | '?' :: rest => (parseFrom (place + 1) false rest).map (.anyChar :: ·)
  | '[' :: rest =>
      match h : readSet? rest with
      | some (token, after) =>
          have := length_of_readSet? h
          (parseFrom (place + 1 + (rest.length - after.length)) false after).map (token :: ·)
      | none => .error ⟨place, .range⟩
  | c :: rest => (parseFrom (place + 1) (c = '/') rest).map (.char c :: ·)
termination_by cs.length

/-- Reads a pattern. -/
def parse (cs : List Char) : Except PatternError (List Token) :=
  parseFrom 0 true cs

end ComponentTemplates.Glob
