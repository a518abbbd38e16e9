/-
Module: ComponentTemplates.Lookup.Parser
Purpose: Lookups as templates write them: `Name`, `$Name.Path`, or a dollar sign and a path in braces,
  where each step is an identifier with optional arguments in parentheses. Arguments are texts in
  double or single quotes, or bare words, apart by commas or blanks.
Main exports: Lookup.arguments, Lookup.parseStep?, Lookup.parse?
-/
import ComponentTemplates.Lookup.Basic
import ComponentTemplates.Text.Blank
import ComponentTemplates.Text.Identifier

namespace ComponentTemplates.Lookup

open Text

/-- A character that no bare argument holds. -/
def endsArgument (c : Char) : Bool :=
  c == ',' || isBlank c

/-- The text before the closing quote of an argument that starts with `quote`, and what follows it. -/
def quotedArgument? (quote : Char) (rest : List Char) : Option (List Char × List Char) :=
  if quote = '"' || quote = '\'' then cut? [quote] rest else none

theorem length_of_quotedArgument? {quote : Char} {rest text after : List Char}
    (h : quotedArgument? quote rest = some (text, after)) : after.length ≤ rest.length := by
  unfold quotedArgument? at h
  split at h
  · have := length_of_cut? h
    omega
  · cases h

/-- The arguments written between the parentheses of a step. A quote that is not closed is part of a
bare argument. -/
def arguments : List Char → List (List Char)
  | [] => []
  | c :: rest =>
      if endsArgument c then arguments rest
      else
        match h : quotedArgument? c rest with
        | some (text, after) =>
            have := length_of_quotedArgument? h
            text :: arguments after
        | none =>
            have := length_dropWhile_le (fun d => !endsArgument d) rest
            (c :: rest.takeWhile fun d => !endsArgument d) ::
              arguments (rest.dropWhile fun d => !endsArgument d)
termination_by cs => cs.length

/-- The text between parentheses that makes up the whole of `cs`, if it holds no closing one. -/
def parenthesized? : List Char → Option (List Char)
  | '(' :: rest =>
      match cut? [')'] rest with
      | some (text, []) => some text
      | _ => none
  | _ => none

/-- Reads one step: an identifier, and arguments if anything follows it. -/
def parseStep? (segment : List Char) : Option Step := do
  let (name, rest) ← Identifier.split? (trimBlank segment)
  let written ← if rest.isEmpty then some [] else parenthesized? rest
  some { name := String.ofList name, args := (arguments written).map String.ofList }

/-- The segments of a path between the dots outside parentheses. A closing parenthesis too many does
not count. -/
def segments (depth : Nat) : List Char → List (List Char)
  | [] => [[]]
  | c :: rest =>
      if c = '.' && depth = 0 then [] :: segments 0 rest
      else
        let inner := if c = '(' then depth + 1 else if c = ')' then depth - 1 else depth
        match segments inner rest with
        | [] => [[c]]
        | segment :: others => (c :: segment) :: others

/-- A path without the braces around it and the dollar signs in front of it, outside and inside. -/
def barePath (cs : List Char) : List Char :=
  let path := (trimBlank cs).dropWhile (· == '$')
  match path with
  | '{' :: rest =>
      if rest.getLast? = some '}' then rest.dropLast.dropWhile (· == '$') else path
  | _ => path

/-- Reads the steps of a lookup; none if one of them is malformed. -/
def parseSteps? (cs : List Char) : Option (List Step) :=
  (segments 0 (barePath cs)).mapM parseStep?

/-- Reads a lookup in the given mode. -/
def parse? (path : String) (mode : Mode) : Option Lookup :=
  (parseSteps? path.toList).map fun steps => { steps, mode }

end ComponentTemplates.Lookup
