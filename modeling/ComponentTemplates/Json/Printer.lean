/-
Module: ComponentTemplates.Json.Printer
Purpose: JSON values as text, without blanks. Characters below the space, quotes and backslashes are
  escaped in strings; all else stands for itself.
Main exports: Json.print
-/
import ComponentTemplates.Json.Basic

namespace ComponentTemplates.Json

/-- A hexadecimal digit. -/
def hexDigit (value : Nat) : Char :=
  if value < 10 then Char.ofNat ('0'.toNat + value) else Char.ofNat ('a'.toNat + (value - 10))

/-- A character inside a string. -/
def printChar (c : Char) : String :=
  if c = '"' then "\\\""
  else if c = '\\' then "\\\\"
  else if c.toNat < 0x20 then
    "\\u00" ++ String.ofList [hexDigit (c.toNat / 16), hexDigit (c.toNat % 16)]
  else c.toString

/-- A text as a string. -/
def printString (text : String) : String :=
  "\"" ++ String.join (text.toList.map printChar) ++ "\""

mutual

/-- A value as text. What cannot be read is written as null. -/
def print : Json → String
  | .null | .invalid => "null"
  | .bool true => "true"
  | .bool false => "false"
  | .number value => value.text
  | .string value => printString value
  | .array items => "[" ++ ",".intercalate (printItems items) ++ "]"
  | .object members => "\x7b" ++ ",".intercalate (printMembers members) ++ "\x7d"
termination_by structural json => json

/-- The texts of items. -/
def printItems : List Json → List String
  | [] => []
  | item :: rest => item.print :: printItems rest
termination_by structural items => items

/-- The texts of members. -/
def printMembers : List (String × Json) → List String
  | [] => []
  | (name, value) :: rest => (printString name ++ ":" ++ value.print) :: printMembers rest
termination_by structural members => members

end

end ComponentTemplates.Json
