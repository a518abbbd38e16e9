/-
Module: ComponentTemplates.Value.Json
Purpose: JSON data as values of templates. Numbers become their text, arrays lists, and objects records
  in which a repeated name keeps its first place and its last value.
Main exports: Value.ofJson
-/
import ComponentTemplates.Json.Basic
import ComponentTemplates.Value.Basic

namespace ComponentTemplates.Value

mutual

/-- The value of JSON data. -/
def ofJson : Json → Value
  | .null | .invalid => .null
  | .bool value => .bool value
  | .number value => .text value.text
  | .string value => .text value
  | .array items => .list (ofJsonItems items)
  | .object members => .record (Bindings.ofList (ofJsonMembers members))
termination_by structural json => json

/-- The values of items. -/
def ofJsonItems : List Json → List Value
  | [] => []
  | item :: rest => ofJson item :: ofJsonItems rest
termination_by structural items => items

/-- The values of members. -/
def ofJsonMembers : List (String × Json) → List (String × Value)
  | [] => []
  | (name, value) :: rest => (name, ofJson value) :: ofJsonMembers rest
termination_by structural members => members

end

end ComponentTemplates.Value
