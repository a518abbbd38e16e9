/-
Module: ComponentTemplates.Json.Basic
Purpose: JSON values as they are written: members of objects in order and with repetitions. A value
  whose form is right but which stands for nothing (a number out of range, half a surrogate pair,
  nesting that is too deep) is kept as `invalid`, so that it does no harm where nobody reads it.
Main exports: Json, Json.Number, Json.readable, Json.unique
-/
import ComponentTemplates.Bindings
import ComponentTemplates.Decimal.Shortest

namespace ComponentTemplates

namespace Json

/-- A number: a whole one of at most 64 bits, or any other. -/
inductive Number where
  | integer (value : Int)
  | real (value : Float)
deriving Repr, Inhabited

/-- Reals are written out in full from `0.00001` up to sixteen digits before the point. -/
def Number.style : Decimal.Style :=
  { leastPlain := -5, greatestPlain := 15 }

/-- The text of a number. -/
def Number.text : Number → String
  | .integer value => toString value
  | .real value => Decimal.textOfFloat style value

end Json

/-- A JSON value. -/
inductive Json where
  | null
  | bool (value : Bool)
  | number (value : Json.Number)
  | string (value : String)
  | array (items : List Json)
  | object (members : List (String × Json))
  /-- A value that is well formed but cannot be read. -/
  | invalid

namespace Json

instance : Inhabited Json := ⟨.null⟩

mutual

/-- No part of the value is invalid. -/
def readable : Json → Bool
  | .null | .bool _ | .number _ | .string _ => true
  | .array items => readableItems items
  | .object members => readableMembers members
  | .invalid => false
termination_by structural json => json

/-- All items are readable. -/
def readableItems : List Json → Bool
  | [] => true
  | item :: rest => item.readable && readableItems rest
termination_by structural items => items

/-- All members are readable. -/
def readableMembers : List (String × Json) → Bool
  | [] => true
  | (_, value) :: rest => value.readable && readableMembers rest
termination_by structural members => members

end

mutual

/-- The value with each object made a map: a repeated name keeps its first place and its last value. -/
def unique : Json → Json
  | .array items => .array (uniqueItems items)
  | .object members => .object (Bindings.ofList (uniqueMembers members))
  | .null => .null
  | .bool value => .bool value
  | .number value => .number value
  | .string value => .string value
  | .invalid => .invalid
termination_by structural json => json

/-- `unique` on each item. -/
def uniqueItems : List Json → List Json
  | [] => []
  | item :: rest => item.unique :: uniqueItems rest
termination_by structural items => items

/-- `unique` on the value of each member. -/
def uniqueMembers : List (String × Json) → List (String × Json)
  | [] => []
  | (name, value) :: rest => (name, value.unique) :: uniqueMembers rest
termination_by structural members => members

end

end Json

end ComponentTemplates
