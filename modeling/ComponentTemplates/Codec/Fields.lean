/-
Module: ComponentTemplates.Codec.Fields
Purpose: The two ways to write a record in JSON, as an object and as an array of the fields in order,
  and the two ways to tell which case of a type is meant. Every part comes with the proof that it is
  smaller than the whole, so that decoders may recur on it.
Main exports: Json.Part, Json.fields?, Json.items?, Json.unitCase?, Json.caseName?, Json.tagged?, Passage
-/
import ComponentTemplates.Json.Basic

namespace ComponentTemplates

/-- How a decoder comes by a value. The case of a tagged form may be written after its content, so
that the content is read from a copy; what is read from a copy may be written more freely. -/
inductive Passage where
  /-- As it stands in the text. -/
  | direct
  /-- From a copy that is tried more than once. -/
  | shared
  /-- From a copy that is used up. -/
  | copied
deriving DecidableEq, Repr, Inhabited

/-- In a copy, the name of a case may be given by its number. -/
def Passage.allowsOrdinal : Passage → Bool
  | .direct => false
  | .shared | .copied => true

/-- In a copy that is used up, an empty object passes for nothing behind the name of a case. -/
def Passage.allowsEmptyObject : Passage → Bool
  | .copied => true
  | .direct | .shared => false

namespace Json

/-- A value inside another. -/
abbrev Part (whole : Json) : Type :=
  { part : Json // sizeOf part < sizeOf whole }

/-- An item of an array is smaller than the array, which the decoders recurse on. -/
theorem sizeOf_lt_of_mem_items {items : List Json} {item : Json} (h : item ∈ items) :
    sizeOf item < sizeOf (Json.array items) := by
  have := List.sizeOf_lt_of_mem h
  simp only [Json.array.sizeOf_spec]
  omega

theorem sizeOf_lt_of_mem_members {members : List (String × Json)} {name : String} {value : Json}
    (h : (name, value) ∈ members) : sizeOf value < sizeOf (Json.object members) := by
  have := List.sizeOf_lt_of_mem h
  simp only [Json.object.sizeOf_spec, Prod.mk.sizeOf_spec] at *
  omega

/-- The values of the members with the given name. -/
def named (members : List (String × Json)) (name : String) : List (Part (.object members)) :=
  members.attach.filterMap fun ⟨(other, value), h⟩ =>
    if other = name then some ⟨value, sizeOf_lt_of_mem_members h⟩ else none

/-- The items of an array. -/
def parts (items : List Json) : List (Part (.array items)) :=
  items.attach.map fun ⟨item, h⟩ => ⟨item, sizeOf_lt_of_mem_items h⟩

/-- Reads a list whose items are read alike. -/
def items? {α : Type} (json : Json) (decode : Part json → Option α) : Option (List α) :=
  match json with
  | .array items => (parts items).mapM decode
  | _ => none

/-- The fields of a record: an object in which none of the names is repeated, other members being
left alone, or an array of no more items than there are names. -/
def fields? (json : Json) (names : List String) : Option (String → Option (Part json)) :=
  match json with
  | .object members =>
      if names.all fun name => (named members name).length ≤ 1 then
        some fun name => (named members name).head?
      else none
  | .array items =>
      if items.length ≤ names.length then some fun name => (parts items)[names.idxOf name]?
      else none
  | _ => none

/-- The name of a case without content: a string, or an object with that name alone and nothing
behind it. -/
def unitCase? (passage : Passage) : Json → Option String
  | .string name => some name
  | .object [(name, .null)] => some name
  | .object [(name, .object [])] => if passage.allowsEmptyObject then some name else none
  | _ => none

/-- The name of a case alone: a string, or in a copy the place of the name among those of all cases. -/
def caseName? (passage : Passage) (names : List String) : Json → Option String
  | .string name => some name
  | .number (.integer place) =>
      if passage.allowsOrdinal && 0 ≤ place then names[place.toNat]? else none
  | _ => none

/-- Which of two members of an object comes first. -/
def precedes (members : List (String × Json)) (first second : String) : Bool :=
  members.findIdx (·.1 == first) < members.findIdx (·.1 == second)

/-- A tagged form of a type with the given cases: its case, its content, and how the content is come
by. In an object other members are left alone, the case is written as one without content, and the
content may be missing; an array holds both, the case by its name alone. Content that comes before
its case is copied, and must be readable for that. -/
def tagged? (passage : Passage) (json : Json) (tag content : String) (names : List String) :
    Option (String × Option (Part json) × Passage) :=
  match json with
  | .object members =>
      match named members tag, named members content with
      | [kind], [] => (unitCase? passage kind.1).map fun name => (name, none, passage)
      | [kind], [value] =>
          if precedes members tag content then
            (unitCase? passage kind.1).map fun name => (name, some value, passage)
          else if value.1.readable then
            (unitCase? passage kind.1).map fun name => (name, some value, .copied)
          else none
      | _, _ => none
  | .array items =>
      match parts items with
      | [kind, value] => (caseName? passage names kind.1).map fun name => (name, some value, passage)
      | _ => none
  | _ => none

end Json

end ComponentTemplates
