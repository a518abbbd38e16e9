/-
Module: ComponentTemplates.Value.Basic
Purpose: The values that templates see. Plain text is escaped where it becomes markup and markup is
  not; a component property made of parts reads as their concatenation and, if there is one part
  only, passes lookups on to it; a method is read by calling it without arguments. What a method returns
  depends on its arguments only, as that of the data of a page does; one that counts its calls is none
  of these values.
Main exports: Value, Value.Kind, Value.hasValue, Value.toHtml, Value.lookup, Value.items,
  Value.provides, Value.beq, Value.createProperty
-/
import ComponentTemplates.Bindings
import ComponentTemplates.Lookup.Basic
import ComponentTemplates.Text.Markup

namespace ComponentTemplates

/-- A value. Records are bindings of fields; a method has an identity beside what it does, which is a
function of its arguments. -/
inductive Value where
  | null
  | bool (value : Bool)
  /-- Plain text. -/
  | text (content : String)
  /-- Markup that is complete as it is. -/
  | html (content : String)
  /-- A component property made of parts. -/
  | field (name : String) (parts : List Value)
  | record (fields : List (String × Value))
  | list (items : List Value)
  | method (identity : Nat) (call : List String → Value)

namespace Value

instance : Inhabited Value := ⟨.null⟩

/-- What kind of thing a value is, as far as properties made of it go. -/
inductive Kind where
  | scalar
  | structured
  | richText
deriving DecidableEq, Repr, Inhabited

/-- The kind of a value. -/
def kind : Value → Kind
  | .null | .bool _ | .text _ | .method _ _ => .scalar
  | .html _ | .field _ _ => .richText
  | .record _ | .list _ => .structured

/-- Markup, or a property made of parts. -/
def isRichText (value : Value) : Bool :=
  value.kind = .richText

mutual

/-- The value counts as given: a condition on it holds. -/
def hasValue : Value → Bool
  | .null => false
  | .bool value => value
  | .text content => !content.isEmpty
  | .html content => !content.isEmpty
  | .field _ parts => anyHasValue parts
  | .record _ => true
  | .list items => !items.isEmpty
  | .method _ call => (call []).hasValue
termination_by structural value => value

/-- One of the values counts as given. -/
def anyHasValue : List Value → Bool
  | [] => false
  | value :: rest => value.hasValue || anyHasValue rest
termination_by structural values => values

end

mutual

/-- The value as markup. A record is what its field `forTemplate` is. -/
def toHtml : Value → String
  | .null => ""
  | .bool value => if value then "1" else ""
  | .text content => Text.Markup.escape content
  | .html content => content
  | .field _ parts => partsHtml parts
  | .record fields => templateHtml fields
  | .list _ => ""
  | .method _ call => (call []).toHtml
termination_by structural value => value

/-- Values as markup, one after another. -/
def partsHtml : List Value → String
  | [] => ""
  | value :: rest => value.toHtml ++ partsHtml rest
termination_by structural values => values

/-- The field `forTemplate` as markup. -/
def templateHtml : List (String × Value) → String
  | [] => ""
  | (name, value) :: rest => if name = "forTemplate" then value.toHtml else templateHtml rest
termination_by structural fields => fields

end

/-- The answer of a record to a lookup step. A method is called with the arguments. -/
def lookupField (fields : List (String × Value)) (step : Lookup.Step) : Value :=
  match Bindings.get? fields step.name with
  | some (.method _ call) => call step.args
  | some value => value
  | none => .null

/-- The answer of a list to a lookup step. -/
def lookupItem (items : List Value) (step : Lookup.Step) : Value :=
  if step.name = "Count" then .text (toString items.length)
  else if step.name = "First" then items.head?.getD .null
  else if step.name = "Last" then items.getLast?.getD .null
  else .null

/-- The answer of a value to a lookup step; null if it has none. -/
def lookup (value : Value) (step : Lookup.Step) : Value :=
  match value with
  | .record fields => lookupField fields step
  | .list items => lookupItem items step
  | .field _ [part] => part.lookup step
  | .method _ call => (call []).lookup step
  | _ => .null
termination_by structural value

/-- The answer of a value to a chain of steps. -/
def lookupAll (value : Value) (steps : List Lookup.Step) : Value :=
  steps.foldl lookup value

/-- The items that a loop over the value runs over. Anything but a list counts as one item, if it
counts as given. -/
def items (value : Value) : List Value :=
  match value with
  | .list items => items
  | .field _ [part] => part.items
  | .field _ _ => []
  | .null => []
  | other => if other.hasValue then [other] else []
termination_by structural value

/-- The names that every list answers to. -/
def listNames : List String := ["Count", "First", "Last"]

/-- The value has an answer of its own to the name, so that a search for it ends here. -/
def provides (value : Value) (name : String) : Bool :=
  match value with
  | .record fields => Bindings.contains fields name
  | .list _ => listNames.contains name
  | .field _ [part] => part.provides name
  | _ => false
termination_by structural value

mutual

/-- Two values are the same: records up to the order of their fields, methods by identity. -/
def beq : Value → Value → Bool
  | .null, .null => true
  | .bool a, .bool b => a = b
  | .text a, .text b => a = b
  | .html a, .html b => a = b
  | .field a parts, .field b others => a = b && beqAll parts others
  | .record fields, .record others => fields.length = others.length && beqFields fields others
  | .list items, .list others => beqAll items others
  | .method a _, .method b _ => a = b
  | _, _ => false
termination_by structural value => value

/-- Two lists have the same items in the same order. -/
def beqAll : List Value → List Value → Bool
  | [], [] => true
  | value :: rest, other :: others => value.beq other && beqAll rest others
  | _, _ => false
termination_by structural values => values

/-- Each field has a field of the same name and value among the others. -/
def beqFields : List (String × Value) → List (String × Value) → Bool
  | [], _ => true
  | (name, value) :: rest, others =>
      match Bindings.get? others name with
      | some other => value.beq other && beqFields rest others
      | none => false
termination_by structural fields => fields

end

/-- The part of a property that has no other. -/
def singlePart? : List Value → Option Value
  | [part] => some part
  | _ => none

/-! What a property is asked goes to its only part, and has no answer if there is none or several. -/

theorem lookup_field (name : String) (parts : List Value) (step : Lookup.Step) :
    (field name parts).lookup step = ((singlePart? parts).map (lookup · step)).getD .null := by
  cases parts with
  | nil => rfl
  | cons part rest => cases rest <;> rfl

theorem items_field (name : String) (parts : List Value) :
    (field name parts).items = ((singlePart? parts).map items).getD [] := by
  cases parts with
  | nil => rfl
  | cons part rest => cases rest <;> rfl

theorem provides_field (name : String) (parts : List Value) (wanted : String) :
    (field name parts).provides wanted = ((singlePart? parts).map (provides · wanted)).getD false := by
  cases parts with
  | nil => rfl
  | cons part rest => cases rest <;> rfl

/-- The value of a property from its parts. A lone part that is no rich text is the value itself. -/
def createProperty (name : String) (parts : List Value) : Value :=
  match parts with
  | [part] => if part.isRichText then .field name [part] else part
  | _ => .field name parts

end Value

end ComponentTemplates
