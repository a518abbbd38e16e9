/-
Module: ComponentTemplates.Production
Purpose: Component tags as a page's grammar hands them over: a name, attributes whose values are trees
  of text, lookups and guarded parts, and inner markup that is compiled already.
Main exports: Production, Attribute, Fragment, Opener, propertyName
-/
import ComponentTemplates.Statement.Basic
import ComponentTemplates.Text.Blank

namespace ComponentTemplates

/-- A block tag inside an attribute that was opened and not closed. -/
inductive Opener where
  | choice
  | loop
deriving DecidableEq, Repr, Inhabited

/-- A part of an attribute's value. -/
inductive Fragment where
  | literal (text : String)
  | value (lookup : Lookup)
  /-- Parts in order, which count only if the guard has a value. -/
  | branch (guard : Option Lookup) (body : List Fragment)
  | opener (kind : Opener)

instance : Inhabited Fragment := ⟨.literal ""⟩

/-- An attribute of a tag. -/
structure Attribute where
  name : String
  value : List Fragment := []
  line : Option Nat := none
deriving Inhabited

/-- One occurrence of a component tag. Inner markup writes to the page. -/
structure Production where
  name : String
  attributes : List Attribute := []
  children : Option (List Statement) := none
  line : Option Nat := none
deriving Inhabited

/-- The property that an attribute's written name stands for: blanks, then single quotes, then double
quotes are taken off both ends. -/
def propertyName (written : String) : String :=
  String.ofList (Text.dropAround (· == '"')
    (Text.dropAround (· == '\'') (Text.trimBlank written.toList)))

/-- The name of the property that an attribute sets. -/
def Attribute.property (given : Attribute) : String :=
  propertyName given.name

end ComponentTemplates
