/-
Module: ComponentTemplates.Invocation.Property
Purpose: The statements that build one property of a component. Each part of the attribute's value is
  appended in order, a guarded part inside a choice; empty text is left out, so that a lone value
  stays what it is. An attribute that holds the opening of a block is refused.
Main exports: Fragment.hasOpener, Fragment.assemble, assembleProperty, normalizeProperty
-/
import ComponentTemplates.CompileError
import ComponentTemplates.Production
import ComponentTemplates.Text.WordChar

namespace ComponentTemplates

/-- The word that a block is opened with. -/
def Opener.keyword : Opener → List Char
  | .choice => ['i', 'f']
  | .loop => ['l', 'o', 'o', 'p']

/-- The text begins with a tag that opens a block with the given word. -/
def startsOpener (keyword : List Char) : List Char → Bool
  | '<' :: '%' :: rest =>
      let inner := rest.dropWhile Text.isBlank
      keyword.isPrefixOf inner && Text.endsWord (inner.drop keyword.length)
  | _ => false

/-- A tag that opens a block with the given word stands somewhere in the text. -/
def containsOpener (keyword : List Char) : List Char → Bool
  | [] => false
  | c :: rest => startsOpener keyword (c :: rest) || containsOpener keyword rest

namespace Fragment

mutual

/-- An opening of the given kind stands in the part, at any depth, as itself or inside text. -/
def hasOpener (kind : Opener) : Fragment → Bool
  | .literal text => containsOpener kind.keyword text.toList
  | .value _ => false
  | .branch _ body => anyOpener kind body
  | .opener other => other = kind
termination_by structural fragment => fragment

/-- One of the parts has an opening of the given kind. -/
def anyOpener (kind : Opener) : List Fragment → Bool
  | [] => false
  | fragment :: rest => fragment.hasOpener kind || anyOpener kind rest
termination_by structural fragments => fragments

end

mutual

/-- The statements that append a part to a property. Under a guard, lookups ask for the value itself. -/
def assemble (property : String) (guarded : Bool) : Fragment → List Statement
  | .literal text =>
      if text.isEmpty then [] else [.append (.property property) (.literal text)]
  | .value lookup =>
      let lookup := if guarded then lookup.withMode .object else lookup
      [.append (.property property) (.value lookup)]
  | .branch none body => assembleAll property guarded body
  | .branch (some guard) body =>
      match assembleAll property true body with
      | [] => []
      | statement :: rest => [.choose [⟨guard, statement :: rest⟩] none]
  | .opener _ => []
termination_by structural fragment => fragment

/-- The statements that append parts in order. -/
def assembleAll (property : String) (guarded : Bool) : List Fragment → List Statement
  | [] => []
  | fragment :: rest => fragment.assemble property guarded ++ assembleAll property guarded rest
termination_by structural fragments => fragments

end

end Fragment

/-- The statements that append an attribute's value to a property of a component. -/
def assembleProperty (component property : String) (given : Attribute) :
    Except CompileError (List Statement) :=
  if Fragment.anyOpener .choice given.value then
    .error (.missingEndIf property component given.line)
  else if Fragment.anyOpener .loop given.value then
    .error (.loopInProperty property component given.line)
  else .ok (Fragment.assembleAll property false given.value)

/-- The statements that make a property from the statements that append its parts. -/
def normalizeProperty (name : String) (appends : List Statement) : List Statement :=
  .initProperty name :: appends ++ [.createProperty name]

end ComponentTemplates
