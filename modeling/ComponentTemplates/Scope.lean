/-
Module: ComponentTemplates.Scope
Purpose: The data in scope while a template runs: a root, and on top of it the subjects of the loops
  and scope blocks that are open. The first step of a lookup is answered by the innermost of them
  that provides the name; a few names stand for the position in the innermost loop and for the root.
Main exports: Scope, Scope.ofRoot, Scope.push, Scope.pushItem, Scope.pop, Scope.resolve
-/
import ComponentTemplates.Value.Basic

namespace ComponentTemplates

namespace Scope

/-- Where a loop stands: at item `index`, counted from one, of `total`. -/
structure Position where
  index : Nat
  total : Nat
deriving DecidableEq, Repr, Inhabited

/-- A value in scope, with its position if it is the item of a loop. -/
structure Frame where
  item : Value
  position : Option Position := none
deriving Inhabited

end Scope

/-- The data in scope: the root, and the frames above it, the innermost first. -/
structure Scope where
  root : Value
  inner : List Scope.Frame := []
deriving Inhabited

namespace Scope

/-- The scope that holds the root alone. -/
def ofRoot (root : Value) : Scope :=
  { root }

/-- Brings a value in scope. -/
def push (scope : Scope) (item : Value) : Scope :=
  { scope with inner := { item } :: scope.inner }

/-- Brings the item of a loop in scope; `index` counts from zero. -/
def pushItem (scope : Scope) (item : Value) (index total : Nat) : Scope :=
  { scope with inner := { item, position := some { index := index + 1, total } } :: scope.inner }

/-- Takes the innermost value out of scope. The root stays. -/
def pop (scope : Scope) : Scope :=
  { scope with inner := scope.inner.tail }

/-- How many values are in scope. -/
def depth (scope : Scope) : Nat :=
  scope.inner.length + 1

/-- All frames, the innermost first. -/
def frames (scope : Scope) : List Frame :=
  scope.inner ++ [{ item := scope.root }]

/-- The innermost frame. -/
def innermost (scope : Scope) : Frame :=
  scope.inner.head?.getD { item := scope.root }

/-- What the names of a position stand for. -/
def Position.answer? (position : Position) (name : String) : Option Value :=
  if name = "Pos" then some (.text (toString position.index))
  else if name = "First" then some (.bool (position.index = 1))
  else if name = "Last" then some (.bool (position.index = position.total))
  else none

/-- The answer of the scope itself to a name that the innermost value does not provide. -/
def builtin? (scope : Scope) (name : String) : Option Value :=
  if scope.innermost.item.provides name then none
  else if name = "Top" then some scope.root
  else scope.innermost.position.bind (·.answer? name)

/-- The answer to the first step of a lookup. -/
def resolveFirst (scope : Scope) (step : Lookup.Step) : Value :=
  match scope.builtin? step.name with
  | some value => value
  | none =>
      match scope.frames.find? fun frame => frame.item.provides step.name with
      | some frame => frame.item.lookup step
      | none => .null

/-- The value that a lookup yields. No steps at all yield the innermost value. -/
def resolve (scope : Scope) : List Lookup.Step → Value
  | [] => scope.innermost.item
  | first :: rest => (scope.resolveFirst first).lookupAll rest

@[simp] theorem pop_push (scope : Scope) (item : Value) : (scope.push item).pop = scope := rfl

@[simp] theorem pop_pushItem (scope : Scope) (item : Value) (index total : Nat) :
    (scope.pushItem item index total).pop = scope := rfl

end Scope

end ComponentTemplates
