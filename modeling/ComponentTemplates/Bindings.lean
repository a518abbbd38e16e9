/-
Module: ComponentTemplates.Bindings
Purpose: Named values in order of first binding. Binding a name again replaces its value and keeps its
  place. Main statements: what a name is bound to after a binding (`get?_insert`), and that the
  order of the names only ever grows at its end (`names_insert`).
Main exports: Bindings, get?, contains, names, insert, ofList
-/

namespace ComponentTemplates

/-- Names with their values, in order of first binding. -/
abbrev Bindings (α : Type) := List (String × α)

namespace Bindings

variable {α : Type}

/-- The value bound to a name. -/
def get? (bindings : Bindings α) (name : String) : Option α :=
  match bindings with
  | [] => none
  | (other, value) :: rest => if other = name then some value else get? rest name

/-- Whether a name is bound. -/
def contains (bindings : Bindings α) (name : String) : Bool :=
  (get? bindings name).isSome

/-- The bound names, in order. -/
def names (bindings : Bindings α) : List String :=
  bindings.map (·.1)

/-- Binds a name: in its old place if it has one, else at the end. -/
def insert (bindings : Bindings α) (name : String) (value : α) : Bindings α :=
  match bindings with
  | [] => [(name, value)]
  | (other, old) :: rest =>
      if other = name then (name, value) :: rest else (other, old) :: insert rest name value

/-- The bindings that result from binding the given names one after another. -/
def ofList (pairs : List (String × α)) : Bindings α :=
  pairs.foldl (fun bindings pair => insert bindings pair.1 pair.2) []

@[simp] theorem get?_nil (name : String) : get? ([] : Bindings α) name = none := rfl

/-- A lookup stops at the first pair of its name. -/
theorem get?_cons (other : String) (value : α) (rest : Bindings α) (name : String) :
    get? ((other, value) :: rest) name = if other = name then some value else get? rest name := rfl

/-- A binding is seen under its own name and leaves the other names alone. -/
theorem get?_insert (bindings : Bindings α) (name : String) (value : α) (other : String) :
    get? (insert bindings name value) other =
      if name = other then some value else get? bindings other := by
  induction bindings with
  | nil => simp [insert, get?_cons]
  | cons pair rest ih =>
      obtain ⟨first, old⟩ := pair
      by_cases hfirst : first = name
      · subst hfirst
        by_cases hother : first = other <;> simp [insert, get?_cons, hother]
      · by_cases hother : first = other
        · subst hother
          simp [insert, get?_cons, hfirst, Ne.symm hfirst]
        · simp [insert, get?_cons, hfirst, hother, ih]

/-- A name that is new joins the others at the end; one that is not changes nothing in their order. -/
theorem names_insert (bindings : Bindings α) (name : String) (value : α) :
    names (insert bindings name value) =
      if contains bindings name then names bindings else names bindings ++ [name] := by
  induction bindings with
  | nil => simp [insert, names, contains]
  | cons pair rest ih =>
      obtain ⟨first, old⟩ := pair
      by_cases hfirst : first = name
      · subst hfirst
        simp [insert, names, contains, get?_cons]
      · simp only [names, contains] at ih
        simp only [insert, hfirst, if_false, names, List.map_cons, contains, get?_cons, ih]
        split <;> simp [*]

end Bindings

end ComponentTemplates
