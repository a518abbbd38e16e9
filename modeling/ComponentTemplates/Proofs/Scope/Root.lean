/-
Module: ComponentTemplates.Proofs.Scope.Root
Purpose: What a scope that holds one value answers. A scope asks the value whether it has an answer of its
  own to a name before it looks the name up there. The two agree for every value but a method: a lookup
  in a method goes on in what the method returns, and the scope passes the method by, so that nothing is
  found in it (`Scope.resolve_ofRoot`).
Main exports: Value.unwrapped, Value.isMethod, Value.lookup_of_not_provides,
  Scope.resolveFirst_ofRoot, Scope.resolve_ofRoot, Scope.resolve_ofRoot_method
-/
import ComponentTemplates.Scope

namespace ComponentTemplates

namespace Value

/-- The value behind wrappers that hold it alone. -/
def unwrapped (value : Value) : Value :=
  match value with
  | .field _ [part] => part.unwrapped
  | other => other
termination_by structural value

/-- A method, by itself or behind wrappers that hold it alone. -/
def isMethod (value : Value) : Bool :=
  match value.unwrapped with
  | .method _ _ => true
  | _ => false

theorem provides_unwrapped (value : Value) (name : String) :
    value.unwrapped.provides name = value.provides name := by
  fun_induction unwrapped value with
  | case1 wrapper part ih => exact ih
  | case2 value hsingle => rfl

/-- The scope finds nothing in a method. -/
theorem provides_of_isMethod {value : Value} (h : value.isMethod = true) (name : String) :
    value.provides name = false := by
  rw [← provides_unwrapped]
  unfold isMethod at h
  cases hvalue : value.unwrapped with
  | method identity call => rfl
  | _ =>
      rw [hvalue] at h
      cases h

theorem lookupField_of_not_contains {fields : List (String × Value)} {step : Lookup.Step}
    (h : Bindings.contains fields step.name = false) : lookupField fields step = .null := by
  have hnone : Bindings.get? fields step.name = none := by
    simpa [Bindings.contains] using h
  rw [lookupField, hnone]

theorem lookupItem_of_not_mem {items : List Value} {step : Lookup.Step}
    (h : listNames.contains step.name = false) : lookupItem items step = .null := by
  have hnames : step.name ≠ "Count" ∧ step.name ≠ "First" ∧ step.name ≠ "Last" := by
    simpa [listNames] using h
  rw [lookupItem, if_neg hnames.1, if_neg hnames.2.1, if_neg hnames.2.2]

/-- What has no answer of its own to a name yields nothing when the name is looked up there, unless it is
a method. -/
theorem lookup_of_not_provides {value : Value} {step : Lookup.Step} (hvalue : value.isMethod = false)
    (h : value.provides step.name = false) : value.lookup step = .null := by
  fun_induction unwrapped value with
  | case1 wrapper part ih => exact ih hvalue h
  | case2 value hsingle =>
      cases value with
      | record fields => exact lookupField_of_not_contains h
      | list items => exact lookupItem_of_not_mem h
      | method identity call => cases hvalue
      | field name parts =>
          match parts with
          | [] => rfl
          | [part] => exact absurd rfl (hsingle name part)
          | _ :: _ :: _ => rfl
      | _ => rfl

theorem lookupAll_null (steps : List Lookup.Step) : Value.null.lookupAll steps = .null := by
  induction steps with
  | nil => rfl
  | cons step rest ih => exact ih

end Value

namespace Scope

/-- The first step of a lookup, where there is nothing in scope but the root. -/
theorem resolveFirst_ofRoot (value : Value) (step : Lookup.Step) :
    (ofRoot value).resolveFirst step =
      if value.provides step.name then value.lookup step
      else if step.name = "Top" then value
      else .null := by
  by_cases hprovides : value.provides step.name = true
  · simp [resolveFirst, builtin?, innermost, frames, ofRoot, hprovides]
  · by_cases htop : step.name = "Top"
    · simp [resolveFirst, builtin?, innermost, ofRoot, htop, htop ▸ hprovides]
    · simp [resolveFirst, builtin?, innermost, frames, ofRoot, hprovides, htop]

/-- **Search from a root**: a path whose first name does not ask for the root yields in a scope that holds a
value what it yields in the value itself, for every value that is no method. In a method, bare or wrapped,
the scope finds nothing, so there the two agree only if the path leads to nothing in what the method
returns. The reason is what the scope takes for an answer: what it passes by has none, but for methods. -/
theorem resolve_ofRoot (value : Value) {first : Lookup.Step} (hfirst : first.name ≠ "Top")
    (rest : List Lookup.Step) :
    (ofRoot value).resolve (first :: rest) =
        (if value.isMethod then .null else value.lookupAll (first :: rest)) ∧
      ((ofRoot value).resolve (first :: rest) = value.lookupAll (first :: rest) ↔
        (value.isMethod = true → value.lookupAll (first :: rest) = .null)) ∧
      (value.provides first.name = false → value.isMethod = false → value.lookup first = .null) := by
  have hresolve : (ofRoot value).resolve (first :: rest) =
      if value.isMethod then .null else value.lookupAll (first :: rest) := by
    rw [resolve, resolveFirst_ofRoot, if_neg hfirst]
    by_cases hmethod : value.isMethod = true
    · rw [if_pos hmethod, Value.provides_of_isMethod hmethod, if_neg Bool.false_ne_true,
        Value.lookupAll_null]
    · rw [if_neg hmethod]
      by_cases hprovides : value.provides first.name = true
      · rw [if_pos hprovides]
        rfl
      · rw [if_neg hprovides]
        rw [Bool.not_eq_true] at hmethod hprovides
        change Value.null.lookupAll rest = (value.lookup first).lookupAll rest
        rw [Value.lookup_of_not_provides hmethod hprovides]
  refine ⟨hresolve, ?_, fun hprovides hmethod => Value.lookup_of_not_provides hmethod hprovides⟩
  rw [hresolve]
  by_cases hmethod : value.isMethod = true
  · rw [if_pos hmethod]
    exact ⟨fun h _ => h.symm, fun h => (h hmethod).symm⟩
  · rw [if_neg hmethod]
    exact ⟨fun _ h => absurd h hmethod, fun _ => rfl⟩

/-- A list in a wrapper, and the number of its items. -/
theorem resolve_ofRoot_count :
    let value := Value.field "items" [.list [.text "a", .text "b"]]
    let path : List Lookup.Step := [{ name := "Count" }]
    (({ name := "Count" } : Lookup.Step).name ≠ "Top") ∧ value.isMethod = false ∧
      (ofRoot value).resolve path = value.lookupAll path ∧
      (value.lookupAll path).toHtml = "2" := by
  intro value path
  have hname : (({ name := "Count" } : Lookup.Step).name ≠ "Top") := by decide
  have hmethod : value.isMethod = false := rfl
  refine ⟨hname, hmethod, ?_, by decide +kernel⟩
  exact ((resolve_ofRoot value hname []).2.1).2 fun h => absurd h (by rw [hmethod]; decide)

/-- A method that returns a record: its title is there, and the scope does not find it. -/
theorem resolve_ofRoot_method :
    let value := Value.method 0 fun _ => .record [("Title", .text "x")]
    let path : List Lookup.Step := [{ name := "Title" }]
    (ofRoot value).resolve path = .null ∧ value.lookupAll path = .text "x" :=
  ⟨rfl, rfl⟩

end Scope

end ComponentTemplates
