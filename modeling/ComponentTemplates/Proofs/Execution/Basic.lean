/-
Module: ComponentTemplates.Proofs.Execution.Basic
Purpose: Steps of an execution put one behind another, the iterations of a loop among them, and what each
  statement about properties does to the map of properties that was begun last.
Main exports: Outcome.andThen_assoc, executeAllWith_append, executeAll_append, iterate_of_take, addPart_eq,
  createProperty_eq
-/
import ComponentTemplates.Interpreter

namespace ComponentTemplates

namespace Outcome

@[simp] theorem done_andThen (machine : Machine) (next : Machine → Outcome) :
    machine.done.andThen next = next machine := rfl

@[simp] theorem andThen_done (outcome : Outcome) : outcome.andThen Machine.done = outcome := by
  obtain ⟨result, machine⟩ := outcome
  cases result with
  | ok value => rfl
  | error error => rfl

/-- It does not matter how steps in a row are grouped. -/
theorem andThen_assoc (outcome : Outcome) (next last : Machine → Outcome) :
    (outcome.andThen next).andThen last =
      outcome.andThen fun machine => (next machine).andThen last := by
  obtain ⟨result, machine⟩ := outcome
  cases result with
  | ok value => rfl
  | error error => rfl

end Outcome

section Blocks

variable (perform : Statement → Machine → Outcome)

theorem executeAllWith_cons (statement : Statement) (rest : List Statement) (machine : Machine) :
    executeAllWith perform (statement :: rest) machine =
      (executeWith perform statement machine).andThen (executeAllWith perform rest) := rfl

/-- A program may be cut in two at any place. -/
theorem executeAllWith_append (first second : List Statement) (machine : Machine) :
    executeAllWith perform (first ++ second) machine =
      (executeAllWith perform first machine).andThen (executeAllWith perform second) := by
  induction first generalizing machine with
  | nil => rfl
  | cons statement rest ih =>
      rw [List.cons_append, executeAllWith_cons, executeAllWith_cons, Outcome.andThen_assoc]
      congr 1
      funext next
      exact ih next

theorem executeAllWith_singleton (statement : Statement) (machine : Machine) :
    executeAllWith perform [statement] machine = executeWith perform statement machine := by
  rw [executeAllWith_cons]
  exact Outcome.andThen_done _

end Blocks

section Execution

variable (host : Host)

@[simp] theorem executeAll_nil (machine : Machine) :
    executeAll host [] machine = machine.done := rfl

theorem executeAll_cons (statement : Statement) (rest : List Statement) (machine : Machine) :
    executeAll host (statement :: rest) machine =
      (execute host statement machine).andThen (executeAll host rest) := rfl

theorem executeAll_append (first second : List Statement) (machine : Machine) :
    executeAll host (first ++ second) machine =
      (executeAll host first machine).andThen (executeAll host second) :=
  executeAllWith_append (perform host) first second machine

@[simp] theorem executeAll_singleton (statement : Statement) (machine : Machine) :
    executeAll host [statement] machine = execute host statement machine :=
  executeAllWith_singleton (perform host) statement machine

/-- A loop runs its body once for each item, in order. -/
theorem execute_loop (subject : Lookup) (body : List Statement) (machine : Machine) :
    execute host (.loop subject body) machine =
      iterate (executeAll host body) (machine.eval subject).items.length 0 (machine.eval subject).items
        machine := rfl

/-- A scope block runs its body with the value in scope, which it then takes back. -/
theorem execute_within (scope : Lookup) (body : List Statement) (machine : Machine) :
    execute host (.within scope body) machine =
      (executeAll host body
        { machine with scope := machine.scope.push (machine.eval scope) }).popScope := rfl

/-- The first branch whose condition has a value is run, and the others are not looked at. -/
theorem executeBranches_cons (condition : Lookup) (body : List Statement) (rest : List Branch)
    (otherwise : Machine → Outcome) (machine : Machine) :
    executeBranches host (⟨condition, body⟩ :: rest) otherwise machine =
      if (machine.eval condition).hasValue then executeAll host body machine
      else executeBranches host rest otherwise machine := rfl

/-- A body behind one guard. -/
theorem execute_guarded (guard : Lookup) (body : List Statement) (machine : Machine) :
    execute host (.choose [⟨guard, body⟩] none) machine =
      if (machine.eval guard).hasValue then executeAll host body machine else machine.done := rfl

end Execution

section Iterations

/-- A loop over items and further ones. -/
theorem iterate_append (body : Machine → Outcome) (total index : Nat) (items others : List Value)
    (machine : Machine) :
    iterate body total index (items ++ others) machine =
      (iterate body total index items machine).andThen
        (iterate body total (index + items.length) others) := by
  induction items generalizing index machine with
  | nil => rfl
  | cons item rest ih =>
      have hcount : index + 1 + rest.length = index + (item :: rest).length := by
        rw [List.length_cons]
        omega
      rw [List.cons_append, iterate, iterate, Outcome.andThen_assoc, ← hcount]
      congr 1
      funext next
      exact ih (index + 1) next

/-- Where the items before it have gone well, a loop goes on with the item. -/
theorem iterate_of_take {body : Machine → Outcome} {total index : Nat} {items : List Value}
    {item : Value} {machine before : Machine}
    (hitem : items[index]? = some item)
    (hbefore : iterate body total 0 (items.take index) machine = before.done) :
    iterate body total 0 items machine =
      iterate body total index (item :: items.drop (index + 1)) before := by
  obtain ⟨hindex, rfl⟩ := List.getElem?_eq_some_iff.1 hitem
  have hlength : 0 + (items.take index).length = index := by
    rw [List.length_take, Nat.min_eq_left (Nat.le_of_lt hindex), Nat.zero_add]
  have hitems : items.take index ++ items[index] :: items.drop (index + 1) = items := by
    rw [← List.drop_eq_getElem_cons hindex, List.take_append_drop]
  calc iterate body total 0 items machine
      = iterate body total 0 (items.take index ++ items[index] :: items.drop (index + 1)) machine := by
        rw [hitems]
    _ = iterate body total index (items[index] :: items.drop (index + 1)) before := by
        rw [iterate_append, hbefore, hlength, Outcome.done_andThen]

end Iterations

namespace Machine

variable (machine : Machine) {frame : Slots} {outer : List Slots} {name : String}

/-- A part is added behind the parts of a property that is being filled. -/
theorem addPart_eq {values : List Value}
    (hslot : Bindings.get? frame name = some (.parts values)) (part : Value) :
    ({ machine with frames := frame :: outer } : Machine).addPart name part =
      ({ machine with
        frames := Bindings.insert frame name (.parts (values ++ [part])) :: outer } :
          Machine).done := by
  simp only [addPart, updateFrame, hslot]

theorem createProperty_eq {values : List Value}
    (hslot : Bindings.get? frame name = some (.parts values)) :
    ({ machine with frames := frame :: outer } : Machine).createProperty name =
      ({ machine with
        frames := Bindings.insert frame name (.done (Value.createProperty name values)) :: outer } :
          Machine).done := by
  simp only [createProperty, updateFrame, hslot]

/-- Markup is added behind the inner markup while it is being written. -/
theorem addChildren_eq {html : String}
    (hslot : Bindings.get? frame childrenProperty = some (.markup html)) (more : String) :
    ({ machine with frames := frame :: outer } : Machine).addChildren more =
      ({ machine with
        frames := Bindings.insert frame childrenProperty (.markup (html ++ more)) :: outer } :
          Machine).done := by
  simp only [addChildren, updateFrame, hslot]

theorem sealChildren_eq {html : String}
    (hslot : Bindings.get? frame childrenProperty = some (.markup html)) :
    ({ machine with frames := frame :: outer } : Machine).sealChildren =
      ({ machine with
        frames := Bindings.insert frame childrenProperty (.done (.html html)) :: outer } :
          Machine).done := by
  simp only [sealChildren, updateFrame, hslot]

end Machine

end ComponentTemplates
