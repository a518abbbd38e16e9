/-
Module: ComponentTemplates.Proofs.Invocation.Parts
Purpose: What an attribute's value means by itself: the parts that it yields in a scope, in order. Text
  that is empty yields no part, and what stands behind a guard counts only if the guard has a value.
  Main statement: the block of a property, run where a map of properties is open, binds the property to
  the value made of these parts and touches nothing else (`execute_normalizeProperty`).
Main exports: Fragment.parts, Fragment.partsAll, execute_assembleAll, execute_normalizeProperty
-/
import ComponentTemplates.Invocation.Property
import ComponentTemplates.Proofs.Bindings
import ComponentTemplates.Proofs.Execution.Basic

namespace ComponentTemplates

namespace Fragment

mutual

/-- The parts that a fragment yields in a scope. -/
def parts (scope : Scope) : Fragment → List Value
  | .literal text => if text.isEmpty then [] else [.text text]
  | .value lookup => [scope.resolve lookup.steps]
  | .branch none body => partsAll scope body
  | .branch (some guard) body =>
      if (scope.resolve guard.steps).hasValue then partsAll scope body else []
  | .opener _ => []
termination_by structural fragment => fragment

/-- The parts that fragments yield one after another. -/
def partsAll (scope : Scope) : List Fragment → List Value
  | [] => []
  | fragment :: rest => fragment.parts scope ++ partsAll scope rest
termination_by structural fragments => fragments

end

end Fragment

section Run

variable (host : Host) {name : String}

/-- A guard with nothing behind it leaves no statement, which is as good as one. -/
theorem execute_assemble_guard (guarded : Bool) (guard : Lookup) (body : List Fragment)
    (machine : Machine) :
    executeAll host (Fragment.assemble name guarded (.branch (some guard) body)) machine =
      if (machine.eval guard).hasValue then
        executeAll host (Fragment.assembleAll name true body) machine
      else machine.done := by
  rw [Fragment.assemble]
  cases Fragment.assembleAll name true body with
  | nil => simp
  | cons statement rest => rw [executeAll_singleton, execute_guarded]

mutual

/-- The statements that a fragment is assembled to add its parts to the property and do no more. The
guard is the only thing they look at. -/
theorem execute_assemble (guarded : Bool) (fragment : Fragment) (machine : Machine)
    (frame : Slots) (outer : List Slots) (values : List Value)
    (hslot : Bindings.get? frame name = some (.parts values)) :
    executeAll host (fragment.assemble name guarded) { machine with frames := frame :: outer } =
      ({ machine with
        frames := Bindings.insert frame name
          (.parts (values ++ fragment.parts machine.scope)) :: outer } : Machine).done := by
  cases fragment with
  | literal text =>
      rw [Fragment.assemble, Fragment.parts]
      split
      · rw [List.append_nil, Bindings.insert_of_get? hslot]
        rfl
      · rw [executeAll_singleton]
        exact Machine.addPart_eq machine hslot _
  | value lookup =>
      rw [Fragment.assemble, Fragment.parts, executeAll_singleton]
      cases guarded with
      | false => exact Machine.addPart_eq machine hslot _
      | true => exact Machine.addPart_eq machine hslot _
  | branch guard body =>
      cases guard with
      | none =>
          rw [Fragment.assemble, Fragment.parts]
          exact execute_assembleAll guarded body machine frame outer values hslot
      | some guard =>
          have hbody := execute_assembleAll true body machine frame outer values hslot
          rw [execute_assemble_guard, hbody, Fragment.parts]
          by_cases hguard : (machine.scope.resolve guard.steps).hasValue = true
          · rw [if_pos hguard]
            exact if_pos hguard
          · rw [if_neg hguard, List.append_nil, Bindings.insert_of_get? hslot]
            exact if_neg hguard
  | opener kind =>
      rw [Fragment.assemble, Fragment.parts, List.append_nil, Bindings.insert_of_get? hslot]
      rfl

/-- The statements for several parts add the parts' values to the property, in order. -/
theorem execute_assembleAll (guarded : Bool) (fragments : List Fragment) (machine : Machine)
    (frame : Slots) (outer : List Slots) (values : List Value)
    (hslot : Bindings.get? frame name = some (.parts values)) :
    executeAll host (Fragment.assembleAll name guarded fragments)
        { machine with frames := frame :: outer } =
      ({ machine with
        frames := Bindings.insert frame name
          (.parts (values ++ Fragment.partsAll machine.scope fragments)) :: outer } :
            Machine).done := by
  cases fragments with
  | nil =>
      rw [Fragment.assembleAll, Fragment.partsAll, List.append_nil, Bindings.insert_of_get? hslot]
      rfl
  | cons fragment rest =>
      rw [Fragment.assembleAll, executeAll_append,
        execute_assemble guarded fragment machine frame outer values hslot, Outcome.done_andThen,
        execute_assembleAll guarded rest machine _ outer (values ++ fragment.parts machine.scope)
          (by rw [Bindings.get?_insert, if_pos rfl]),
        Bindings.insert_insert, Fragment.partsAll, List.append_assoc]

end

/-- The block of a property binds it, whatever it was bound to before. -/
theorem execute_normalizeProperty (name : String) (fragments : List Fragment) (machine : Machine)
    (frame : Slots) (outer : List Slots) :
    executeAll host (normalizeProperty name (Fragment.assembleAll name false fragments))
        { machine with frames := frame :: outer } =
      ({ machine with
        frames := Bindings.insert frame name
          (.done (Value.createProperty name (Fragment.partsAll machine.scope fragments))) ::
            outer } : Machine).done := by
  have hbegun : ∀ slot : Slot, Bindings.get? (Bindings.insert frame name slot) name = some slot := by
    intro slot
    rw [Bindings.get?_insert, if_pos rfl]
  rw [normalizeProperty, List.cons_append, executeAll_cons]
  change Outcome.andThen (Machine.done _) _ = _
  rw [Outcome.done_andThen, executeAll_append,
    execute_assembleAll host false fragments machine _ outer [] (hbegun _), Outcome.done_andThen,
    executeAll_singleton, Bindings.insert_insert]
  refine (Machine.createProperty_eq machine (hbegun _)).trans ?_
  rw [Bindings.insert_insert, List.nil_append]

end Run

end ComponentTemplates
