/-
Module: ComponentTemplates.Proofs.Execution.Points
Purpose: The points that a run gets to: in the middle of a program, in a branch that is taken, in a scope
  block, in any iteration of a loop, and behind whatever has been executed. What is in scope at a point is
  what was in scope at the start and above it the values of the blocks that are open (`Reaches.scope_eq`);
  and a run that fails at a point has failed (`Reaches.fails`).
Main exports: Scope.beneath, Machine.chosen, Reaches, Reaches.scope_eq, Reaches.fails
-/
import ComponentTemplates.Proofs.Execution.Confined

namespace ComponentTemplates

/-- The scope with further frames above it, the innermost first. -/
def Scope.beneath (scope : Scope) (frames : List Scope.Frame) : Scope :=
  { scope with inner := frames ++ scope.inner }

theorem Scope.beneath_append (scope : Scope) (inner outer : List Scope.Frame) :
    scope.beneath (inner ++ outer) = (scope.beneath outer).beneath inner := by
  simp [beneath]

/-- The statements that a choice comes down to. -/
def Machine.chosen (machine : Machine) (branches : List Branch)
    (otherwise : Option (List Statement)) : List Statement :=
  match branches.find? fun branch => (machine.eval branch.condition).hasValue with
  | some branch => branch.body
  | none => otherwise.getD []

/-- The branch that is run is the first one whose condition has a value. -/
theorem executeBranches_eq (host : Host) (branches : List Branch) (otherwise : Machine → Outcome)
    (machine : Machine) :
    executeBranches host branches otherwise machine =
      match branches.find? fun branch => (machine.eval branch.condition).hasValue with
      | some branch => executeAll host branch.body machine
      | none => otherwise machine := by
  induction branches with
  | nil => rfl
  | cons branch rest ih =>
      obtain ⟨condition, body⟩ := branch
      rw [executeBranches_cons]
      by_cases hcondition : (machine.eval condition).hasValue = true
      · simp [hcondition]
      · simp [hcondition, ih]

/-- A choice runs the body that it chooses, and nothing else. -/
theorem execute_choose (host : Host) (branches : List Branch) (otherwise : Option (List Statement))
    (machine : Machine) :
    execute host (.choose branches otherwise) machine =
      executeAll host (machine.chosen branches otherwise) machine := by
  unfold Machine.chosen
  cases otherwise with
  | none =>
      refine (executeBranches_eq host branches Machine.done machine).trans ?_
      split <;> rfl
  | some body =>
      refine (executeBranches_eq host branches (executeAll host body) machine).trans ?_
      split <;> rfl

/-- A run of some statements gets to other statements, in the state that it has there. The frames are those
of the blocks that are open there, the innermost first. -/
inductive Reaches (host : Host) :
    List Statement → Machine → List Scope.Frame → List Statement → Machine → Prop where
  | here (statements : List Statement) (machine : Machine) :
      Reaches host statements machine [] statements machine
  /-- The first statement has succeeded. -/
  | past {statement : Statement} {following left : List Statement} {machine after point : Machine}
      {frames : List Scope.Frame} (hdone : execute host statement machine = after.done)
      (h : Reaches host following after frames left point) :
      Reaches host (statement :: following) machine frames left point
  | branch {branches : List Branch} {otherwise : Option (List Statement)}
      {following left : List Statement} {machine point : Machine} {frames : List Scope.Frame}
      (h : Reaches host (machine.chosen branches otherwise) machine frames left point) :
      Reaches host (.choose branches otherwise :: following) machine frames left point
  | within {subject : Lookup} {body following left : List Statement} {machine point : Machine}
      {frames : List Scope.Frame}
      (h : Reaches host body { machine with scope := machine.scope.push (machine.eval subject) }
        frames left point) :
      Reaches host (.within subject body :: following) machine
        (frames ++ [{ item := machine.eval subject }]) left point
  /-- The iterations for the items before this one have succeeded. -/
  | iteration {subject : Lookup} {body following left : List Statement}
      {machine before point : Machine} {frames : List Scope.Frame} {items : List Value} {item : Value}
      {index : Nat} (hitems : (machine.eval subject).items = items) (hitem : items[index]? = some item)
      (hbefore : iterate (executeAll host body) items.length 0 (items.take index) machine = before.done)
      (h : Reaches host body
        { before with scope := before.scope.pushItem item index items.length } frames left point) :
      Reaches host (.loop subject body :: following) machine
        (frames ++ [{ item, position := some { index := index + 1, total := items.length } }])
        left point

namespace Reaches

variable {host : Host} {statements left : List Statement} {machine point : Machine}
  {frames : List Scope.Frame}

/-- In scope at a point is what was in scope at the start, and above it the values of the open blocks. What
has been executed up to there has left nothing. -/
theorem scope_eq (h : Reaches host statements machine frames left point) :
    point.scope = machine.scope.beneath frames := by
  induction h with
  | here statements machine => rfl
  | past hdone h ih => rw [ih, (confined_execute host _).scope_of_done hdone]
  | branch h ih => exact ih
  | within h ih =>
      rw [ih, Scope.beneath_append]
      rfl
  | iteration hitems hitem hbefore h ih =>
      have hscope := ((confined_executeAll host _).iterate _ _ 0).scope_of_done hbefore
      rw [ih, Scope.beneath_append, hscope]
      rfl

/-- If what is left at a point fails, the run has failed, with the same error and in the same state but for
the scope, which is the one it began in. -/
theorem fails (h : Reaches host statements machine frames left point) {error : RenderError}
    {failed : Machine} (hfailed : executeAll host left point = (.error error, failed)) :
    executeAll host statements machine =
      (.error error, { failed with scope := machine.scope }) := by
  induction h with
  | here statements machine =>
      have hscope := (confined_executeAll host statements).scope machine
      rw [hfailed] at hscope
      rw [hfailed, ← hscope]
  | past hdone h ih =>
      rw [executeAll_cons, hdone, Outcome.done_andThen, ih hfailed,
        (confined_execute host _).scope_of_done hdone]
  | branch h ih =>
      rw [executeAll_cons, execute_choose, ih hfailed]
      rfl
  | within h ih =>
      rw [executeAll_cons, execute_within, ih hfailed]
      rfl
  | iteration hitems hitem hbefore h ih =>
      have hscope := ((confined_executeAll host _).iterate _ _ 0).scope_of_done hbefore
      rw [executeAll_cons, execute_loop, hitems, iterate_of_take hitem hbefore, iterate, ih hfailed,
        ← hscope]
      rfl

end Reaches

end ComponentTemplates
