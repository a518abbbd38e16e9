/-
Module: ComponentTemplates.Proofs.Statement.Nesting
Purpose: How the blocks of generated code lie in one another. The lines of a program are followed with
  the number of blocks that are open and of block ends that end none. All code ends the blocks that
  it begins, and each choice without a branch ends one more (`nesting_lines`).
Main exports: Nesting, Statement.branchless, nesting_lines, nesting_linesAll, level_emit
-/
import ComponentTemplates.Proofs.Statement.Writing

namespace ComponentTemplates

/-- How deep code is at some place: the blocks that are open there, and the ends of blocks before it
that ended none. -/
structure Nesting where
  level : Nat
  strays : Nat
deriving DecidableEq, Repr

namespace Nesting

/-- The nesting behind a line. -/
def step (nesting : Nesting) (line : CodeLine) : Nesting where
  level := line.levelAfter nesting.level
  strays := nesting.strays + (line.closes.toNat - nesting.level)

/-- One more block is open. -/
def enter (nesting : Nesting) : Nesting :=
  { nesting with level := nesting.level + 1 }

/-- So many more blocks have ended, whether they were open or not. -/
def leave (count : Nat) (nesting : Nesting) : Nesting where
  level := nesting.level - count
  strays := nesting.strays + (count - nesting.level)

@[simp] theorem leave_zero (nesting : Nesting) : nesting.leave 0 = nesting := by
  simp [leave]

theorem leave_leave (first second : Nat) (nesting : Nesting) :
    (nesting.leave first).leave second = nesting.leave (first + second) := by
  simp only [leave, mk.injEq]
  omega

/-- What ends inside a block that ends itself then, ends around it. -/
theorem leave_enter (count : Nat) (nesting : Nesting) :
    (nesting.enter.leave count).leave 1 = nesting.leave count := by
  simp only [leave, enter, mk.injEq]
  omega

theorem step_simple {line : CodeLine} (hcloses : line.closes = false) (hopens : line.opens = false)
    (nesting : Nesting) : nesting.step line = nesting := by
  simp [step, CodeLine.levelAfter, CodeLine.levelAt, hcloses, hopens]

/-- A line that begins a block goes one deeper. -/
theorem step_opening {line : CodeLine} (hcloses : line.closes = false) (hopens : line.opens = true)
    (nesting : Nesting) : nesting.step line = nesting.enter := by
  simp [step, enter, CodeLine.levelAfter, CodeLine.levelAt, hcloses, hopens]

theorem step_closing (nesting : Nesting) : nesting.step .closing = nesting.leave 1 := rfl

/-- A line between two bodies ends one block and begins another. -/
theorem step_reopening {line : CodeLine} (hcloses : line.closes = true) (hopens : line.opens = true)
    (nesting : Nesting) : nesting.step line = (nesting.leave 1).enter := by
  simp [step, enter, leave, CodeLine.levelAfter, CodeLine.levelAt, hcloses, hopens]

/-- The nesting has the level that the lines lead to. -/
theorem level_foldl_step (lines : List CodeLine) (nesting : Nesting) :
    (lines.foldl step nesting).level = lines.foldl CodeLine.levelAfter nesting.level := by
  induction lines generalizing nesting with
  | nil => rfl
  | cons line rest ih => exact ih (nesting.step line)

/-- No end of a block is forgotten. -/
theorem strays_le_foldl_step (lines : List CodeLine) (nesting : Nesting) :
    nesting.strays ≤ (lines.foldl step nesting).strays := by
  induction lines generalizing nesting with
  | nil => exact Nat.le_refl _
  | cons line rest ih => exact Nat.le_trans (Nat.le_add_right ..) (ih (nesting.step line))

theorem ite_eq_toNat (flag : Bool) : (if flag then 1 else 0) = flag.toNat := by
  cases flag <;> rfl

/-- What has begun is still open or has ended. -/
theorem count_foldl_step (lines : List CodeLine) (nesting : Nesting) :
    (lines.foldl step nesting).level + lines.countP CodeLine.closes + nesting.strays =
      nesting.level + lines.countP CodeLine.opens + (lines.foldl step nesting).strays := by
  induction lines generalizing nesting with
  | nil => simp
  | cons line rest ih =>
      have hrest := ih (nesting.step line)
      have hstep : (nesting.step line).level + line.closes.toNat + nesting.strays =
          nesting.level + line.opens.toNat + (nesting.step line).strays := by
        simp only [step, CodeLine.levelAfter, CodeLine.levelAt]
        omega
      rw [List.foldl_cons, List.countP_cons, List.countP_cons, ite_eq_toNat, ite_eq_toNat]
      omega

end Nesting

namespace Statement

open Nesting

mutual

/-- The number of choices in the statement, at any depth, that have no branch. Such a choice is printed
without the line that would begin its block. -/
def branchless : Statement → Nat
  | .append _ _ => 0
  | .choose branches none => branches.isEmpty.toNat + branchlessBranches branches
  | .choose branches (some body) =>
      branches.isEmpty.toNat + branchlessBranches branches + branchlessAll body
  | .loop _ body => branchlessAll body
  | .within _ body => branchlessAll body
  | .beginProps => 0
  | .initProperty _ => 0
  | .createProperty _ => 0
  | .initChildren => 0
  | .sealChildren => 0
  | .renderComponent _ _ => 0
termination_by structural statement => statement

/-- `branchless` of all statements of a body. -/
def branchlessAll : List Statement → Nat
  | [] => 0
  | statement :: rest => statement.branchless + branchlessAll rest
termination_by structural body => body

/-- `branchless` of the bodies of all branches. -/
def branchlessBranches : List Branch → Nat
  | [] => 0
  | ⟨_, body⟩ :: rest => branchlessAll body + branchlessBranches rest
termination_by structural branches => branches

end

/-- The lines of a block, which its first line begins and a closing line ends. -/
theorem nesting_block {opening : CodeLine} {body : List CodeLine} {count : Nat}
    {nesting before : Nesting} (hopening : nesting.step opening = before.enter)
    (hbody : body.foldl step before.enter = before.enter.leave count) :
    (opening :: (body ++ [.closing])).foldl step nesting = before.leave count := by
  rw [List.foldl_cons, List.foldl_append, hopening, hbody, List.foldl_cons, List.foldl_nil,
    step_closing, leave_enter]

mutual

/-- Where the lines of a statement lead: back to where they begin, but for one block end too many for
each choice without a branch. -/
theorem nesting_lines (statement : Statement) (nesting : Nesting) :
    statement.lines.foldl step nesting = nesting.leave statement.branchless := by
  cases statement with
  | append target value =>
      have hsimple : nesting.step (target.appendLine value) = nesting := by
        cases target <;> exact step_simple rfl rfl nesting
      rw [lines, List.foldl_cons, List.foldl_nil, hsimple, branchless, leave_zero]
  | choose branches otherwise =>
      have hbranches := nesting_branches branches nesting
      cases otherwise with
      | none =>
          rw [lines, List.foldl_append, List.foldl_cons, List.foldl_nil, step_closing, hbranches,
            branchless]
      | some body =>
          have hbody := nesting_linesAll body
            (nesting.leave (branches.isEmpty.toNat + branchlessBranches branches)).enter
          rw [lines, List.foldl_append,
            nesting_block ((step_reopening rfl rfl _).trans (by rw [hbranches])) hbody, leave_leave,
            branchless]
  | loop subject body =>
      exact nesting_block (step_opening rfl rfl nesting) (nesting_linesAll body nesting.enter)
  | within scope body =>
      exact nesting_block (step_opening rfl rfl nesting) (nesting_linesAll body nesting.enter)
  | renderComponent name target =>
      have hsimple : nesting.step (target.renderLine name) = nesting := by
        cases target <;> exact step_simple rfl rfl nesting
      rw [lines, List.foldl_cons, List.foldl_cons, List.foldl_nil, hsimple,
        step_simple rfl rfl nesting, branchless, leave_zero]
  | beginProps | initProperty | createProperty | initChildren | sealChildren =>
      exact (step_simple rfl rfl nesting).trans (leave_zero nesting).symm

/-- A program ends the blocks that it begins, and one more for each choice without a branch. -/
theorem nesting_linesAll (body : List Statement) (nesting : Nesting) :
    (linesAll body).foldl step nesting = nesting.leave (branchlessAll body) := by
  cases body with
  | nil => exact (leave_zero nesting).symm
  | cons statement rest =>
      rw [linesAll, List.foldl_append, nesting_lines statement, nesting_linesAll rest, leave_leave,
        branchlessAll]

/-- Branches behind the first are told by where the end of the block behind them leads. -/
theorem nesting_branchLines (branches : List Branch) (nesting : Nesting) :
    ((branchLines .nextBranch branches).foldl step nesting).leave 1 =
      (nesting.leave 1).leave (branchlessBranches branches) := by
  cases branches with
  | nil => exact (leave_zero _).symm
  | cons branch rest =>
      obtain ⟨condition, body⟩ := branch
      rw [branchLines, List.foldl_cons, List.foldl_append, step_reopening rfl rfl,
        nesting_linesAll body, nesting_branchLines rest, leave_enter, leave_leave,
        branchlessBranches]

/-- The branches of a choice, with the end of the block behind them. -/
theorem nesting_branches (branches : List Branch) (nesting : Nesting) :
    ((branchLines .branch branches).foldl step nesting).leave 1 =
      nesting.leave (branches.isEmpty.toNat + branchlessBranches branches) := by
  cases branches with
  | nil => rfl
  | cons branch rest =>
      obtain ⟨condition, body⟩ := branch
      rw [branchLines, List.foldl_cons, List.foldl_append, step_opening rfl rfl,
        nesting_linesAll body, nesting_branchLines rest, leave_enter, leave_leave,
        branchlessBranches]
      simp

end

/-- Printing a statement, wherever it begins, leads back to the level that it begins at, but for one
level that each choice without a branch takes away. -/
theorem level_emit (statement : Statement) (layout : Layout) :
    (emit statement layout).level = layout.level - statement.branchless := by
  have hlevel := level_foldl_step statement.lines ⟨layout.level, 0⟩
  rw [nesting_lines] at hlevel
  rw [emit_eq_write, Layout.level_write, ← hlevel, leave]

end Statement

end ComponentTemplates
