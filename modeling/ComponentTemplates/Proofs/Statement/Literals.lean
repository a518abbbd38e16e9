/-
Module: ComponentTemplates.Proofs.Statement.Literals
Purpose: What the literals of a program are like that it writes as markup. Literals that go into a
  property are plain text and do not count.
Main exports: Statement.Literals, Statement.LiteralsAll, literalsAll_iff, literalsAll_of_forall
-/
import ComponentTemplates.Statement.Basic

namespace ComponentTemplates.Statement

mutual

/-- The condition holds of every literal that the statement writes to the page or to inner markup, at
any depth. -/
def Literals (holds : String → Prop) : Statement → Prop
  | .append target (.literal text) =>
      match target with
      | .property _ => True
      | .page | .children => holds text
  | .append _ (.value _) => True
  | .choose branches none => LiteralsBranches holds branches
  | .choose branches (some body) => LiteralsBranches holds branches ∧ LiteralsAll holds body
  | .loop _ body => LiteralsAll holds body
  | .within _ body => LiteralsAll holds body
  | .beginProps => True
  | .initProperty _ => True
  | .createProperty _ => True
  | .initChildren => True
  | .sealChildren => True
  | .renderComponent _ _ => True
termination_by structural statement => statement

/-- `Literals` of each statement of a body. -/
def LiteralsAll (holds : String → Prop) : List Statement → Prop
  | [] => True
  | statement :: rest => statement.Literals holds ∧ LiteralsAll holds rest
termination_by structural body => body

/-- `Literals` of the body of each branch. -/
def LiteralsBranches (holds : String → Prop) : List Branch → Prop
  | [] => True
  | ⟨_, body⟩ :: rest => LiteralsAll holds body ∧ LiteralsBranches holds rest
termination_by structural branches => branches

end

variable {holds : String → Prop}

/-- A condition on the literals of a body is one on those of each statement. -/
theorem literalsAll_iff {body : List Statement} :
    LiteralsAll holds body ↔ ∀ statement ∈ body, statement.Literals holds := by
  induction body with
  | nil => simp [LiteralsAll]
  | cons statement rest ih => simp [LiteralsAll, ih]

theorem literalsBranches_iff {branches : List Branch} :
    LiteralsBranches holds branches ↔ ∀ branch ∈ branches, LiteralsAll holds branch.body := by
  induction branches with
  | nil => simp [LiteralsBranches]
  | cons branch rest ih =>
      obtain ⟨condition, body⟩ := branch
      simp [LiteralsBranches, ih]

mutual

theorem literals_of_forall (hall : ∀ text, holds text) (statement : Statement) :
    statement.Literals holds := by
  cases statement with
  | append target value =>
      cases value with
      | literal text =>
          cases target with
          | page => exact hall text
          | property name => trivial
          | children => exact hall text
      | value lookup => trivial
  | choose branches otherwise =>
      cases otherwise with
      | none => exact literalsBranches_of_forall hall branches
      | some body =>
          exact ⟨literalsBranches_of_forall hall branches, literalsAll_of_forall hall body⟩
  | loop subject body => exact literalsAll_of_forall hall body
  | within scope body => exact literalsAll_of_forall hall body
  | _ => trivial

/-- A condition that holds of every text holds of the literals of every program. -/
theorem literalsAll_of_forall (hall : ∀ text, holds text) (body : List Statement) :
    LiteralsAll holds body := by
  cases body with
  | nil => trivial
  | cons statement rest =>
      exact ⟨literals_of_forall hall statement, literalsAll_of_forall hall rest⟩

theorem literalsBranches_of_forall (hall : ∀ text, holds text) (branches : List Branch) :
    LiteralsBranches holds branches := by
  cases branches with
  | nil => trivial
  | cons branch rest =>
      obtain ⟨condition, body⟩ := branch
      exact ⟨literalsAll_of_forall hall body, literalsBranches_of_forall hall rest⟩

end

end ComponentTemplates.Statement
