/-
Module: ComponentTemplates.Proofs.Template.Node
Purpose: Templates as trees: text, insertions and blocks. A tree has a written form and a program that
  it stands for. `Node.WellFormedAll` says which trees the written form can be read back from.
Main exports: Node, Alternative, Node.writtenAll, Node.statementAll, Node.WellFormedAll
-/
import ComponentTemplates.Proofs.Template.Split
import ComponentTemplates.Statement.Basic

namespace ComponentTemplates.Template

open Lookup

mutual

/-- A part of a template. -/
inductive Node where
  | text (content : String)
  /-- The markup of a value. -/
  | insertion (path : Path)
  /-- The body behind the first condition that holds, else `otherwise`. -/
  | choice (condition : Path) (body : List Node) (more : List Alternative)
      (otherwise : Option (List Node))
  | loop (subject : Path) (body : List Node)
  | within (scope : Path) (body : List Node)

/-- A further condition of a choice, with its body. -/
structure Alternative where
  condition : Path
  body : List Node

end

namespace Node

def isText : Node → Bool
  | .text _ => true
  | _ => false

mutual

/-- A node as it is written. -/
def written : Node → List Char
  | .text content => content.toList
  | .insertion path => Template.insertion path
  | .choice condition body more none =>
      tag "if" (some condition) ++ writtenAll body ++ writtenMore more ++ tag "end_if" none
  | .choice condition body more (some otherwise) =>
      tag "if" (some condition) ++ writtenAll body ++ writtenMore more ++
        tag "else" none ++ writtenAll otherwise ++ tag "end_if" none
  | .loop subject body => tag "loop" (some subject) ++ writtenAll body ++ tag "end_loop" none
  | .within scope body => tag "with" (some scope) ++ writtenAll body ++ tag "end_with" none
termination_by structural node => node

/-- Nodes written one after another. -/
def writtenAll : List Node → List Char
  | [] => []
  | node :: rest => node.written ++ writtenAll rest
termination_by structural nodes => nodes

/-- The further conditions of a choice with their bodies. -/
def writtenMore : List Alternative → List Char
  | [] => []
  | ⟨condition, body⟩ :: rest =>
      tag "else_if" (some condition) ++ writtenAll body ++ writtenMore rest
termination_by structural more => more

end

mutual

/-- The statement that a node stands for. Only insertions ask for markup. -/
def statement : Node → Statement
  | .text content => .append .page (.literal content)
  | .insertion path => .append .page (.value { steps := path, mode := .render })
  | .choice condition body more none =>
      .choose (⟨{ steps := condition, mode := .object }, statementAll body⟩ :: branches more) none
  | .choice condition body more (some otherwise) =>
      .choose (⟨{ steps := condition, mode := .object }, statementAll body⟩ :: branches more)
        (some (statementAll otherwise))
  | .loop subject body => .loop { steps := subject, mode := .object } (statementAll body)
  | .within scope body => .within { steps := scope, mode := .object } (statementAll body)
termination_by structural node => node

/-- The program that nodes stand for. -/
def statementAll : List Node → List Statement
  | [] => []
  | node :: rest => node.statement :: statementAll rest
termination_by structural nodes => nodes

/-- The branches of the further conditions. -/
def branches : List Alternative → List Branch
  | [] => []
  | ⟨condition, body⟩ :: rest =>
      ⟨{ steps := condition, mode := .object }, statementAll body⟩ :: branches rest
termination_by structural more => more

end

mutual

/-- A node that can be read back: its text is not empty and holds no mark, its paths can be written. -/
def WellFormed : Node → Prop
  | .text content => content ≠ "" ∧ PlainText content.toList
  | .insertion path => path.WellFormed
  | .choice condition body more none =>
      condition.WellFormed ∧ WellFormedAll body ∧ WellFormedMore more
  | .choice condition body more (some otherwise) =>
      condition.WellFormed ∧ WellFormedAll body ∧ WellFormedMore more ∧ WellFormedAll otherwise
  | .loop subject body => subject.WellFormed ∧ WellFormedAll body
  | .within scope body => scope.WellFormed ∧ WellFormedAll body
termination_by structural node => node

/-- Nodes that can be read back. Of two neighbours at most one is text. -/
def WellFormedAll : List Node → Prop
  | [] => True
  | node :: rest =>
      node.WellFormed ∧ (node.isText = true → ∀ next ∈ rest.head?, next.isText = false) ∧
        WellFormedAll rest
termination_by structural nodes => nodes

/-- Further conditions that can be read back. -/
def WellFormedMore : List Alternative → Prop
  | [] => True
  | ⟨condition, body⟩ :: rest => condition.WellFormed ∧ WellFormedAll body ∧ WellFormedMore rest
termination_by structural more => more

end

end Node

end ComponentTemplates.Template
