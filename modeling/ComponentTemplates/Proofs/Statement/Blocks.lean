/-
Module: ComponentTemplates.Proofs.Statement.Blocks
Purpose: Programs read back from the lines that they are printed as. The reader takes one line after
  another and keeps the blocks that are open, so that closing lines alone tell where a body ends. What
  is read is the program but for the modes of conditions, which no line shows.
Main exports: Statement.uniformAll, Statement.LegibleAll, Reading.step, Statement.reads_linesAll
-/
import ComponentTemplates.Proofs.Statement.Lines
import ComponentTemplates.Proofs.Statement.Lookups

namespace ComponentTemplates

namespace Statement

/-- All conditions are put into the mode of pages. -/
def uniformConditions : LookupChange where
  condition lookup := lookup.withMode .render

/-- The statement with all conditions in one mode. -/
def uniform (statement : Statement) : Statement :=
  statement.mapLookups uniformConditions

/-- The program with all conditions in one mode. -/
def uniformAll (body : List Statement) : List Statement :=
  mapLookupsAll uniformConditions body

/-- The branches with their conditions and all those inside in one mode. -/
def uniformBranches (branches : List Branch) : List Branch :=
  mapLookupsBranches uniformConditions branches

theorem uniformAll_cons (statement : Statement) (rest : List Statement) :
    uniformAll (statement :: rest) = statement.uniform :: uniformAll rest := rfl

theorem uniformBranches_cons (condition : Lookup) (body : List Statement) (rest : List Branch) :
    uniformBranches (⟨condition, body⟩ :: rest) =
      ⟨condition.withMode .render, uniformAll body⟩ :: uniformBranches rest := rfl

mutual

/-- The code of the statement is not that of another: every choice in it has a branch, and no component
is rendered into the property that holds inner markup, which is written like the inner markup. -/
def Legible : Statement → Prop
  | .append _ _ => True
  | .choose branches none => branches ≠ [] ∧ LegibleBranches branches
  | .choose branches (some body) => branches ≠ [] ∧ LegibleBranches branches ∧ LegibleAll body
  | .loop _ body => LegibleAll body
  | .within _ body => LegibleAll body
  | .beginProps => True
  | .initProperty _ => True
  | .createProperty _ => True
  | .initChildren => True
  | .sealChildren => True
  | .renderComponent _ target => target ≠ .property childrenProperty
termination_by structural statement => statement

/-- `Legible` of each statement of a body. -/
def LegibleAll : List Statement → Prop
  | [] => True
  | statement :: rest => statement.Legible ∧ LegibleAll rest
termination_by structural body => body

/-- `Legible` of the body of each branch. -/
def LegibleBranches : List Branch → Prop
  | [] => True
  | ⟨_, body⟩ :: rest => LegibleAll body ∧ LegibleBranches rest
termination_by structural branches => branches

end

end Statement

/-! ## Reading lines -/

/-- A block whose last body is being read. -/
inductive CodeBlock where
  | loop (subject : Lookup)
  | within (scope : Lookup)
  /-- A branch, with the branches before it. -/
  | branch (earlier : List Branch) (condition : Lookup)
  | otherwise (branches : List Branch)

/-- The statement that a block is, once its last body has been read. -/
def CodeBlock.close (body : List Statement) : CodeBlock → Statement
  | .loop subject => .loop subject body
  | .within scope => .within scope body
  | .branch earlier condition => .choose (earlier ++ [⟨condition, body⟩]) none
  | .otherwise branches => .choose branches (some body)

/-- Code that has been read in part: the statements of the innermost body so far, and the blocks that
are open, the innermost first, each with the statements before it. -/
structure Reading where
  body : List Statement := []
  outer : List (CodeBlock × List Statement) := []

/-- The statement that adds to a target. -/
def Addition.statement (target : Target) : Addition → Statement
  | .value expr => .append target expr
  | .component name => .renderComponent name target

/-- The target of what is added to the place of a property as text. -/
def markupTarget (name : String) : Target :=
  if name = childrenProperty then .children else .property name

/-- The statement that uses the place of a property. -/
def SlotUse.statement (name : String) : SlotUse → Statement
  | .beginParts => .initProperty name
  | .addPart value => .append (.property name) value
  | .endParts => .createProperty name
  | .beginMarkup => .initChildren
  | .addMarkup addition => addition.statement (markupTarget name)
  | .endMarkup => .sealChildren

namespace Reading

/-- Adds a statement to the innermost body. -/
def add (reading : Reading) (statement : Statement) : Reading :=
  { reading with body := reading.body ++ [statement] }

/-- Begins a block. -/
def enter (reading : Reading) (block : CodeBlock) : Reading :=
  { body := [], outer := (block, reading.body) :: reading.outer }

/-- Reads a line; none if it goes on with or ends a block that is not open. -/
def step (reading : Reading) : CodeLine → Option Reading
  | .page addition => some (reading.add (addition.statement .page))
  | .slot name use => some (reading.add (use.statement name))
  | .beginProps => some (reading.add .beginProps)
  | .endProps => some reading
  | .branch steps => some (reading.enter (.branch [] { steps }))
  | .nextBranch steps =>
      match reading.outer with
      | (.branch earlier condition, before) :: outer =>
          some { body := [], outer :=
            (.branch (earlier ++ [⟨condition, reading.body⟩]) { steps }, before) :: outer }
      | _ => none
  | .otherwise =>
      match reading.outer with
      | (.branch earlier condition, before) :: outer =>
          some { body := [], outer :=
            (.otherwise (earlier ++ [⟨condition, reading.body⟩]), before) :: outer }
      | _ => none
  | .loop subject => some (reading.enter (.loop subject))
  | .within scope => some (reading.enter (.within scope))
  | .closing =>
      match reading.outer with
      | (block, before) :: outer => some { body := before ++ [block.close reading.body], outer }
      | [] => none

/-- The lines lead from one state of reading to another. -/
def Reads (lines : List CodeLine) (before after : Reading) : Prop :=
  lines.foldlM step before = some after

variable {line : CodeLine} {lines more : List CodeLine} {before between after : Reading}

theorem Reads.nothing (reading : Reading) : Reads [] reading reading :=
  rfl

theorem Reads.append (hfirst : Reads lines before between) (hsecond : Reads more between after) :
    Reads (lines ++ more) before after := by
  unfold Reads at *
  rw [List.foldlM_append, hfirst]
  exact hsecond

theorem Reads.cons (hstep : before.step line = some between) (hrest : Reads lines between after) :
    Reads (line :: lines) before after := by
  unfold Reads at *
  rw [List.foldlM_cons, hstep]
  exact hrest

theorem Reads.single (hstep : before.step line = some after) : Reads [line] before after :=
  .cons hstep (.nothing after)

section Blocks

variable (body : List Statement) (before : List Statement)
  (outer : List (CodeBlock × List Statement))

/-- A closing line ends the innermost block, which becomes a statement of the body around it. -/
theorem reads_closing (block : CodeBlock) :
    Reads [.closing] { body, outer := (block, before) :: outer }
      { body := before ++ [block.close body], outer } :=
  .single rfl

/-- The line for an else part ends the body of a branch and begins that of the else part. -/
theorem reads_otherwise (earlier : List Branch) (condition : Lookup) :
    Reads [.otherwise] { body, outer := (.branch earlier condition, before) :: outer }
      { body := [], outer := (.otherwise (earlier ++ [⟨condition, body⟩]), before) :: outer } :=
  .single rfl

end Blocks

end Reading

namespace Statement

open Reading

theorem reads_append (target : Target) (value : Expr) (reading : Reading) :
    Reads [target.appendLine value] reading (reading.add (.append target value)) := by
  cases target with
  | page => exact .single rfl
  | property name => exact .single rfl
  | children => exact .single rfl

/-- The two lines of a component call are read as the call, unless it renders into the inner markup by
its name. -/
theorem reads_renderComponent (name : String) {target : Target}
    (h : target ≠ .property childrenProperty) (reading : Reading) :
    Reads [target.renderLine name, .endProps] reading
      (reading.add (.renderComponent name target)) := by
  have hrendered : reading.step (target.renderLine name) =
      some (reading.add (.renderComponent name target)) := by
    cases target with
    | page => rfl
    | property slot =>
        have hslot : slot ≠ childrenProperty := fun heq => h (by rw [heq])
        simp [Target.renderLine, step, SlotUse.statement, Addition.statement, markupTarget, hslot]
    | children => rfl
  exact .cons hrendered (.single rfl)

-- The induction is on the program. The state of reading is arbitrary throughout, for a body is read
-- inside its block and a branch behind the branches before it.
mutual

/-- A statement is read from its lines, in whatever blocks it stands. -/
theorem reads_lines (statement : Statement) (h : statement.Legible) (reading : Reading) :
    Reads statement.lines reading (reading.add statement.uniform) := by
  cases statement with
  | append target value => exact reads_append target value reading
  | choose branches otherwise =>
      cases otherwise with
      | none =>
          obtain ⟨hne, hbranches⟩ := h
          obtain ⟨earlier, condition, body, heq, hread⟩ :=
            reads_branches branches hne hbranches reading
          have hclosed := hread.append (reads_closing ..)
          rw [CodeBlock.close, heq] at hclosed
          exact hclosed
      | some last =>
          obtain ⟨hne, hbranches, hlast⟩ := h
          obtain ⟨earlier, condition, body, heq, hread⟩ :=
            reads_branches branches hne hbranches reading
          have hopened := hread.append (reads_otherwise ..)
          rw [heq] at hopened
          have hbody := hopened.append (reads_linesAll last hlast _)
          have hclosed := hbody.append (reads_closing ..)
          simp only [List.append_assoc, List.cons_append, List.nil_append] at hclosed
          exact hclosed
  | loop subject body =>
      have hbody := reads_linesAll body h (reading.enter (.loop subject))
      exact .cons rfl (hbody.append (.single rfl))
  | within scope body =>
      have hbody := reads_linesAll body h (reading.enter (.within scope))
      exact .cons rfl (hbody.append (.single rfl))
  | beginProps => exact .single rfl
  | initProperty name => exact .single rfl
  | createProperty name => exact .single rfl
  | initChildren => exact .single rfl
  | sealChildren => exact .single rfl
  | renderComponent name target => exact reads_renderComponent name h reading

/-- The lines of a legible program are read as the program, with all conditions in one mode. -/
theorem reads_linesAll (body : List Statement) (h : LegibleAll body) (reading : Reading) :
    Reads (linesAll body) reading
      { reading with body := reading.body ++ uniformAll body } := by
  cases body with
  | nil =>
      rw [uniformAll, mapLookupsAll, List.append_nil]
      exact .nothing reading
  | cons statement rest =>
      have hstatement := reads_lines statement h.1 reading
      have hrest := reads_linesAll rest h.2 (reading.add statement.uniform)
      have hboth := hstatement.append hrest
      simp only [add, List.append_assoc, List.singleton_append] at hboth
      exact hboth

/-- Branches behind the first are read up to the body of the last one, which is still open and with the
branches before it makes up all of them. -/
theorem reads_branchLines (branches : List Branch) (h : LegibleBranches branches)
    (earlier : List Branch) (condition : Lookup) (body before : List Statement)
    (outer : List (CodeBlock × List Statement)) :
    ∃ earlier' condition' body',
      earlier' ++ [⟨condition', body'⟩] =
        earlier ++ ⟨condition, body⟩ :: uniformBranches branches ∧
      Reads (branchLines .nextBranch branches)
        { body, outer := (.branch earlier condition, before) :: outer }
        { body := body', outer := (.branch earlier' condition', before) :: outer } := by
  cases branches with
  | nil => exact ⟨earlier, condition, body, rfl, .nothing _⟩
  | cons branch rest =>
      obtain ⟨next, inner⟩ := branch
      obtain ⟨hinner, hrest⟩ := h
      have hbody := reads_linesAll inner hinner
        { body := [], outer :=
          (.branch (earlier ++ [⟨condition, body⟩]) (next.withMode .render), before) :: outer }
      obtain ⟨earlier', condition', body', heq, hread⟩ := reads_branchLines rest hrest
        (earlier ++ [⟨condition, body⟩]) (next.withMode .render) (uniformAll inner) before outer
      refine ⟨earlier', condition', body', ?_, .cons rfl (hbody.append hread)⟩
      rw [heq, uniformBranches_cons, List.append_assoc]
      rfl

/-- The branches of a choice are read up to the body of the last one, which is still open. -/
theorem reads_branches (branches : List Branch) (hne : branches ≠ []) (h : LegibleBranches branches)
    (reading : Reading) :
    ∃ earlier condition body,
      earlier ++ [⟨condition, body⟩] = uniformBranches branches ∧
      Reads (branchLines .branch branches) reading
        { body, outer := (.branch earlier condition, reading.body) :: reading.outer } := by
  cases branches with
  | nil => exact absurd rfl hne
  | cons branch rest =>
      obtain ⟨first, inner⟩ := branch
      obtain ⟨hinner, hrest⟩ := h
      have hbody := reads_linesAll inner hinner (reading.enter (.branch [] (first.withMode .render)))
      obtain ⟨earlier, condition, body, heq, hread⟩ := reads_branchLines rest hrest
        [] (first.withMode .render) (uniformAll inner) reading.body reading.outer
      exact ⟨earlier, condition, body, heq, .cons rfl (hbody.append hread)⟩

end

end Statement

end ComponentTemplates
