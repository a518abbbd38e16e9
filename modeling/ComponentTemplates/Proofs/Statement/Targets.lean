/-
Module: ComponentTemplates.Proofs.Statement.Targets
Purpose: Where a program writes to, at any depth, and what is left of it if that does not count. The
  targets can be replaced without a change of anything else, and a program is determined by its skeleton
  and its targets (`eq_iff_skeletonAll`).
Main exports: Statement.targetsAll, Statement.mapTargetsAll, Statement.skeletonAll,
  Statement.targetsAll_mapTargetsAll, Statement.mapTargetsAll_mapTargetsAll, Statement.eq_iff_skeletonAll
-/
import ComponentTemplates.Statement.Basic

namespace ComponentTemplates.Statement

mutual

/-- The targets of the writes in a statement, at any depth, in the order of the text. -/
def targets : Statement → List Target
  | .append target _ => [target]
  | .choose branches none => targetsBranches branches
  | .choose branches (some body) => targetsBranches branches ++ targetsAll body
  | .loop _ body => targetsAll body
  | .within _ body => targetsAll body
  | .beginProps => []
  | .initProperty _ => []
  | .createProperty _ => []
  | .initChildren => []
  | .sealChildren => []
  | .renderComponent _ target => [target]
termination_by structural statement => statement

/-- The targets of each statement of a body. -/
def targetsAll : List Statement → List Target
  | [] => []
  | statement :: rest => statement.targets ++ targetsAll rest
termination_by structural body => body

/-- The targets in the body of each branch. -/
def targetsBranches : List Branch → List Target
  | [] => []
  | ⟨_, body⟩ :: rest => targetsAll body ++ targetsBranches rest
termination_by structural branches => branches

end

mutual

/-- The statement with each of its targets, at any depth, replaced by another. -/
def mapTargets (move : Target → Target) : Statement → Statement
  | .append target value => .append (move target) value
  | .choose branches none => .choose (mapTargetsBranches move branches) none
  | .choose branches (some body) =>
      .choose (mapTargetsBranches move branches) (some (mapTargetsAll move body))
  | .loop subject body => .loop subject (mapTargetsAll move body)
  | .within scope body => .within scope (mapTargetsAll move body)
  | .beginProps => .beginProps
  | .initProperty name => .initProperty name
  | .createProperty name => .createProperty name
  | .initChildren => .initChildren
  | .sealChildren => .sealChildren
  | .renderComponent name target => .renderComponent name (move target)
termination_by structural statement => statement

/-- `mapTargets` on each statement of a body. -/
def mapTargetsAll (move : Target → Target) : List Statement → List Statement
  | [] => []
  | statement :: rest => statement.mapTargets move :: mapTargetsAll move rest
termination_by structural body => body

/-- `mapTargets` on the body of each branch. -/
def mapTargetsBranches (move : Target → Target) : List Branch → List Branch
  | [] => []
  | ⟨condition, body⟩ :: rest =>
      ⟨condition, mapTargetsAll move body⟩ :: mapTargetsBranches move rest
termination_by structural branches => branches

end

/-- A program without its targets: its blocks, expressions and names, with every write on the page. -/
def skeletonAll (body : List Statement) : List Statement :=
  mapTargetsAll (fun _ => .page) body

section Map

variable (move next : Target → Target)

mutual

/-- Moving the targets of a statement moves each target in the list. -/
theorem targets_mapTargets (statement : Statement) :
    (statement.mapTargets move).targets = statement.targets.map move := by
  cases statement with
  | choose branches otherwise =>
      cases otherwise with
      | none => exact targetsBranches_mapTargetsBranches branches
      | some body =>
          rw [mapTargets, targets, targets, List.map_append,
            targetsBranches_mapTargetsBranches branches, targetsAll_mapTargetsAll body]
  | loop subject body => exact targetsAll_mapTargetsAll body
  | within scope body => exact targetsAll_mapTargetsAll body
  | append | beginProps | initProperty | createProperty | initChildren | sealChildren
  | renderComponent => rfl

theorem targetsAll_mapTargetsAll (body : List Statement) :
    targetsAll (mapTargetsAll move body) = (targetsAll body).map move := by
  cases body with
  | nil => rfl
  | cons statement rest =>
      rw [mapTargetsAll, targetsAll, targetsAll, List.map_append, targets_mapTargets statement,
        targetsAll_mapTargetsAll rest]

theorem targetsBranches_mapTargetsBranches (branches : List Branch) :
    targetsBranches (mapTargetsBranches move branches) = (targetsBranches branches).map move := by
  cases branches with
  | nil => rfl
  | cons branch rest =>
      obtain ⟨condition, body⟩ := branch
      rw [mapTargetsBranches, targetsBranches, targetsBranches, List.map_append,
        targetsAll_mapTargetsAll body, targetsBranches_mapTargetsBranches rest]

end

mutual

/-- Targets that are moved twice are moved by both moves. -/
theorem mapTargets_mapTargets (statement : Statement) :
    (statement.mapTargets move).mapTargets next = statement.mapTargets fun old => next (move old) := by
  cases statement with
  | choose branches otherwise =>
      cases otherwise with
      | none => simp only [mapTargets, mapTargetsBranches_mapTargetsBranches branches]
      | some body =>
          simp only [mapTargets, mapTargetsBranches_mapTargetsBranches branches,
            mapTargetsAll_mapTargetsAll body]
  | loop subject body => simp only [mapTargets, mapTargetsAll_mapTargetsAll body]
  | within scope body => simp only [mapTargets, mapTargetsAll_mapTargetsAll body]
  | append | beginProps | initProperty | createProperty | initChildren | sealChildren
  | renderComponent => rfl

theorem mapTargetsAll_mapTargetsAll (body : List Statement) :
    mapTargetsAll next (mapTargetsAll move body) =
      mapTargetsAll (fun old => next (move old)) body := by
  cases body with
  | nil => rfl
  | cons statement rest =>
      simp only [mapTargetsAll, mapTargets_mapTargets statement, mapTargetsAll_mapTargetsAll rest]

theorem mapTargetsBranches_mapTargetsBranches (branches : List Branch) :
    mapTargetsBranches next (mapTargetsBranches move branches) =
      mapTargetsBranches (fun old => next (move old)) branches := by
  cases branches with
  | nil => rfl
  | cons branch rest =>
      obtain ⟨condition, body⟩ := branch
      simp only [mapTargetsBranches, mapTargetsAll_mapTargetsAll body,
        mapTargetsBranches_mapTargetsBranches rest]

end

end Map

section Determined

variable {move : Target → Target}

/-- Statements that a move makes the same have as many targets. -/
theorem length_targets_eq {first second : Statement}
    (h : first.mapTargets move = second.mapTargets move) :
    first.targets.length = second.targets.length := by
  have hlength := congrArg (fun statement => statement.targets.length) h
  simpa only [targets_mapTargets, List.length_map] using hlength

theorem length_targetsAll_eq {first second : List Statement}
    (h : mapTargetsAll move first = mapTargetsAll move second) :
    (targetsAll first).length = (targetsAll second).length := by
  have hlength := congrArg (fun body => (targetsAll body).length) h
  simpa only [targetsAll_mapTargetsAll, List.length_map] using hlength

theorem length_targetsBranches_eq {first second : List Branch}
    (h : mapTargetsBranches move first = mapTargetsBranches move second) :
    (targetsBranches first).length = (targetsBranches second).length := by
  have hlength := congrArg (fun branches => (targetsBranches branches).length) h
  simpa only [targetsBranches_mapTargetsBranches, List.length_map] using hlength

mutual

/-- Statements that a move makes the same are the same if their targets are. -/
theorem eq_of_mapTargets_eq {first second : Statement}
    (hmap : first.mapTargets move = second.mapTargets move)
    (htargets : first.targets = second.targets) : first = second := by
  cases first with
  | append target value =>
      cases second with
      | append other value' =>
          injection hmap with _ hvalue
          injection htargets with htarget
          rw [htarget, hvalue]
      | choose others alternative => cases alternative <;> cases hmap
      | _ => cases hmap
  | choose branches otherwise =>
      cases otherwise with
      | none =>
          cases second with
          | choose others alternative =>
              cases alternative with
              | none =>
                  injection hmap with hbranches
                  rw [eq_of_mapTargetsBranches_eq hbranches htargets]
              | some other =>
                  injection hmap with _ hbody
                  cases hbody
          | _ => cases hmap
      | some body =>
          cases second with
          | choose others alternative =>
              cases alternative with
              | none =>
                  injection hmap with _ hbody
                  cases hbody
              | some other =>
                  injection hmap with hbranches hbody
                  injection hbody with hbody
                  obtain ⟨hleft, hright⟩ :=
                    List.append_inj htargets (length_targetsBranches_eq hbranches)
                  rw [eq_of_mapTargetsBranches_eq hbranches hleft, eq_of_mapTargetsAll_eq hbody hright]
          | _ => cases hmap
  | loop subject body =>
      cases second with
      | loop other body' =>
          injection hmap with hsubject hbody
          rw [hsubject, eq_of_mapTargetsAll_eq hbody htargets]
      | choose others alternative => cases alternative <;> cases hmap
      | _ => cases hmap
  | within scope body =>
      cases second with
      | within other body' =>
          injection hmap with hscope hbody
          rw [hscope, eq_of_mapTargetsAll_eq hbody htargets]
      | choose others alternative => cases alternative <;> cases hmap
      | _ => cases hmap
  | renderComponent name target =>
      cases second with
      | renderComponent other target' =>
          injection hmap with hname
          injection htargets with htarget
          rw [hname, htarget]
      | choose others alternative => cases alternative <;> cases hmap
      | _ => cases hmap
  | beginProps | initProperty | createProperty | initChildren | sealChildren =>
      cases second with
      | choose others alternative => cases alternative <;> cases hmap
      | _ => cases hmap <;> rfl

/-- Bodies that a move makes the same are the same if their targets are. -/
theorem eq_of_mapTargetsAll_eq {first second : List Statement}
    (hmap : mapTargetsAll move first = mapTargetsAll move second)
    (htargets : targetsAll first = targetsAll second) : first = second := by
  cases first with
  | nil =>
      cases second with
      | nil => rfl
      | cons other others => cases hmap
  | cons statement rest =>
      cases second with
      | nil => cases hmap
      | cons other others =>
          injection hmap with hstatement hrest
          obtain ⟨hleft, hright⟩ := List.append_inj htargets (length_targets_eq hstatement)
          rw [eq_of_mapTargets_eq hstatement hleft, eq_of_mapTargetsAll_eq hrest hright]

theorem eq_of_mapTargetsBranches_eq {first second : List Branch}
    (hmap : mapTargetsBranches move first = mapTargetsBranches move second)
    (htargets : targetsBranches first = targetsBranches second) : first = second := by
  cases first with
  | nil =>
      cases second with
      | nil => rfl
      | cons other others =>
          obtain ⟨condition, body⟩ := other
          cases hmap
  | cons branch rest =>
      obtain ⟨condition, body⟩ := branch
      cases second with
      | nil => cases hmap
      | cons other others =>
          obtain ⟨condition', body'⟩ := other
          injection hmap with hbranch hrest
          injection hbranch with hcondition hbody
          obtain ⟨hleft, hright⟩ := List.append_inj htargets (length_targetsAll_eq hbody)
          rw [hcondition, eq_of_mapTargetsAll_eq hbody hleft, eq_of_mapTargetsBranches_eq hrest hright]

end

end Determined

/-- Programs with the same skeleton and the same targets, in order, are the same. -/
theorem eq_iff_skeletonAll {first second : List Statement} :
    first = second ↔ skeletonAll first = skeletonAll second ∧ targetsAll first = targetsAll second := by
  constructor
  · rintro rfl
    exact ⟨rfl, rfl⟩
  · rintro ⟨hskeleton, htargets⟩
    exact eq_of_mapTargetsAll_eq hskeleton htargets

end ComponentTemplates.Statement
