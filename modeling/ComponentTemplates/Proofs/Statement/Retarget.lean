/-
Module: ComponentTemplates.Proofs.Statement.Retarget
Purpose: Laws of retargeting. It keeps the skeleton of a program and moves every page among the targets
  (`eq_retargetAll_iff`); so it changes nothing exactly where nothing is written to the page
  (`retargetAll_eq_self_iff`). To retarget to the page is to do nothing, and to retarget twice is to
  retarget once, to where the first target is sent: code that has been sent to the inner markup is out
  of reach of any later retargeting.
Main exports: Statement.eq_retargetAll_iff, Statement.retargetAll_eq_self_iff,
  Statement.retargetAll_page, Statement.retargetAll_retargetAll, Statement.retargetAll_children
-/
import ComponentTemplates.Proofs.Statement.Targets

namespace ComponentTemplates

@[simp] theorem Target.page_redirect (target : Target) : Target.page.redirect target = target := by
  cases target <;> rfl

/-- Redirecting inside and then outside is redirecting to where the inside is redirected to. -/
theorem Target.redirect_redirect (outer inner target : Target) :
    outer.redirect (inner.redirect target) = (outer.redirect inner).redirect target := by
  cases target <;> rfl

namespace Statement

section Retarget

variable (target : Target)

mutual

/-- Redirecting a statement moves each of its targets. -/
theorem retarget_eq_mapTargets (statement : Statement) :
    statement.retarget target = statement.mapTargets target.redirect := by
  cases statement with
  | choose branches otherwise =>
      cases otherwise with
      | none => rw [retarget, mapTargets, retargetBranches_eq_mapTargetsBranches branches]
      | some body =>
          rw [retarget, mapTargets, retargetBranches_eq_mapTargetsBranches branches,
            retargetAll_eq_mapTargetsAll body]
  | loop subject body => rw [retarget, mapTargets, retargetAll_eq_mapTargetsAll body]
  | within scope body => rw [retarget, mapTargets, retargetAll_eq_mapTargetsAll body]
  | append | beginProps | initProperty | createProperty | initChildren | sealChildren
  | renderComponent => rfl

/-- Retargeting reaches every write. -/
theorem retargetAll_eq_mapTargetsAll (body : List Statement) :
    retargetAll target body = mapTargetsAll target.redirect body := by
  cases body with
  | nil => rfl
  | cons statement rest =>
      rw [retargetAll, mapTargetsAll, retarget_eq_mapTargets statement,
        retargetAll_eq_mapTargetsAll rest]

theorem retargetBranches_eq_mapTargetsBranches (branches : List Branch) :
    retargetBranches target branches = mapTargetsBranches target.redirect branches := by
  cases branches with
  | nil => rfl
  | cons branch rest =>
      obtain ⟨condition, body⟩ := branch
      rw [retargetBranches, mapTargetsBranches, retargetAll_eq_mapTargetsAll body,
        retargetBranches_eq_mapTargetsBranches rest]

end

/-- The program that retargeting makes, and no other, has the skeleton of the old one and its targets, but
for the pages. -/
theorem eq_retargetAll_iff {body other : List Statement} :
    other = retargetAll target body ↔ skeletonAll other = skeletonAll body ∧
      targetsAll other = (targetsAll body).map target.redirect := by
  have hskeleton : skeletonAll (retargetAll target body) = skeletonAll body := by
    rw [retargetAll_eq_mapTargetsAll, skeletonAll, mapTargetsAll_mapTargetsAll, skeletonAll]
  have htargets : targetsAll (retargetAll target body) = (targetsAll body).map target.redirect := by
    rw [retargetAll_eq_mapTargetsAll, targetsAll_mapTargetsAll]
  rw [eq_iff_skeletonAll, hskeleton, htargets]

/-- Where nothing is written to the page, retargeting changes nothing, and nowhere else. -/
theorem retargetAll_eq_self_iff {target : Target} (htarget : target ≠ .page) {body : List Statement} :
    retargetAll target body = body ↔ .page ∉ targetsAll body := by
  rw [eq_comm, eq_retargetAll_iff]
  constructor
  · rintro ⟨_, htargets⟩ hpage
    rw [htargets] at hpage
    obtain ⟨old, _, hold⟩ := List.mem_map.1 hpage
    cases old with
    | page => exact htarget hold
    | property name => cases hold
    | children => cases hold
  · intro hpage
    refine ⟨rfl, ?_⟩
    have hkept : ∀ old ∈ targetsAll body, target.redirect old = id old := by
      intro old hold
      cases old with
      | page => exact absurd hold hpage
      | property name => rfl
      | children => rfl
    rw [List.map_congr_left hkept, List.map_id]

end Retarget

/-- What writes to the page stays as it is when the page is the new target. -/
theorem retargetAll_page (body : List Statement) : retargetAll .page body = body := by
  have hredirect : Target.page.redirect = id := funext Target.page_redirect
  symm
  rw [eq_retargetAll_iff, hredirect, List.map_id]
  exact ⟨rfl, rfl⟩

/-- The second of two retargetings moves the first one's target. -/
theorem retargetAll_retargetAll (outer inner : Target) (body : List Statement) :
    retargetAll outer (retargetAll inner body) = retargetAll (outer.redirect inner) body := by
  simp only [retargetAll_eq_mapTargetsAll, mapTargetsAll_mapTargetsAll, Target.redirect_redirect]

/-- Inner markup does not follow the page. -/
theorem retargetAll_children (outer : Target) (body : List Statement) :
    retargetAll outer (retargetAll .children body) = retargetAll .children body :=
  retargetAll_retargetAll outer .children body

end Statement

end ComponentTemplates
