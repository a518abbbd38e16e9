/-
Module: ComponentTemplates.Proofs.Execution.Effect
Purpose: What code does that only ever adds markup somewhere. Its effect in a scope is the calls that it
  makes and the markup that it writes, or the error that stops it; the effect is one and the same
  wherever the markup goes, to the page or to inner markup, and whatever else the machine holds.
  Effects are put one behind another, carried through a change of scope, and added up over a loop.
Main exports: Machine.Accepts, Machine.written, Effect, Effect.Leads, Host.Decides, Effect.Heeds,
  Effect.Describes, HasEffect, HasEffect.andThen, HasEffect.inScope, HasEffect.iterate
-/
import ComponentTemplates.Proofs.Bindings
import ComponentTemplates.Proofs.Execution.Basic

namespace ComponentTemplates

namespace Machine

/-- The target can take markup: the page always can, inner markup while it is being written. -/
def Accepts (machine : Machine) : Target → Prop
  | .page => True
  | .children => ∃ frame outer html, machine.frames = frame :: outer ∧
      Bindings.get? frame childrenProperty = some (.markup html)
  | .property _ => False

/-- The machine with markup added to the target. -/
def written (machine : Machine) (target : Target) (html : String) : Machine :=
  (machine.write target html).2

theorem written_page (machine : Machine) (html : String) :
    machine.written .page html = { machine with page := machine.page ++ html } := rfl

/-- Markup for the children is added to the inner markup of the map in sight. -/
theorem written_children (machine : Machine) {frame : Slots} {outer : List Slots} {html : String}
    (hslot : Bindings.get? frame childrenProperty = some (.markup html)) (more : String) :
    ({ machine with frames := frame :: outer } : Machine).written .children more =
      { machine with
        frames := Bindings.insert frame childrenProperty (.markup (html ++ more)) :: outer } := by
  rw [written, write, addChildren_eq machine hslot]
  rfl

/-- The machine with more calls on record. -/
def calling (machine : Machine) (calls : List HostCall) : Machine :=
  { machine with calls := machine.calls ++ calls }

/-- The machine in another scope. -/
def inScope (machine : Machine) (scope : Scope) : Machine :=
  { machine with scope }

/-- A machine that takes inner markup, with the map of properties that holds it in sight. -/
theorem Accepts.children {machine : Machine} (h : machine.Accepts .children) :
    ∃ frame outer html, machine = { machine with frames := frame :: outer } ∧
      Bindings.get? frame childrenProperty = some (.markup html) := by
  obtain ⟨frame, outer, html, hframes, hslot⟩ := h
  refine ⟨frame, outer, html, ?_, hslot⟩
  rw [← hframes]

/-- A target that takes markup takes it without fail. -/
theorem write_eq {machine : Machine} {target : Target} (h : machine.Accepts target) (html : String) :
    machine.write target html = (machine.written target html).done := by
  cases target with
  | page => rfl
  | property name => cases h
  | children =>
      obtain ⟨frame, outer, old, hmachine, hslot⟩ := h.children
      rw [hmachine, written_children machine hslot, write, addChildren_eq machine hslot]

@[simp] theorem scope_written (machine : Machine) (target : Target) (html : String) :
    (machine.written target html).scope = machine.scope := by
  cases target with
  | page => rfl
  | property name => rfl
  | children =>
      unfold written write addChildren updateFrame
      dsimp only
      split
      · rfl
      · split <;> rfl

@[simp] theorem calls_written (machine : Machine) (target : Target) (html : String) :
    (machine.written target html).calls = machine.calls := by
  cases target with
  | page => rfl
  | property name => rfl
  | children =>
      unfold written write addChildren updateFrame
      dsimp only
      split
      · rfl
      · split <;> rfl

@[simp] theorem calling_nil (machine : Machine) : machine.calling [] = machine := by
  simp [calling]

theorem calling_calling (machine : Machine) (first second : List HostCall) :
    (machine.calling first).calling second = machine.calling (first ++ second) := by
  simp [calling]

/-- What is written has nothing to do with the calls on record. -/
theorem written_calling (machine : Machine) (calls : List HostCall) (target : Target)
    (html : String) :
    (machine.calling calls).written target html = (machine.written target html).calling calls := by
  cases target with
  | page => rfl
  | property name => rfl
  | children =>
      unfold written write addChildren updateFrame calling
      dsimp only
      split
      · rfl
      · split <;> rfl

/-- What is written has nothing to do with the scope. -/
theorem written_inScope (machine : Machine) (scope : Scope) (target : Target) (html : String) :
    (machine.inScope scope).written target html = (machine.written target html).inScope scope := by
  cases target with
  | page => rfl
  | property name => rfl
  | children =>
      unfold written write addChildren updateFrame inScope
      dsimp only
      split
      · rfl
      · split <;> rfl

theorem Accepts.calling {machine : Machine} {target : Target} (h : machine.Accepts target)
    (calls : List HostCall) : (machine.calling calls).Accepts target := by
  cases target with
  | page => exact h
  | property name => exact h
  | children => exact h

theorem Accepts.inScope {machine : Machine} {target : Target} (h : machine.Accepts target)
    (scope : Scope) : (machine.inScope scope).Accepts target := by
  cases target with
  | page => exact h
  | property name => exact h
  | children => exact h

/-- A target takes more markup behind what has been written to it. -/
theorem Accepts.written {machine : Machine} {target : Target} (h : machine.Accepts target)
    (html : String) : (machine.written target html).Accepts target := by
  cases target with
  | page => exact h
  | property name => cases h
  | children =>
      obtain ⟨frame, outer, old, hmachine, hslot⟩ := h.children
      rw [hmachine, written_children machine hslot]
      refine ⟨_, outer, old ++ html, rfl, ?_⟩
      rw [Bindings.get?_insert, if_pos rfl]

/-- Markup is written to a target in order. -/
theorem written_written {machine : Machine} {target : Target} (h : machine.Accepts target)
    (first second : String) :
    (machine.written target first).written target second =
      machine.written target (first ++ second) := by
  cases target with
  | page => simp [written_page, String.append_assoc]
  | property name => cases h
  | children =>
      obtain ⟨frame, outer, old, hmachine, hslot⟩ := h.children
      have hbegun := Bindings.get?_insert frame childrenProperty (.markup (old ++ first))
        childrenProperty
      rw [if_pos rfl] at hbegun
      rw [hmachine, written_children machine hslot, written_children machine hslot,
        written_children machine hbegun, Bindings.insert_insert, String.append_assoc]

theorem written_empty {machine : Machine} {target : Target} (h : machine.Accepts target) :
    machine.written target "" = machine := by
  cases target with
  | page => simp [written_page]
  | property name => cases h
  | children =>
      obtain ⟨frame, outer, old, hmachine, hslot⟩ := h.children
      rw [hmachine, written_children machine hslot, String.append_empty,
        Bindings.insert_of_get? hslot]

end Machine

/-- What code does to a machine that it adds markup to. -/
structure Effect where
  calls : List HostCall
  /-- The markup, or the error that stops the code. -/
  result : Except RenderError String

namespace Effect

/-- The effect leads from the machine to the outcome: to the machine that its markup is to reach, with
its calls on record. Of a machine that has been stopped only the calls are fixed. -/
def Leads (effect : Effect) (machine : Machine) (reach : String → Machine) (outcome : Outcome) :
    Prop :=
  match effect.result with
  | .ok html => outcome = ((reach html).calling effect.calls).done
  | .error error => outcome.1 = .error error ∧ outcome.2.calls = machine.calls ++ effect.calls

/-- The effect of doing nothing. -/
def nothing : Effect :=
  { calls := [], result := .ok "" }

/-- One effect and then another, which knows the markup of the first. -/
def bind (first : Effect) (next : String → Effect) : Effect :=
  match first.result with
  | .ok html => { calls := first.calls ++ (next html).calls, result := (next html).result }
  | .error _ => first

/-- The effect with more markup in front of its own. -/
def behind (effect : Effect) (html : String) : Effect :=
  { effect with result := effect.result.map (html ++ ·) }

/-- One effect and then another, with the markup of both. -/
def andThen (first second : Effect) : Effect :=
  first.bind second.behind

/-- Doing nothing leads a machine to itself. -/
theorem leads_nothing {machine : Machine} {target : Target} (h : machine.Accepts target) :
    nothing.Leads machine (machine.written target) machine.done := by
  change machine.done = ((machine.written target "").calling []).done
  rw [Machine.calling_nil, Machine.written_empty h]

/-- What leads from a machine, and from wherever it leads on, leads all the way. -/
theorem Leads.bind {first : Effect} {next : String → Effect} {machine : Machine}
    {reach arrive : String → Machine} {outcome : Outcome} {step : Machine → Outcome}
    (hfirst : first.Leads machine reach outcome)
    (hcalls : ∀ html, (reach html).calls = machine.calls)
    (hnext : ∀ html, (next html).Leads ((reach html).calling first.calls)
      (fun more => (arrive more).calling first.calls) (step ((reach html).calling first.calls))) :
    (first.bind next).Leads machine arrive (outcome.andThen step) := by
  obtain ⟨calls, result⟩ := first
  cases result with
  | error error =>
      obtain ⟨herror, hmade⟩ := hfirst
      obtain ⟨status, after⟩ := outcome
      dsimp only at herror
      subst herror
      exact ⟨rfl, hmade⟩
  | ok html =>
      have houtcome : outcome = ((reach html).calling calls).done := hfirst
      have hstep := hnext html
      rw [houtcome, Outcome.done_andThen]
      unfold Leads at hstep
      simp only [Leads, Effect.bind]
      cases hresult : (next html).result with
      | error error =>
          rw [hresult] at hstep
          refine ⟨hstep.1, hstep.2.trans ?_⟩
          change (reach html).calls ++ calls ++ (next html).calls = _
          rw [hcalls, List.append_assoc]
      | ok more =>
          rw [hresult] at hstep
          dsimp only at hstep ⊢
          rw [hstep, Machine.calling_calling]

/-- A last step that makes no call and cannot fail. -/
theorem Leads.finish {effect : Effect} {machine : Machine} {reach arrive : String → Machine}
    {outcome : Outcome} {step : Machine → Outcome} (h : effect.Leads machine reach outcome)
    (hstep : ∀ html, step ((reach html).calling effect.calls) =
      ((arrive html).calling effect.calls).done) :
    effect.Leads machine arrive (outcome.andThen step) := by
  obtain ⟨calls, result⟩ := effect
  cases result with
  | error error =>
      obtain ⟨herror, hmade⟩ := h
      obtain ⟨status, after⟩ := outcome
      dsimp only at herror
      subst herror
      exact ⟨rfl, hmade⟩
  | ok html =>
      have houtcome : outcome = ((reach html).calling calls).done := h
      rw [houtcome, Outcome.done_andThen]
      exact hstep html

/-- One effect and then another lead to what the code and then the next code do. -/
theorem Leads.andThen {first second : Effect} {target : Target} {machine : Machine}
    {outcome : Outcome} {next : Machine → Outcome} (haccepts : machine.Accepts target)
    (hfirst : first.Leads machine (machine.written target) outcome)
    (hsecond : ∀ after : Machine, after.scope = machine.scope → after.Accepts target →
      second.Leads after (after.written target) (next after)) :
    (first.andThen second).Leads machine (machine.written target) (outcome.andThen next) := by
  apply Leads.bind hfirst (Machine.calls_written machine target)
  intro html
  have hnext := hsecond ((machine.written target html).calling first.calls)
    (Machine.scope_written machine target html) ((haccepts.written html).calling first.calls)
  obtain ⟨calls, result⟩ := second
  cases result with
  | error error => exact hnext
  | ok more =>
      change next _ = Machine.done (Machine.calling (Machine.written _ _ _) _) at hnext
      change next _ =
        (((machine.written target (html ++ more)).calling first.calls).calling calls).done
      rw [hnext, Machine.written_calling, Machine.written_written haccepts]

end Effect

/-- How a run ends that makes these calls. If it succeeds, all of them are answered; if it fails, the
last one fails, with the error that is the result, and all before it are answered. -/
def Host.Decides {α : Type} (host : Host) (calls : List HostCall) (result : Except RenderError α) :
    Prop :=
  match result with
  | .ok _ => ∀ call ∈ calls, ∃ value, host call = .ok value
  | .error error => ∃ earlier last, calls = earlier ++ [last] ∧ host last = .error error ∧
      ∀ call ∈ earlier, ∃ value, host call = .ok value

/-- The effect is decided by the host. -/
def Effect.Heeds (effect : Effect) (host : Host) : Prop :=
  host.Decides effect.calls effect.result

namespace Effect.Heeds

variable {host : Host} {first second : Effect}

/-- The host decides two effects in a row if it decides each. -/
theorem bind {next : String → Effect} (hfirst : first.Heeds host)
    (hnext : ∀ html, (next html).Heeds host) : (first.bind next).Heeds host := by
  obtain ⟨calls, result⟩ := first
  cases result with
  | error error => exact hfirst
  | ok html =>
      have hnext := hnext html
      unfold Effect.Heeds at hnext ⊢
      simp only [Effect.bind]
      cases hresult : (next html).result with
      | ok more =>
          rw [hresult] at hnext
          intro call hcall
          rcases List.mem_append.1 hcall with hcall | hcall
          · exact hfirst call hcall
          · exact hnext call hcall
      | error error =>
          rw [hresult] at hnext
          obtain ⟨earlier, last, hmore, hlast, hearlier⟩ := hnext
          refine ⟨calls ++ earlier, last, ?_, hlast, ?_⟩
          · rw [hmore, List.append_assoc]
          · intro call hcall
            rcases List.mem_append.1 hcall with hcall | hcall
            · exact hfirst call hcall
            · exact hearlier call hcall

theorem behind (h : first.Heeds host) (html : String) : (first.behind html).Heeds host := by
  obtain ⟨calls, result⟩ := first
  cases result with
  | error error => exact h
  | ok more => exact h

theorem andThen (hfirst : first.Heeds host) (hsecond : second.Heeds host) :
    (first.andThen second).Heeds host :=
  hfirst.bind hsecond.behind

end Effect.Heeds

/-- In the scope, the code has this effect on all machines whose target takes markup. -/
def Effect.Describes (effect : Effect) (scope : Scope) (target : Target)
    (code : Machine → Outcome) : Prop :=
  ∀ machine, machine.scope = scope → machine.Accepts target →
    effect.Leads machine (machine.written target) (code machine)

namespace Effect.Describes

variable {effect first second : Effect} {scope : Scope} {target : Target}
  {code next : Machine → Outcome}

/-- Code that does the same has the same effect. -/
theorem congr (h : effect.Describes scope target code)
    (heq : ∀ machine, machine.scope = scope → machine.Accepts target →
      next machine = code machine) :
    effect.Describes scope target next := by
  intro machine hscope haccepts
  rw [heq machine hscope haccepts]
  exact h machine hscope haccepts

theorem nothing : Effect.nothing.Describes scope target Machine.done :=
  fun _ _ haccepts => leads_nothing haccepts

/-- Code that writes what the scope tells it to. -/
theorem write (html : Scope → String) :
    Effect.Describes { calls := [], result := .ok (html scope) } scope target
      fun machine => machine.write target (html machine.scope) := by
  intro machine hscope haccepts
  change machine.write target (html machine.scope) =
    ((machine.written target (html scope)).calling []).done
  rw [Machine.write_eq haccepts, Machine.calling_nil, hscope]

/-- Two pieces of code in a row have one effect and then the other. -/
theorem andThen (hcode : first.Describes scope target code)
    (hnext : second.Describes scope target next) :
    (first.andThen second).Describes scope target fun machine => (code machine).andThen next := by
  intro machine hscope haccepts
  apply Leads.andThen haccepts (hcode machine hscope haccepts)
  intro after hafter
  exact hnext after (hafter.trans hscope)

/-- Code that runs in a scope of its own and leaves it again. -/
theorem inScope (enter : Scope → Scope) (hleave : (enter scope).pop = scope)
    (hcode : effect.Describes (enter scope) target code) :
    effect.Describes scope target fun machine =>
      (code (machine.inScope (enter machine.scope))).popScope := by
  intro machine hscope haccepts
  subst hscope
  have hleads := hcode (machine.inScope (enter machine.scope)) rfl (haccepts.inScope _)
  obtain ⟨calls, result⟩ := effect
  cases result with
  | error error => exact hleads
  | ok html =>
      change code _ = Machine.done (Machine.calling (Machine.written _ _ _) _) at hleads
      change (code (machine.inScope (enter machine.scope))).popScope =
        ((machine.written target html).calling calls).done
      rw [hleads, Machine.written_inScope]
      simp only [Outcome.popScope, Machine.done, Machine.calling, Machine.inScope, hleave]
      rw [← Machine.scope_written machine target html]

end Effect.Describes

/-- The effect that a run from an empty page shows. -/
def Outcome.effect (outcome : Outcome) : Effect :=
  { calls := outcome.2.calls, result := outcome.1.map fun _ => outcome.2.page }

theorem Outcome.effect_of_error {outcome : Outcome} {error : RenderError}
    (h : outcome.1 = .error error) :
    outcome.effect = { calls := outcome.2.calls, result := .error error } := by
  rw [effect, h]
  rfl

/-- A run that succeeds shows its calls and the page. -/
theorem Outcome.effect_of_ok {outcome : Outcome} (h : outcome.1 = .ok ()) :
    outcome.effect = { calls := outcome.2.calls, result := .ok outcome.2.page } := by
  rw [effect, h]
  rfl

/-- The page of a program is what its effect results in. -/
theorem runProgram_eq_effect (host : Host) (scope : Scope) (statements : List Statement) :
    runProgram host scope statements = (runMachine host scope statements).effect.result := by
  unfold runProgram Outcome.effect
  generalize runMachine host scope statements = outcome
  obtain ⟨status, machine⟩ := outcome
  cases status with
  | error error => rfl
  | ok done => rfl

/-- An effect that ends with an error shows in the status of the run. -/
theorem Outcome.status_of_effect {outcome : Outcome} {calls : List HostCall} {error : RenderError}
    (h : outcome.effect = { calls, result := .error error }) :
    outcome.2.calls = calls ∧ outcome.1 = .error error := by
  cases hstatus : outcome.1 with
  | ok done =>
      rw [effect_of_ok hstatus] at h
      cases congrArg Effect.result h
  | error other =>
      rw [effect_of_error hstatus] at h
      cases h
      exact ⟨rfl, rfl⟩

/-- An effect that writes to an empty page shows in what is left. -/
theorem Effect.Leads.effect_eq {effect : Effect} {scope : Scope} {outcome : Outcome}
    (h : effect.Leads { scope } (({ scope } : Machine).written .page) outcome) :
    outcome.effect = effect := by
  obtain ⟨calls, result⟩ := effect
  cases result with
  | error error =>
      obtain ⟨hstatus, hcalls⟩ := h
      rw [Outcome.effect_of_error hstatus]
      exact congrArg (fun calls => Effect.mk calls (.error error)) hcalls
  | ok html =>
      change outcome = Machine.done (Machine.calling (Machine.written _ _ _) _) at h
      rw [h, Machine.written_page]
      simp [Machine.done, Machine.calling, Outcome.effect, Except.map]

/-- Doing nothing has no other effect than that of doing nothing. -/
theorem Effect.eq_nothing_of_describes_done {effect : Effect} {scope : Scope}
    (h : effect.Describes scope .page Machine.done) : effect = nothing :=
  (h { scope } rfl trivial).effect_eq.symm

/-- In the scope, the code has one effect for all machines and all targets that take markup, and no
error but the host's. -/
def HasEffect (host : Host) (scope : Scope) (run : Target → Machine → Outcome) : Prop :=
  ∃ effect : Effect, effect.Heeds host ∧
    ∀ target machine, machine.scope = scope → machine.Accepts target →
      effect.Leads machine (machine.written target) (run target machine)

namespace HasEffect

variable {host : Host} {scope : Scope} {run next : Target → Machine → Outcome}

theorem congr (h : HasEffect host scope run)
    (heq : ∀ target machine, machine.scope = scope → machine.Accepts target →
      next target machine = run target machine) :
    HasEffect host scope next := by
  obtain ⟨effect, hheeds, hrun⟩ := h
  exact ⟨effect, hheeds, fun target => Effect.Describes.congr (hrun target) (heq target)⟩

theorem nothing : HasEffect host scope fun _ machine => machine.done :=
  ⟨Effect.nothing, nofun, fun _ => Effect.Describes.nothing⟩

/-- Code that writes what the scope tells it to. -/
theorem write (html : Scope → String) :
    HasEffect host scope fun target machine => machine.write target (html machine.scope) :=
  ⟨{ calls := [], result := .ok (html scope) }, nofun, fun _ => Effect.Describes.write html⟩

/-- Two pieces of code in a row have an effect if each has. -/
theorem andThen (hrun : HasEffect host scope run) (hnext : HasEffect host scope next) :
    HasEffect host scope fun target machine => (run target machine).andThen (next target) := by
  obtain ⟨first, hfirst, hrun⟩ := hrun
  obtain ⟨second, hsecond, hnext⟩ := hnext
  exact ⟨first.andThen second, hfirst.andThen hsecond,
    fun target => Effect.Describes.andThen (hrun target) (hnext target)⟩

/-- Code that runs in a scope of its own and leaves it again. -/
theorem inScope (enter : Scope → Scope) (hleave : (enter scope).pop = scope)
    (hrun : HasEffect host (enter scope) run) :
    HasEffect host scope fun target machine =>
      (run target (machine.inScope (enter machine.scope))).popScope := by
  obtain ⟨effect, hheeds, hrun⟩ := hrun
  exact ⟨effect, hheeds, fun target => Effect.Describes.inScope enter hleave (hrun target)⟩

/-- A loop over items, if its body has an effect for each of them. -/
theorem iterate {body : Target → Machine → Outcome} (total : Nat) (items : List Value) (index : Nat)
    (hbody : ∀ item index, HasEffect host (scope.pushItem item index total) body) :
    HasEffect host scope fun target => ComponentTemplates.iterate (body target) total index items := by
  induction items generalizing index with
  | nil => exact nothing
  | cons item rest ih =>
      have hitem := inScope (fun scope => scope.pushItem item index total)
        (Scope.pop_pushItem scope item index total) (hbody item index)
      exact hitem.andThen (ih (index + 1))

end HasEffect

end ComponentTemplates
