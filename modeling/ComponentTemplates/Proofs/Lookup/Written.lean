/-
Module: ComponentTemplates.Proofs.Lookup.Written
Purpose: Paths as templates write them, and what the readers of paths make of them. A path is its steps
  joined by dots; a step is its name, with its arguments in double quotes and parentheses if it has any.
  Main statement: a written path is read as its steps (`parse?_written`).
Main exports: Lookup.Path.written, Lookup.Path.WellFormed, Lookup.parse?_written
-/
import ComponentTemplates.Proofs.Lookup.Quoted

namespace ComponentTemplates.Lookup

open Text

/-- The characters that no written argument holds. -/
def reservedInArguments : List Char := ['"', '(', ')', '%']

/-- A step that can be written: its name is an identifier, and its arguments hold no reserved character. -/
structure Step.WellFormed (step : Step) : Prop where
  name : Identifier.isIdentifier step.name.toList = true
  args : ∀ arg ∈ step.args, ∀ c ∈ arg.toList, c ∉ reservedInArguments

instance (step : Step) : Decidable step.WellFormed :=
  decidable_of_iff
    (Identifier.isIdentifier step.name.toList = true ∧
      (step.args.all fun arg => arg.toList.all fun c => c ∉ reservedInArguments) = true)
    ⟨fun h => ⟨h.1, by simpa using h.2⟩, fun h => ⟨h.name, by simpa using h.args⟩⟩

/-- An argument in double quotes. -/
def quoted (arg : String) : List Char :=
  '"' :: (arg.toList ++ ['"'])

/-- Arguments in double quotes, with commas and blanks between them. -/
def writtenArguments (args : List String) : List Char :=
  [',', ' '].intercalate (args.map quoted)

/-- A step as it is written. There are parentheses only if there are arguments. -/
def Step.written (step : Step) : List Char :=
  match step.args with
  | [] => step.name.toList
  | arg :: rest => step.name.toList ++ '(' :: (writtenArguments (arg :: rest) ++ [')'])

/-- The steps of a lookup, at least one. -/
abbrev Path := List Step

/-- A path as it is written. -/
def Path.written (path : Path) : List Char :=
  ['.'].intercalate (path.map Step.written)

/-- A path that can be written. -/
structure Path.WellFormed (path : Path) : Prop where
  nonempty : path ≠ []
  steps : ∀ step ∈ path, step.WellFormed

instance (path : Path) : Decidable path.WellFormed :=
  decidable_of_iff (path ≠ [] ∧ ∀ step ∈ path, step.WellFormed)
    ⟨fun h => ⟨h.1, h.2⟩, fun h => ⟨h.nonempty, h.steps⟩⟩

/-- What can be written can stand between double quotes. -/
theorem Step.WellFormed.fitsIn {step : Step} (hstep : step.WellFormed) : step.FitsIn '"' := by
  refine ⟨hstep.name, ?_⟩
  intro arg harg c hc
  have hreserved := hstep.args arg harg c hc
  simp only [reservedInArguments, List.mem_cons, not_or] at hreserved
  exact ⟨hreserved.1, hreserved.2.1, hreserved.2.2.1⟩

/-- Between the parentheses there are no further ones. -/
theorem not_mem_reserved_of_mem_writtenArguments {c : Char} {step : Step} (hstep : step.WellFormed)
    (h : c ∈ writtenArguments step.args) : c ≠ '(' ∧ c ≠ ')' ∧ c ≠ '%' := by
  have hwritten : c ∈ argumentsIn '"' step.args := h
  obtain ⟨hopen, hclose⟩ := hstep.fitsIn.not_mem_parentheses (.inl rfl) hwritten
  refine ⟨hopen, hclose, ?_⟩
  rintro rfl
  rcases mem_argumentsIn hwritten with hc | ⟨arg, harg, hc⟩
  · exact absurd hc (by decide)
  · exact hstep.args arg harg '%' hc (by decide)

/-- In double quotes, a step is written as templates write it. -/
theorem Step.written_rawIn (step : Step) : (step.rawIn '"').written = step.written := by
  obtain ⟨name, args⟩ := step
  cases args with
  | nil => rfl
  | cons arg rest => rfl

namespace Path

theorem written_rawIn (path : Path) : (rawIn '"' path).written = path.written := by
  have hsteps : RawStep.written ∘ Step.rawIn '"' = Step.written := funext Step.written_rawIn
  rw [RawPath.written, rawIn, List.map_map, hsteps, written]

variable {path : Path} (hpath : path.WellFormed)

include hpath

theorem WellFormed.rawIn : (rawIn '"' path).WellFormed :=
  wellFormed_rawIn (.inl rfl) (fun step hstep => (hpath.steps step hstep).fitsIn) hpath.nonempty

/-- A written path begins with a character of an identifier. -/
theorem written_eq_cons :
    ∃ c rest, path.written = c :: rest ∧ Identifier.isRest c = true := by
  rw [← written_rawIn]
  exact RawPath.written_eq_cons hpath.rawIn

theorem isBlank_last : ∀ c ∈ path.written.getLast?, isBlank c = false := by
  rw [← written_rawIn]
  exact RawPath.isBlank_last hpath.rawIn

end Path

/-- A written path is read as its steps, with a dollar sign in front of it or without. -/
theorem parse?_written {path : Path} (hpath : path.WellFormed) (mode : Mode) :
    parse? (String.ofList path.written) mode = some { steps := path, mode } ∧
      parse? (String.ofList ('$' :: path.written)) mode = some { steps := path, mode } := by
  have hsteps : ∀ step ∈ path, step.FitsIn '"' := fun step hstep => (hpath.steps step hstep).fitsIn
  obtain ⟨hdollar, hbare⟩ := RawPath.barePath_written hpath.rawIn
  rw [← Path.written_rawIn]
  exact ⟨parse?_rawIn (.inl rfl) hsteps hpath.nonempty hbare mode,
    parse?_rawIn (.inl rfl) hsteps hpath.nonempty hdollar mode⟩

theorem Step.percent_not_mem_written {step : Step} (hstep : step.WellFormed) :
    '%' ∉ step.written := by
  have hname : '%' ∉ step.name.toList := by
    intro hmem
    exact Identifier.ne_of_isRest (Identifier.isRest_of_mem hstep.name hmem) (by decide) rfl
  have hargs : '%' ∉ writtenArguments step.args :=
    fun hmem => (not_mem_reserved_of_mem_writtenArguments hstep hmem).2.2 rfl
  unfold Step.written
  split
  · exact hname
  · rename_i arg others heq
    rw [heq] at hargs
    simp [hname, hargs]

namespace Path

/-- A path is written as its first step, and each further one behind a dot. -/
theorem written_eq_append (step : Step) (rest : Path) :
    written (step :: rest) = step.written ++ rest.flatMap fun next => '.' :: next.written :=
  intercalate_map_cons ['.'] step rest

/-- A written path is without percent signs, so no tag ends in it. -/
theorem percent_not_mem_written {path : Path} (hpath : path.WellFormed) : '%' ∉ path.written := by
  obtain ⟨step, rest, hrest⟩ := List.exists_cons_of_ne_nil hpath.nonempty
  have hsteps := hpath.steps
  rw [hrest] at hsteps ⊢
  rw [written_eq_append]
  intro hmem
  rcases List.mem_append.1 hmem with hmem | hmem
  · exact Step.percent_not_mem_written (hsteps step (List.mem_cons_self ..)) hmem
  · obtain ⟨next, hnext, hmem⟩ := List.mem_flatMap.1 hmem
    rcases List.mem_cons.1 hmem with heq | hmem
    · exact absurd heq (by decide)
    · exact Step.percent_not_mem_written (hsteps next (List.mem_cons_of_mem _ hnext)) hmem

end Path

end ComponentTemplates.Lookup
