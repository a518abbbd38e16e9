/-
Module: ComponentTemplates.Proofs.Lookup.Source
Purpose: Lookups as generated code prints them show where they end, whatever their names and arguments
  are made of. The text of a lookup tells all of it, that of a condition tells all but the mode.
Main exports: Lookup.delimited_pathSource, Lookup.source_append_inj, Lookup.conditionSource_append_inj
-/
import ComponentTemplates.Lookup.Printer
import ComponentTemplates.Proofs.Text.Delimited

namespace ComponentTemplates.Lookup

open Text

/-- Arguments with their parentheses, if there are any. -/
def argumentsSource : List String → List Char
  | [] => []
  | arg :: rest =>
      '(' ::
        ([',', ' '].intercalate ((arg :: rest).map fun arg => (Quoted.literal arg).toList) ++ [')'])

/-- A step is printed as its name, quoted if need be, and its arguments. -/
theorem Step.toList_source (step : Step) :
    step.source.toList = (Quoted.name step.name).toList ++ argumentsSource step.args := by
  obtain ⟨name, args⟩ := step
  cases args with
  | nil => simp [Step.source, argumentsSource]
  | cons arg rest =>
      simp [Step.source, argumentsSource, List.map_map, Function.comp_def]

/-- Literals between commas are told apart up to a closing parenthesis. -/
theorem delimited_literals :
    Delimited (· = ')') fun args : List String =>
      [',', ' '].intercalate (args.map fun arg => (Quoted.literal arg).toList) := by
  apply Delimited.intercalate (by decide)
  · intro first second after others _ _ h
    exact Quoted.literal_append_inj.1 h
  · intro arg
    exact ⟨'\'', _, Quoted.toList_literal arg, by decide⟩

/-- Printed arguments are told apart up to a dot or a closing parenthesis. -/
theorem delimited_argumentsSource :
    Delimited (fun c => c = '.' ∨ c = ')') argumentsSource := by
  have hnone : ∀ {arg : String} {rest : List String} {before following : List Char},
      (∀ c ∈ before.head?, c = '.' ∨ c = ')') →
        before ≠ argumentsSource (arg :: rest) ++ following := by
    rintro arg rest before following hbefore rfl
    exact absurd (hbefore '(' rfl) (by decide)
  intro first second after others hafter hothers h
  cases first with
  | nil =>
      cases second with
      | nil => exact ⟨rfl, h⟩
      | cons arg rest => exact absurd h (hnone hafter)
  | cons arg rest =>
      cases second with
      | nil => exact absurd h.symm (hnone hothers)
      | cons other others =>
          simp only [argumentsSource, List.cons_append, List.append_assoc, List.cons.injEq,
            true_and] at h
          obtain ⟨hargs, hclosed⟩ := delimited_literals (by simp) (by simp) h
          exact ⟨hargs, by simpa using hclosed⟩

theorem Step.delimited_source :
    Delimited (fun c => c = '.' ∨ c = ')') fun step : Step => step.source.toList := by
  -- A name ends where its arguments begin, or at the end of the step.
  have hends : ∀ {args : List String} {after : List Char},
      (∀ c ∈ after.head?, c = '.' ∨ c = ')') →
        ∀ c ∈ (argumentsSource args ++ after).head?, Identifier.isRest c = false := by
    intro args after hafter c hc
    cases args with
    | nil =>
        rcases hafter c hc with rfl | rfl
        · decide
        · decide
    | cons arg rest =>
        obtain rfl : '(' = c := Option.some.inj hc
        decide
  intro first second after others hafter hothers h
  dsimp only at h
  rw [toList_source, toList_source, List.append_assoc, List.append_assoc] at h
  obtain ⟨hname, hrest⟩ := Quoted.delimited_name (hends hafter) (hends hothers) h
  obtain ⟨hargs, hafters⟩ := delimited_argumentsSource hafter hothers hrest
  obtain ⟨name, args⟩ := first
  obtain ⟨name', args'⟩ := second
  dsimp only at hname hargs
  exact ⟨by rw [hname, hargs], hafters⟩

theorem Step.source_first (step : Step) : ∃ c rest, step.source.toList = c :: rest ∧ c ≠ ')' := by
  obtain ⟨c, rest, hname, hc⟩ := Quoted.name_first step.name
  exact ⟨c, rest ++ argumentsSource step.args, by rw [toList_source, hname]; rfl, hc⟩

/-- A chain of steps in parentheses ends at the closing one. -/
theorem delimited_pathSource :
    Delimited (· = ')') fun steps : List Step => (pathSource steps).toList := by
  have hitems : Delimited (· = ')') fun steps : List Step =>
      ['.'].intercalate (steps.map fun step => step.source.toList) :=
    Delimited.intercalate (by decide) Step.delimited_source Step.source_first
  intro first second after others hafter hothers h
  apply hitems hafter hothers
  simpa [pathSource, List.map_map, Function.comp_def] using h

theorem newline_not_mem_argumentsSource (args : List String) :
    '\n' ∉ argumentsSource args := by
  cases args with
  | nil => exact List.not_mem_nil
  | cons arg rest =>
      have hjoined : '\n' ∉ [',', ' '].intercalate
          ((arg :: rest).map fun arg => (Quoted.literal arg).toList) := by
        intro h
        rcases mem_intercalate_map h with hmem | ⟨other, _, hmem⟩
        · exact absurd hmem (by decide)
        · exact Quoted.newline_not_mem_literal other hmem
      unfold argumentsSource
      simpa using hjoined

theorem newline_not_mem_pathSource (steps : List Step) : '\n' ∉ (pathSource steps).toList := by
  intro h
  have hjoined : '\n' ∈ ['.'].intercalate (steps.map fun step => step.source.toList) := by
    simpa [pathSource, List.map_map, Function.comp_def] using h
  rcases mem_intercalate_map hjoined with hmem | ⟨step, _, hmem⟩
  · exact absurd hmem (by decide)
  · rw [Step.toList_source] at hmem
    rcases List.mem_append.1 hmem with hmem | hmem
    · exact Quoted.newline_not_mem_name step.name hmem
    · exact newline_not_mem_argumentsSource step.args hmem

variable {first second : Lookup} {after others : List Char}

/-- Printed lookups can be told apart, and it can be told where they end. -/
theorem source_append_inj :
    first.source.toList ++ after = second.source.toList ++ others ↔
      first = second ∧ after = others := by
  constructor
  · intro h
    obtain ⟨steps, mode⟩ := first
    obtain ⟨steps', mode'⟩ := second
    have hmode : mode = mode' ∧ (pathSource steps).toList ++ ')' :: after =
        (pathSource steps').toList ++ ')' :: others := by
      cases mode with
      | render =>
          cases mode' with
          | render => simpa [source, Mode.accessor] using h
          | object => simp [source, Mode.accessor] at h
      | object =>
          cases mode' with
          | render => simp [source, Mode.accessor] at h
          | object => simpa [source, Mode.accessor] using h
    obtain ⟨rfl, hpath⟩ := hmode
    obtain ⟨rfl, hafter⟩ := delimited_pathSource (by simp) (by simp) hpath
    exact ⟨rfl, by simpa using hafter⟩
  · rintro ⟨rfl, rfl⟩
    rfl

/-- Printed conditions can be told apart by their steps, and it can be told where they end. -/
theorem conditionSource_append_inj :
    first.conditionSource.toList ++ after = second.conditionSource.toList ++ others ↔
      first.steps = second.steps ∧ after = others := by
  constructor
  · intro h
    have hpath : (pathSource first.steps).toList ++ ')' :: after =
        (pathSource second.steps).toList ++ ')' :: others := by
      simpa [conditionSource] using h
    obtain ⟨hsteps, hafter⟩ := delimited_pathSource (by simp) (by simp) hpath
    exact ⟨hsteps, by simpa using hafter⟩
  · rintro ⟨hsteps, rfl⟩
    rw [conditionSource, conditionSource, hsteps]

end ComponentTemplates.Lookup
