/-
Module: ComponentTemplates.Proofs.Lookup.Quoted
Purpose: Paths whose arguments stand between quotes, of either kind. The reader of arguments ends one at
  the next quote of its kind, so that between the quotes anything may stand but that quote, and the reader
  of paths lets no parenthesis stand in an argument. Main statement: whatever comes down to such a path is
  read as its steps (`parse?_rawIn`).
Main exports: Lookup.quotedIn, Lookup.argumentsIn, Lookup.Step.FitsIn, Lookup.rawIn, Lookup.parse?_rawIn
-/
import ComponentTemplates.Proofs.Lookup.Raw

namespace ComponentTemplates.Lookup

open Text

/-- An argument between quotes. -/
def quotedIn (quote : Char) (arg : String) : List Char :=
  quote :: (arg.toList ++ [quote])

/-- Arguments between quotes, with commas and blanks between them. -/
def argumentsIn (quote : Char) (args : List String) : List Char :=
  [',', ' '].intercalate (args.map (quotedIn quote))

/-- A step that can be written with its arguments between such quotes. -/
structure Step.FitsIn (quote : Char) (step : Step) : Prop where
  name : Identifier.isIdentifier step.name.toList = true
  args : ∀ arg ∈ step.args, ∀ c ∈ arg.toList, c ≠ quote ∧ c ≠ '(' ∧ c ≠ ')'

/-- The step as it stands in a text. There are parentheses only if there are arguments. -/
def Step.rawIn (quote : Char) (step : Step) : RawStep where
  name := step.name.toList
  arguments := match step.args with
    | [] => none
    | arg :: rest => some (argumentsIn quote (arg :: rest))

/-- The path as it stands in a text. -/
def rawIn (quote : Char) (steps : List Step) : RawPath :=
  steps.map (Step.rawIn quote)

/-- What stands between the parentheses is an argument's or one of the separators and quotes. -/
theorem mem_argumentsIn {quote c : Char} {args : List String} (h : c ∈ argumentsIn quote args) :
    c ∈ [',', ' ', quote] ∨ ∃ arg ∈ args, c ∈ arg.toList := by
  rcases mem_intercalate_map h with hc | ⟨arg, harg, hc⟩
  · exact .inl (List.mem_append_left [quote] hc)
  · rcases List.mem_cons.1 hc with hc | hc
    · exact .inl (by simp [hc])
    · rcases List.mem_append.1 hc with hc | hc
      · exact .inr ⟨arg, harg, hc⟩
      · exact .inl (by simp [List.mem_singleton.1 hc])

/-- The arguments in parentheses, if there are any, are the arguments. -/
theorem Step.getD_arguments_rawIn (quote : Char) (step : Step) :
    (step.rawIn quote).arguments.getD [] = argumentsIn quote step.args := by
  obtain ⟨name, args⟩ := step
  cases args with
  | nil => rfl
  | cons arg rest => rfl

section Reading

variable {quote : Char} (hquote : quote = '"' ∨ quote = '\'')

include hquote

/-- A quoted text at the front is read as the first argument. -/
theorem arguments_quotedIn {text : List Char} (htext : quote ∉ text) (rest : List Char) :
    arguments (quote :: (text ++ quote :: rest)) = text :: arguments rest := by
  have hends : endsArgument quote = false := by
    rcases hquote with rfl | rfl
    · decide
    · decide
  have hcut : quotedArgument? quote (text ++ quote :: rest) = some (text, rest) := by
    rw [quotedArgument?, if_pos (by simpa using hquote), cut?_char htext]
  rw [arguments, if_neg (by simp [hends])]
  split
  · rename_i found after hfound
    rw [hcut] at hfound
    cases hfound
    rfl
  · rename_i hnone
    rw [hcut] at hnone
    cases hnone

/-- Arguments between quotes are read as what stands there. -/
theorem arguments_argumentsIn {args : List String} (hargs : ∀ arg ∈ args, quote ∉ arg.toList) :
    arguments (argumentsIn quote args) = args.map String.toList := by
  have hseparator : ∀ rest, arguments (',' :: ' ' :: rest) = arguments rest := by
    intro rest
    rw [arguments, if_pos (by decide), arguments, if_pos (by decide)]
  induction args with
  | nil => simp [argumentsIn, arguments]
  | cons arg rest ih =>
      have harg := hargs arg (List.mem_cons_self ..)
      have hrest := ih fun other hother => hargs other (List.mem_cons_of_mem _ hother)
      cases rest with
      | nil =>
          have hread := arguments_quotedIn hquote harg []
          simpa [argumentsIn, quotedIn, arguments] using hread
      | cons next others =>
          have hwritten : argumentsIn quote (arg :: next :: others) =
              quote :: (arg.toList ++ quote :: ',' :: ' ' :: argumentsIn quote (next :: others)) := by
            simp [argumentsIn, quotedIn]
          rw [hwritten, arguments_quotedIn hquote harg, hseparator, hrest]
          rfl

variable {step : Step} (hstep : step.FitsIn quote)

include hstep

/-- Between the parentheses there are no further ones. -/
theorem Step.FitsIn.not_mem_parentheses {c : Char} (h : c ∈ argumentsIn quote step.args) :
    c ≠ '(' ∧ c ≠ ')' := by
  rcases mem_argumentsIn h with hc | ⟨arg, harg, hc⟩
  · have hends : quote ≠ '(' ∧ quote ≠ ')' := by
      rcases hquote with rfl | rfl
      · decide
      · decide
    simp only [List.mem_cons, List.not_mem_nil, or_false] at hc
    rcases hc with rfl | rfl | rfl
    · decide
    · decide
    · exact hends
  · exact (hstep.args arg harg c hc).2

theorem Step.FitsIn.wellFormed_rawIn : (step.rawIn quote).WellFormed := by
  refine ⟨hstep.name, ?_⟩
  intro text htext hclose
  have hwritten : text = argumentsIn quote step.args := by
    rw [← Step.getD_arguments_rawIn, Option.mem_def.1 htext, Option.getD_some]
  rw [hwritten] at hclose
  exact (hstep.not_mem_parentheses hquote hclose).2 rfl

theorem Step.FitsIn.opened_rawIn : (step.rawIn quote).opened = 0 := by
  rw [RawStep.opened, Step.getD_arguments_rawIn]
  exact List.count_eq_zero.2 fun hopen => (hstep.not_mem_parentheses hquote hopen).1 rfl

/-- The step that is meant is the one that was written. -/
theorem Step.FitsIn.step_rawIn : (step.rawIn quote).step = step := by
  have hargs : arguments (argumentsIn quote step.args) = step.args.map String.toList :=
    arguments_argumentsIn hquote fun arg harg hmem => (hstep.args arg harg quote hmem).1 rfl
  rw [RawStep.step, Step.getD_arguments_rawIn, hargs]
  simp [Step.rawIn, Function.comp_def]

end Reading

section Path

variable {quote : Char} (hquote : quote = '"' ∨ quote = '\'') {steps : List Step}
  (hsteps : ∀ step ∈ steps, step.FitsIn quote)

include hquote hsteps

/-- A path of steps that fit in the quotes is well formed as it is written. -/
theorem wellFormed_rawIn (hnonempty : steps ≠ []) : (rawIn quote steps).WellFormed := by
  refine ⟨by simpa [rawIn] using hnonempty, ?_⟩
  intro step hstep
  obtain ⟨original, horiginal, rfl⟩ := List.mem_map.1 hstep
  exact (hsteps original horiginal).wellFormed_rawIn hquote

theorem closed_rawIn : (rawIn quote steps).Closed := by
  intro step hstep
  obtain ⟨original, horiginal, rfl⟩ := List.mem_map.1 (List.dropLast_subset _ hstep)
  exact (hsteps original horiginal).opened_rawIn hquote

/-- The steps of a path as it is written are the steps that were written. -/
theorem map_step_rawIn : (rawIn quote steps).map RawStep.step = steps := by
  have heach : ∀ step ∈ steps, (RawStep.step ∘ Step.rawIn quote) step = id step :=
    fun step hstep => (hsteps step hstep).step_rawIn hquote
  rw [rawIn, List.map_map, List.map_congr_left heach, List.map_id]

/-- What comes down to a path with arguments between quotes is read as its steps. -/
theorem parse?_rawIn (hnonempty : steps ≠ []) {cs : List Char}
    (hbare : barePath cs = (rawIn quote steps).written) (mode : Mode) :
    parse? (String.ofList cs) mode = some { steps, mode } := by
  rw [parse?_of_barePath (wellFormed_rawIn hquote hsteps hnonempty) hbare,
    if_pos (closed_rawIn hquote hsteps), map_step_rawIn hquote hsteps]

end Path

end ComponentTemplates.Lookup
