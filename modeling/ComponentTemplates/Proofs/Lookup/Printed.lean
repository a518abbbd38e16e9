/-
Module: ComponentTemplates.Proofs.Lookup.Printed
Purpose: Lookups as generated code prints them, given to the reader of templates. Where the printer has
  nothing to quote or to escape, it writes a path as templates do, with arguments in single quotes; so a
  printed path can be taken over into a template, with a dollar sign, in braces and among blanks
  (`parse?_pathSource`).
Main exports: Lookup.Step.Printable, Lookup.toList_pathSource, Lookup.parse?_pathSource
-/
import ComponentTemplates.Proofs.Lookup.Quoted
import ComponentTemplates.Proofs.Lookup.Source

namespace ComponentTemplates.Lookup

open Text

/-- The characters of arguments that the printer escapes, and those that no argument of a template holds. -/
def reservedInPrint : List Char := ['\'', '\\', '\n', '\r', '(', ')']

/-- A step that is printed as it is: its name is an identifier, and its arguments hold no reserved
character. -/
structure Step.Printable (step : Step) : Prop where
  name : Identifier.isIdentifier step.name.toList = true
  args : ∀ arg ∈ step.args, ∀ c ∈ arg.toList, c ∉ reservedInPrint

instance (step : Step) : Decidable step.Printable :=
  decidable_of_iff
    (Identifier.isIdentifier step.name.toList = true ∧
      (step.args.all fun arg => arg.toList.all fun c => c ∉ reservedInPrint) = true)
    ⟨fun h => ⟨h.1, by simpa using h.2⟩, fun h => ⟨h.name, by simpa using h.args⟩⟩

/-- Text without reserved characters stands in a literal as it is. -/
theorem toList_literal_of_plain {arg : String} (h : ∀ c ∈ arg.toList, c ∉ reservedInPrint) :
    (Quoted.literal arg).toList = quotedIn '\'' arg := by
  have hescape : ∀ c ∈ arg.toList, Quoted.escapeChar c = [c] := by
    intro c hc
    have hplain := h c hc
    simp only [reservedInPrint, List.mem_cons, not_or] at hplain
    obtain ⟨hquote, hbackslash, hnewline, hreturn, -⟩ := hplain
    simp only [Quoted.escapeChar]
  have hwritten : arg.toList.flatMap Quoted.escapeChar = arg.toList := by
    rw [List.flatMap_congr hescape, List.flatMap_singleton']
  rw [Quoted.toList_literal, Quoted.write, hwritten]
  rfl

namespace Step.Printable

variable {step : Step} (hstep : step.Printable)

include hstep

/-- A printable step fits in single quotes. -/
theorem fitsIn : step.FitsIn '\'' := by
  refine ⟨hstep.name, ?_⟩
  intro arg harg c hc
  have hreserved := hstep.args arg harg c hc
  simp only [reservedInPrint, List.mem_cons, not_or] at hreserved
  exact ⟨hreserved.1, hreserved.2.2.2.2.1, hreserved.2.2.2.2.2.1⟩

/-- The printer writes such a step as it stands in a text. -/
theorem toList_source : step.source.toList = (step.rawIn '\'').written := by
  have hname : Quoted.name step.name = step.name := if_pos hstep.name
  have hliterals : step.args.map (fun arg => (Quoted.literal arg).toList) =
      step.args.map (quotedIn '\'') :=
    List.map_congr_left fun arg harg => toList_literal_of_plain (hstep.args arg harg)
  rw [Step.toList_source, hname]
  obtain ⟨name, args⟩ := step
  cases args with
  | nil => simp [argumentsSource, Step.rawIn, RawStep.written]
  | cons arg rest =>
      dsimp only [argumentsSource] at hliterals ⊢
      rw [hliterals]
      rfl

end Step.Printable

section Path

variable {steps : List Step} (hprintable : ∀ step ∈ steps, step.Printable)

include hprintable

/-- The printer writes such a path as it stands in a text. -/
theorem toList_pathSource : (pathSource steps).toList = (rawIn '\'' steps).written := by
  have hsteps : steps.map (fun step => step.source.toList) =
      steps.map (RawStep.written ∘ Step.rawIn '\'') :=
    List.map_congr_left fun step hstep => (hprintable step hstep).toList_source
  rw [pathSource, String.toList_intercalate, List.map_map, Function.comp_def, hsteps, RawPath.written,
    rawIn, List.map_map]
  rfl

/-- **A printed path is read as its steps**: be it as it was printed, with a dollar sign in front of it, or
with both in braces, and with blanks around that. -/
theorem parse?_pathSource (hsteps : steps ≠ []) (mode : Mode) {before after : String}
    (hbefore : ∀ c ∈ before.toList, isBlank c = true) (hafter : ∀ c ∈ after.toList, isBlank c = true) :
    ∀ written ∈ [pathSource steps, "$" ++ pathSource steps, "\x7b$" ++ pathSource steps ++ "\x7d"],
      parse? (before ++ written ++ after) mode = some { steps, mode } := by
  have hfits : ∀ step ∈ steps, step.FitsIn '\'' := fun step hstep => (hprintable step hstep).fitsIn
  have hpath := wellFormed_rawIn (.inr rfl) hfits hsteps
  have hsource := toList_pathSource hprintable
  obtain ⟨hdollar, hplain⟩ := RawPath.barePath_written hpath
  have hbraced := RawPath.barePath_braced hpath
  rw [← hsource] at hdollar hplain hbraced
  have hread : ∀ written : String, barePath written.toList = (pathSource steps).toList →
      parse? (before ++ written ++ after) mode = some { steps, mode } := by
    intro written hwritten
    rw [← String.ofList_toList (s := before ++ written ++ after)]
    apply parse?_rawIn (.inr rfl) hfits hsteps
    rw [String.toList_append, String.toList_append, List.append_assoc,
      RawPath.barePath_in_blanks hbefore hafter, hwritten, hsource]
  intro written hwritten
  simp only [List.mem_cons, List.not_mem_nil, or_false] at hwritten
  rcases hwritten with rfl | rfl | rfl
  · exact hread _ hplain
  · exact hread _ (by simpa using hdollar)
  · exact hread _ (by simpa using hbraced)

end Path

/-- There are a dot, a comma, double quotes and a blank in arguments, a dollar sign and braces, and there is
an argument without text. -/
theorem parse?_pathSource_menu :
    parse? "\t \x7b$Menu('a.b', '\"x\", y', '')._item1('é$\x7d\x7b').Title\x7d\u00a0\n" .object =
      some {
        steps := [⟨"Menu", ["a.b", "\"x\", y", ""]⟩, ⟨"_item1", ["é$\x7d\x7b"]⟩, ⟨"Title", []⟩]
        mode := .object } := by
  have hprintable : ∀ step ∈ [Step.mk "Menu" ["a.b", "\"x\", y", ""], ⟨"_item1", ["é$\x7d\x7b"]⟩,
      ⟨"Title", []⟩], step.Printable := by decide
  have hbefore : ∀ c ∈ "\t ".toList, isBlank c = true := List.all_eq_true.1 (by decide)
  have hafter : ∀ c ∈ "\u00a0\n".toList, isBlank c = true := List.all_eq_true.1 (by decide)
  rw [← parse?_pathSource hprintable (by decide) .object hbefore hafter _ (.tail _ (.tail _ (.head _)))]
  exact congrArg (parse? · .object) (by decide +kernel)

end ComponentTemplates.Lookup
