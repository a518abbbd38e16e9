/-
Module: ComponentTemplates.Proofs.Command.Compile
Purpose: The code of a program in parts. A program ends at the level that it begins at, level zero, so
  that the code of programs in a row is their code, each on lines of its own (`toSource_append`). So
  what is reported for a file of tags is the code of one program, the statements of its tags in a row
  (`compileFiles_spliced`).
Main exports: toSource_append, toSource_flatten, Production.spliced, compileFiles_spliced
-/
import ComponentTemplates.Command.Compile
import ComponentTemplates.Files.Tree
import ComponentTemplates.Proofs.Invocation.Shape
import ComponentTemplates.Proofs.Statement.Indentation

namespace ComponentTemplates

namespace Statement

/-- Generated code begins at level zero and cannot fall below it. -/
theorem levelAfter_linesAll (statements : List Statement) :
    (linesAll statements).foldl CodeLine.levelAfter 0 = 0 := by
  have hlevel := Nesting.level_foldl_step (linesAll statements) ⟨0, 0⟩
  rw [nesting_linesAll] at hlevel
  rw [← hlevel]
  exact Nat.zero_sub _

/-- Programs one after the other have their lines placed one after the other, each from the margin. -/
theorem placed_linesAll_append (first second : List Statement) :
    CodeLine.placed 0 (linesAll (first ++ second)) =
      CodeLine.placed 0 (linesAll first) ++ CodeLine.placed 0 (linesAll second) := by
  rw [linesAll_append, CodeLine.placed_append, levelAfter_linesAll]

theorem placed_linesAll_ne_nil {statements : List Statement} (h : statements ≠ []) :
    CodeLine.placed 0 (linesAll statements) ≠ [] := by
  obtain ⟨line, rest, hlines⟩ := List.ne_nil_iff_exists_cons.1 (linesAll_ne_nil h)
  simp [hlines, CodeLine.placed]

/-- The code of two programs in a row is their code, each on lines of its own. -/
theorem toSource_append {first second : List Statement} (hfirst : first ≠ [])
    (hsecond : second ≠ []) :
    toSource (first ++ second) = toSource first ++ "\n" ++ toSource second := by
  rw [toSource_eq, placed_linesAll_append, List.map_append,
    String.intercalate_append_of_ne_nil, ← toSource_eq, ← toSource_eq]
  · simpa using placed_linesAll_ne_nil hfirst
  · simpa using placed_linesAll_ne_nil hsecond

/-- Only the empty program has no code. -/
theorem toSource_eq_empty_iff (statements : List Statement) :
    toSource statements = "" ↔ statements = [] := by
  constructor
  · intro h
    by_contra hne
    have hlines := textLines_toSource statements
    rw [h] at hlines
    have hnone : (linesAll statements).map (fun line => line.source.toList) = [] := hlines.symm
    exact linesAll_ne_nil hne (List.map_eq_nil_iff.1 hnone)
  · rintro rfl
    rfl

/-- The code of programs in a row, none of which is empty. -/
theorem toSource_flatten (programs : List (List Statement))
    (h : ∀ program ∈ programs, program ≠ []) :
    toSource programs.flatten = "\n".intercalate (programs.map toSource) := by
  induction programs with
  | nil => rfl
  | cons program rest ih =>
      obtain ⟨hprogram, hrest⟩ := List.forall_mem_cons.1 h
      cases rest with
      | nil => simp
      | cons next others =>
          have hothers : (next :: others).flatten ≠ [] := by
            rw [List.flatten_cons]
            exact List.append_ne_nil_of_left_ne_nil (hrest next (List.mem_cons_self ..)) _
          have hsources : (next :: others).map toSource ≠ [] := List.cons_ne_nil _ _
          rw [List.flatten_cons, toSource_append hprogram hothers, ih hrest,
            List.map_cons (a := program), String.intercalate_cons_of_ne_nil hsources]

end Statement

open Statement

/-! ## Files of tags -/

/-- The statements that a tag is compiled to; none, if it is refused. -/
def Production.spliced (production : Production) : List Statement :=
  match production.compile with
  | .ok invocation => invocation.statements
  | .error _ => []

/-- What is reported for a file, once its tags have been loaded: the code of all their statements in a
row. -/
def splicedFiles (path : String) : Except CommandError (List Production) → List CompiledFile
  | .ok productions => [{ path, source := toSource (productions.flatMap Production.spliced) }]
  | .error _ => []

/-- The programs of the tags that are not refused. -/
def compiledPrograms (productions : List Production) : List (List Statement) :=
  productions.filterMap fun production => production.compile.toOption.map Invocation.statements

/-- The compiled programs together are the spliced statements of the productions. -/
theorem flatten_compiledPrograms (productions : List Production) :
    (compiledPrograms productions).flatten = productions.flatMap Production.spliced := by
  induction productions with
  | nil => rfl
  | cons production rest ih =>
      unfold compiledPrograms at ih ⊢
      rw [List.flatMap_cons, ← ih, List.filterMap_cons, Production.spliced]
      cases production.compile <;> rfl

theorem ne_nil_of_mem_compiledPrograms {productions : List Production} :
    ∀ program ∈ compiledPrograms productions, program ≠ [] := by
  intro program h
  obtain ⟨production, -, hprogram⟩ := List.mem_filterMap.1 h
  obtain ⟨invocation, hcompile, rfl⟩ := exists_ok_of_map_toOption hprogram
  rw [(Production.statements_of_compile hcompile).1]
  exact List.cons_ne_nil _ _

/-- The code of a file's tags is that of their statements in a row. -/
theorem files_compileFile (logger : Logger) (path : String) (productions : List Production) :
    (compileFile logger path productions).files = splicedFiles path (.ok productions) := by
  rw [splicedFiles, ← flatten_compiledPrograms, toSource_flatten _ ne_nil_of_mem_compiledPrograms]
  refine congrArg (fun sources => [{ path, source := "\n".intercalate sources : CompiledFile }]) ?_
  induction productions with
  | nil => rfl
  | cons production rest ih =>
      unfold compiledPrograms compileAll at ih ⊢
      rw [List.map_cons, List.zip_cons_cons, List.filterMap_cons, List.filterMap_cons, ih]
      cases production.compile <;> rfl

section Files

variable {m : Type → Type} [Monad m] [LawfulMonad m] (files : FileSystem m)

/-- The files that loading and compiling a path reports are the spliced ones. -/
theorem files_loadAndCompile (logger : Logger) (path : String) :
    CompileReport.files <$> loadAndCompile files logger path =
      splicedFiles path <$> loadProductions files path := by
  rw [loadAndCompile, map_bind, map_eq_pure_bind]
  congr 1
  funext loaded
  cases loaded with
  | ok productions => rw [map_pure, files_compileFile]
  | error error => rw [map_pure]; rfl

theorem map_mapM {α β γ : Type} (f : α → m β) (g : β → γ) (values : List α) :
    List.map g <$> values.mapM f = values.mapM fun value => g <$> f value := by
  induction values with
  | nil => simp
  | cons value rest ih =>
      simp only [List.mapM_cons, map_bind, map_pure, bind_map_left, List.map_cons, ← ih]

theorem files_foldl (reports : List CompileReport) (opening : CompileReport) :
    (reports.foldl (· ++ ·) opening).files =
      opening.files ++ (reports.map CompileReport.files).flatten := by
  induction reports generalizing opening with
  | nil => simp
  | cons report rest ih =>
      rw [List.foldl_cons, ih, List.map_cons, List.flatten_cons, ← List.append_assoc]
      rfl

/-- **Printing in parts**: the code of two programs in a row is their code, each on lines of its own,
whatever they are made of, and only the empty program has no code. So what is reported for a file is
the code of one program, the statements of all its tags in a row without those that are refused; and
this is reported for each file that is found and loaded, however files are come by. -/
theorem compileFiles_spliced (logger : Logger) (patterns : List String) :
    (∀ first second : List Statement, first ≠ [] → second ≠ [] →
      toSource (first ++ second) = toSource first ++ "\n" ++ toSource second) ∧
    (∀ statements, toSource statements = "" ↔ statements = []) ∧
    (∀ path productions, (compileFile logger path productions).files =
      [{ path, source := toSource (productions.flatMap Production.spliced) }]) ∧
    CompileReport.files <$> compileFiles files logger patterns = (do
      let (paths, _) ← discover files logger patterns
      let found ← paths.mapM fun path => splicedFiles path <$> loadProductions files path
      return found.flatten) := by
  refine ⟨fun _ _ => toSource_append, toSource_eq_empty_iff, files_compileFile logger, ?_⟩
  have hloaded : ∀ paths : List String,
      (paths.mapM fun path => splicedFiles path <$> loadProductions files path) =
        List.map CompileReport.files <$> paths.mapM (loadAndCompile files logger) := by
    intro paths
    rw [map_mapM]
    exact congrArg (paths.mapM ·) (funext fun path => (files_loadAndCompile files logger path).symm)
  rw [compileFiles, map_bind]
  congr 1
  funext ⟨paths, log⟩
  simp only [hloaded, map_bind, map_pure, bind_map_left, files_foldl, List.nil_append]

end Files

/-- A tag that is refused, between two that are compiled. -/
def menuFile : List Production :=
  [{ name := "Header" },
    { name := "Menu", attributes := [{ name := "items", value := [.opener .loop] }] },
    { name := "Footer", children := some [.choose [] none] }]

/-- The refused tag leaves no trace, and a choice without a branch ends at level zero nevertheless. -/
theorem compileFiles_spliced_menu :
    [Statement.choose [] none] ≠ [] ∧ [Statement.beginProps] ≠ [] ∧
      toSource ([.choose [] none] ++ [.beginProps]) = "\x7d" ++ "\n" ++ "props = [];" ∧
      (compileFile .none "menu.json" menuFile).files =
        [{ path := "menu.json"
           source := toSource
            ([.beginProps, .renderComponent "Header" .page] ++
              [.beginProps, .initChildren, .choose [] none, .sealChildren,
                .renderComponent "Footer" .page]) }] := by
  obtain ⟨happend, -, hfile, -⟩ :=
    compileFiles_spliced (Files.Node.folder []).access .none ["menu.json"]
  refine ⟨List.cons_ne_nil _ _, List.cons_ne_nil _ _, ?_, ?_⟩
  · exact happend _ _ (List.cons_ne_nil _ _) (List.cons_ne_nil _ _)
  · rw [hfile]
    rfl

end ComponentTemplates
