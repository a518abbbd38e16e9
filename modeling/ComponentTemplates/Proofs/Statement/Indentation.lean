/-
Module: ComponentTemplates.Proofs.Statement.Indentation
Purpose: The blocks of generated code as a reader of the text sees them: a line that begins with a
  closing brace ends a block, one that ends with an opening brace begins one, and a line is indented
  by two blanks for each block that it stands in. Just the code of programs whose choices all have a
  branch is nested like that (`toSource_nested_iff`).
Main exports: closesBlock, opensBlock, indentation, Nested, toSource_nested_iff
-/
import ComponentTemplates.Proofs.Statement.Nesting

namespace ComponentTemplates

open Text

/-! ## Blocks in a text -/

/-- Behind its blanks, the line begins with the end of a block. -/
def closesBlock (line : List Char) : Bool :=
  (line.dropWhile (· == ' ')).head? == some '\x7d'

/-- The line ends with the beginning of a block. -/
def opensBlock (line : List Char) : Bool :=
  line.getLast? == some '\x7b'

/-- The number of blanks that the line begins with. -/
def indentation (line : List Char) : Nat :=
  (line.takeWhile (· == ' ')).length

/-- Lines of text in which every line that ends a block ends one that a line before it has begun, and
every block is ended; each line is indented by the blocks that are open at it, of which the one that it
ends itself is none. -/
structure Nested (lines : List (List Char)) : Prop where
  closes : ∀ before line after, lines = before ++ line :: after →
    (before ++ [line]).countP closesBlock ≤ before.countP opensBlock
  closed : lines.countP closesBlock = lines.countP opensBlock
  indented : ∀ before line after, lines = before ++ line :: after →
    indentation line =
      2 * (before.countP opensBlock - (before ++ [line]).countP closesBlock)

/-- The text of a line behind its blanks. -/
theorem CodeLine.toList_source_placed (line : CodeLine) (indent : Nat) :
    (Layout.Line.source { indent, text := line.source }).toList =
      List.replicate (2 * indent) ' ' ++ line.source.toList :=
  Layout.Line.toList_source line.fillsLine_source

/-- Code begins with a closing brace exactly if the line ends a block. -/
theorem CodeLine.head?_source (line : CodeLine) :
    line.source.toList.head? = some '\x7d' ↔ line.closes = true := by
  unfold source
  cases line <;>
    simp [closes, toList_propertySlot, Statement.toList_opening, Statement.elseIf,
      Statement.elseOpening, Statement.closing]

theorem getLast?_append_of_back (front : String) {back : String} {c : Char}
    (h : back.toList.getLast? = some c) : (front ++ back).toList.getLast? = some c := by
  rw [String.toList_append, List.getLast?_append, h]
  rfl

theorem Addition.getLast?_source (addition : Addition) :
    addition.source.toList.getLast? = some ';' := by
  cases addition with
  | value expr => exact getLast?_append_of_back expr.source rfl
  | component name => exact getLast?_append_of_back ("component.render(" ++ Quoted.literal name) rfl

theorem SlotUse.getLast?_source (name : String) (use : SlotUse) :
    (use.source name).toList.getLast? = some ';' := by
  cases use with
  | beginParts => exact (rfl : " = [];".toList.getLast? = some ';')
  | beginMarkup => exact (rfl : " = '';".toList.getLast? = some ';')
  | addPart value => exact getLast?_append_of_back ("[] = " ++ value.source) rfl
  | endParts => exact getLast?_append_of_back (_ ++ propertySlot name) rfl
  | addMarkup addition => exact getLast?_append_of_back " .= " addition.getLast?_source
  | endMarkup => exact getLast?_append_of_back (" = html_fragment(" ++ propertySlot name) rfl

theorem Statement.getLast?_opening (keyword subject : String) :
    (opening keyword subject).toList.getLast? = some '\x7b' :=
  getLast?_append_of_back (keyword ++ " (" ++ subject) rfl

/-- A line that begins a block ends with its brace, any other line with a semicolon or the brace that
it begins with. -/
theorem CodeLine.getLast?_source (line : CodeLine) :
    line.source.toList.getLast? = some '\x7b' ↔ line.opens = true := by
  have hsemicolon : ∀ text : String, text.toList.getLast? = some ';' →
      text.toList.getLast? ≠ some '\x7b' := by
    intro text h
    simp [h]
  cases line with
  | page addition =>
      have hlast := getLast?_append_of_back "page .= " addition.getLast?_source
      exact iff_of_false (hsemicolon _ hlast) Bool.false_ne_true
  | slot name use =>
      have hlast := getLast?_append_of_back (propertySlot name) (use.getLast?_source name)
      exact iff_of_false (hsemicolon _ hlast) Bool.false_ne_true
  | beginProps | endProps | closing => exact iff_of_false (by decide) Bool.false_ne_true
  | branch | nextBranch | loop | within => exact iff_of_true (Statement.getLast?_opening ..) rfl
  | otherwise => exact iff_of_true rfl rfl

section Lines

variable (line : CodeLine) (indent : Nat)

/-- In the text, a line ends a block exactly if it is one that does. -/
theorem closesBlock_source :
    closesBlock (Layout.Line.source { indent, text := line.source }).toList = line.closes := by
  obtain ⟨c, rest, hchars, hc⟩ := line.fillsLine_source.first
  have hdropped : (Layout.Line.source { indent, text := line.source }).toList.dropWhile (· == ' ') =
      line.source.toList := by
    rw [line.toList_source_placed]
    refine dropWhile_stretch (by simp) ?_
    simpa [hchars] using hc
  rw [Bool.eq_iff_iff, ← line.head?_source, closesBlock, hdropped, beq_iff_eq]

theorem opensBlock_source :
    opensBlock (Layout.Line.source { indent, text := line.source }).toList = line.opens := by
  obtain ⟨c, rest, hchars, -⟩ := line.fillsLine_source.first
  have hlast : (Layout.Line.source { indent, text := line.source }).toList.getLast? =
      line.source.toList.getLast? := by
    rw [line.toList_source_placed]
    exact List.getLast?_append_of_ne_nil _ (by simp [hchars])
  rw [Bool.eq_iff_iff, ← line.getLast?_source, opensBlock, hlast, beq_iff_eq]

/-- In the text, a line is indented by two blanks for each level that it stands at. -/
theorem indentation_source :
    indentation (Layout.Line.source { indent, text := line.source }).toList = 2 * indent := by
  obtain ⟨c, rest, hchars, hc⟩ := line.fillsLine_source.first
  rw [indentation, line.toList_source_placed, takeWhile_stretch (by simp), List.length_replicate]
  simpa [hchars] using hc

end Lines

/-! ## The lines of generated code -/

namespace CodeLine

/-- The lines as they stand in the text, the first one behind lines that lead to the given level. -/
def rows (level : Nat) (lines : List CodeLine) : List (List Char) :=
  (placed level lines).map fun line => line.source.toList

theorem rows_cons (level : Nat) (line : CodeLine) (rest : List CodeLine) :
    rows level (line :: rest) =
      (Layout.Line.source { indent := line.levelAt level, text := line.source }).toList ::
        rows (line.levelAfter level) rest := rfl

theorem newline_not_mem_rows {level : Nat} {lines : List CodeLine} :
    ∀ row ∈ rows level lines, '\n' ∉ row := by
  induction lines generalizing level with
  | nil => exact fun _ hrow => absurd hrow List.not_mem_nil
  | cons line rest ih =>
      rw [rows_cons, List.forall_mem_cons]
      refine ⟨?_, ih⟩
      rw [toList_source_placed]
      simp [line.fillsLine_source.newline]

/-- In the text as many lines end blocks as there are lines that do. -/
theorem countP_closesBlock (level : Nat) (lines : List CodeLine) :
    (rows level lines).countP closesBlock = lines.countP closes := by
  induction lines generalizing level with
  | nil => rfl
  | cons line rest ih =>
      rw [rows_cons, List.countP_cons, List.countP_cons, ih, closesBlock_source]

theorem countP_opensBlock (level : Nat) (lines : List CodeLine) :
    (rows level lines).countP opensBlock = lines.countP opens := by
  induction lines generalizing level with
  | nil => rfl
  | cons line rest ih =>
      rw [rows_cons, List.countP_cons, List.countP_cons, ih, opensBlock_source]

/-- A line of the text is a line of the code at the level that the lines before it lead to. -/
theorem rows_eq_append {level : Nat} {lines : List CodeLine} {before after : List (List Char)}
    {row : List Char} (h : rows level lines = before ++ row :: after) :
    ∃ first line rest, lines = first ++ line :: rest ∧ before = rows level first ∧
      row = (Layout.Line.source
        { indent := line.levelAt (first.foldl levelAfter level), text := line.source }).toList := by
  induction before generalizing level lines with
  | nil =>
      cases lines with
      | nil => cases h
      | cons line rest =>
          rw [rows_cons, List.nil_append, List.cons.injEq] at h
          exact ⟨[], line, rest, rfl, rfl, h.1.symm⟩
  | cons other before ih =>
      cases lines with
      | nil => cases h
      | cons line rest =>
          rw [rows_cons, List.cons_append, List.cons.injEq] at h
          obtain ⟨first, found, more, rfl, rfl, hrow⟩ := ih h.2
          exact ⟨line :: first, found, more, rfl, by rw [rows_cons, h.1], hrow⟩

/-- Lines that end no block but what they have begun are nested as a text, too. -/
theorem nested_rows {lines : List CodeLine}
    (h : lines.foldl Nesting.step ⟨0, 0⟩ = ⟨0, 0⟩) : Nested (rows 0 lines) := by
  have hline : ∀ before row after, rows 0 lines = before ++ row :: after →
      (before ++ [row]).countP closesBlock ≤ before.countP opensBlock ∧
        indentation row =
          2 * (before.countP opensBlock - (before ++ [row]).countP closesBlock) := by
    intro before row after hrows
    obtain ⟨first, line, rest, rfl, rfl, rfl⟩ := rows_eq_append hrows
    have hlevel := Nesting.level_foldl_step first ⟨0, 0⟩
    have hcount := Nesting.count_foldl_step first ⟨0, 0⟩
    have hstrays := Nesting.strays_le_foldl_step rest
      ((first.foldl Nesting.step ⟨0, 0⟩).step line)
    rw [List.foldl_append, List.foldl_cons] at h
    rw [h] at hstrays
    simp only [Nesting.step] at hlevel hcount hstrays
    rw [List.countP_append, List.countP_singleton, countP_closesBlock, countP_opensBlock,
      closesBlock_source, indentation_source, levelAt, ← hlevel, Nesting.ite_eq_toNat]
    omega
  refine ⟨fun _ _ _ hrows => (hline _ _ _ hrows).1, ?_, fun _ _ _ hrows => (hline _ _ _ hrows).2⟩
  have hcount := Nesting.count_foldl_step lines ⟨0, 0⟩
  rw [h] at hcount
  rw [countP_closesBlock, countP_opensBlock]
  omega

end CodeLine

namespace Statement

theorem lines_ne_nil (statement : Statement) : statement.lines ≠ [] := by
  cases statement with
  | choose branches otherwise => cases otherwise <;> simp [lines]
  | append | loop | within | beginProps | initProperty | createProperty | initChildren
  | sealChildren | renderComponent => simp [lines]

theorem linesAll_ne_nil {statements : List Statement} (h : statements ≠ []) :
    linesAll statements ≠ [] := by
  cases statements with
  | nil => exact absurd rfl h
  | cons statement rest => simp [linesAll, lines_ne_nil]

/-- The text of a program, cut into its lines. -/
theorem splitOn_toSource {statements : List Statement} (h : statements ≠ []) :
    (toSource statements).toList.splitOn '\n' = CodeLine.rows 0 (linesAll statements) := by
  have hrows : CodeLine.rows 0 (linesAll statements) ≠ [] := by
    obtain ⟨line, rest, hlines⟩ := List.ne_nil_iff_exists_cons.1 (linesAll_ne_nil h)
    simp [hlines, CodeLine.rows_cons]
  have hsource : (toSource statements).toList =
      ['\n'].intercalate (CodeLine.rows 0 (linesAll statements)) := by
    simp [toSource_eq, CodeLine.rows, Function.comp_def]
  rw [hsource, List.splitOn_intercalate '\n' CodeLine.newline_not_mem_rows hrows]

/-- No code is a single line without a block. -/
theorem nested_blank : Nested [[]] := by
  have hline : ∀ before line after, ([[]] : List (List Char)) = before ++ line :: after →
      before = [] ∧ line = [] := by
    intro before line after h
    cases before with
    | nil => exact ⟨rfl, (List.cons.inj h).1.symm⟩
    | cons other before => simp at h
  refine ⟨?_, rfl, ?_⟩
  · intro before line after h
    obtain ⟨rfl, rfl⟩ := hline before line after h
    exact Nat.le_refl _
  · intro before line after h
    obtain ⟨rfl, rfl⟩ := hline before line after h
    rfl

/-- **Balanced blocks**: the code of a program is nested, with every line indented by its depth, just
if all choices in the program have a branch. Printing a statement anywhere leads back to the level that
it begins at, if all choices in it have a branch; one that has none takes a level away. -/
theorem toSource_nested_iff (statements : List Statement) :
    (Nested ((toSource statements).toList.splitOn '\n') ↔ branchlessAll statements = 0) ∧
      ∀ statement layout, (emit statement layout).level = layout.level - statement.branchless := by
  refine ⟨?_, level_emit⟩
  have hnesting := nesting_linesAll statements ⟨0, 0⟩
  by_cases hne : statements = []
  case pos =>
    subst hne
    exact iff_of_true nested_blank rfl
  case neg =>
    rw [splitOn_toSource hne]
    constructor
    case mp =>
      intro hnested
      have hcount := Nesting.count_foldl_step (linesAll statements) ⟨0, 0⟩
      have hclosed := hnested.closed
      rw [CodeLine.countP_closesBlock, CodeLine.countP_opensBlock] at hclosed
      rw [hnesting] at hcount
      simp only [Nesting.leave] at hcount
      omega
    case mpr =>
      intro hbranches
      apply CodeLine.nested_rows
      rw [hnesting, hbranches, Nesting.leave_zero]

/-- A choice without a branch is printed as the end of a block that nothing has begun. -/
theorem toSource_branchless :
    toSource [.choose [] none] = "\x7d" ∧
      ¬Nested ((toSource [.choose [] none]).toList.splitOn '\n') ∧
      (emit (.choose [] none) (Layout.start 1)).level = 0 := by
  have hsource : toSource [.choose [] none] = "\x7d" := rfl
  refine ⟨hsource, ?_, rfl⟩
  intro hnested
  have hrows : (toSource [.choose [] none]).toList.splitOn '\n' = [['\x7d']] := by
    rw [hsource]
    rfl
  have hcloses := hnested.closes [] ['\x7d'] [] hrows
  exact absurd hcloses (by decide)

end Statement

end ComponentTemplates
