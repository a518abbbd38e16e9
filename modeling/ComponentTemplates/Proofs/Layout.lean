/-
Module: ComponentTemplates.Proofs.Layout
Purpose: What text is laid out by printing and moving between levels in any order. It is told by what is
  printed on each row and the levels in force there: a row is indented by the level that its first text
  was printed at, and what happens to the level later does not move it. Main statement: the text is made of
  the rows in order, without the last one if nothing stands on it (`Layout.source_run`).
Main exports: Layout.Step, Layout.run, Layout.Print, Layout.rows, Layout.Carries, Layout.Carries.run,
  Layout.source_run
-/
import ComponentTemplates.Layout
import Mathlib.Data.List.Basic

namespace ComponentTemplates.Layout

/-! ## Steps -/

/-- What is done to a layout. -/
inductive Step where
  | print (text : String)
  | println (text : String)
  | indent
  | dedent
deriving DecidableEq, Repr

namespace Step

/-- The level behind a step. There is no level below zero. -/
def levelAfter (level : Nat) : Step → Nat
  | .print _ | .println _ => level
  | .indent => level + 1
  | .dedent => level - 1

/-- The text that a step prints. -/
def text? : Step → Option String
  | .print text | .println text => some text
  | .indent | .dedent => none

/-- The step ends a row. -/
def endsRow : Step → Bool
  | .println _ => true
  | .print _ | .indent | .dedent => false

end Step

/-- The layout behind a step. -/
def step (layout : Layout) : Step → Layout
  | .print text => layout.print text
  | .println text => layout.println text
  | .indent => layout.indent
  | .dedent => layout.dedent

/-- The layout behind steps in a row. -/
def run (layout : Layout) (steps : List Step) : Layout :=
  steps.foldl step layout

theorem run_cons (layout : Layout) (first : Step) (rest : List Step) :
    layout.run (first :: rest) = (layout.step first).run rest := rfl

/-! ## Rows -/

/-- A text with the level in force when it is printed. -/
structure Print where
  level : Nat
  text : String
deriving DecidableEq, Repr

/-- What is printed on a row, in order. -/
abbrev Row := List Print

namespace Row

/-- The texts on the row, one after another. -/
def text (row : Row) : String :=
  String.join (row.map (·.text))

/-- The level at which the first text was printed on the row, the empty text aside. -/
def level? (row : Row) : Option Nat :=
  (row.find? (·.text ≠ "")).map (·.level)

/-- The row as it stands in a text: two blanks for each level, unless nothing is printed on it. -/
def source (row : Row) : String :=
  match row.level? with
  | some level => String.join (List.replicate level "  ") ++ row.text
  | none => ""

@[simp] theorem text_concat (row : Row) (print : Print) :
    text (row ++ [print]) = row.text ++ print.text := by
  simp [text]

theorem text_eq_empty_iff {row : Row} : row.text = "" ↔ row.level? = none := by
  rw [level?, Option.map_eq_none_iff, List.find?_eq_none]
  induction row with
  | nil => exact iff_of_true rfl nofun
  | cons print rest ih =>
      have hcons : text (print :: rest) = print.text ++ text rest := by simp [text]
      rw [hcons, String.append_eq_empty_iff, ih, List.forall_mem_cons]
      simp

/-- A text that is printed behind others does not move the row. -/
theorem level?_concat (row : Row) (print : Print) :
    level? (row ++ [print]) = row.level?.or (if print.text = "" then none else some print.level) := by
  have hlast : List.find? (fun print => decide (print.text ≠ "")) [print] =
      if print.text = "" then none else some print := by
    by_cases htext : print.text = "" <;> simp [htext]
  rw [level?, level?, List.find?_append, hlast, Option.map_or]
  by_cases htext : print.text = "" <;> simp [htext]

end Row

/-- The rows that steps lead to at a level, behind what is printed on the row that has been begun. The last
row is not finished. -/
def rows (level : Nat) (begun : Row) : List Step → List Row
  | [] => [begun]
  | .print text :: rest => rows level (begun ++ [{ level, text }]) rest
  | .println text :: rest => (begun ++ [{ level, text }]) :: rows level [] rest
  | .indent :: rest => rows (level + 1) begun rest
  | .dedent :: rest => rows (level - 1) begun rest

/-- Every step that ends a row adds one to the row that has been begun. -/
theorem length_rows (level : Nat) (begun : Row) (steps : List Step) :
    (rows level begun steps).length = steps.countP Step.endsRow + 1 := by
  fun_induction rows level begun steps with
  | case1 => rfl
  | case2 level begun text rest ih | case3 level begun text rest ih =>
      simpa [List.countP_cons, Step.endsRow] using ih
  | case4 level begun rest ih | case5 level begun rest ih =>
      simpa [List.countP_cons, Step.endsRow] using ih

/-- On the rows stands all that is printed, in order. -/
theorem texts_rows (level : Nat) (begun : Row) (steps : List Step) :
    (rows level begun steps).flatten.map (·.text) =
      begun.map (·.text) ++ steps.filterMap Step.text? := by
  fun_induction rows level begun steps with
  | case1 => simp
  | case2 level begun text rest ih | case3 level begun text rest ih =>
      simpa [List.filterMap_cons, Step.text?] using ih
  | case4 level begun rest ih | case5 level begun rest ih =>
      simpa [List.filterMap_cons, Step.text?] using ih

/-! ## What a layout carries -/

/-- The current line is the row: it has its text, and stands where the row stands, or at the level of the
layout if nothing is printed on it. -/
def Carries (layout : Layout) (row : Row) : Prop :=
  layout.current = { indent := row.level?.getD layout.level, text := row.text }

theorem carries_start (level : Nat) : (start level).Carries [] := rfl

theorem toList_blanks (count : Nat) : ("".pushn ' ' count).toList = List.replicate count ' ' := by
  induction count with
  | zero => rfl
  | succ count ih =>
      rw [List.replicate_succ', ← ih]
      simp [String.pushn, Nat.repeat]

/-- Two blanks for each level. -/
theorem blanks_eq (level : Nat) :
    "".pushn ' ' (2 * level) = String.join (List.replicate level "  ") := by
  rw [← String.toList_inj, toList_blanks, String.toList_join]
  induction level with
  | zero => rfl
  | succ level ih =>
      rw [List.replicate_succ, List.flatMap_cons, ← ih, Nat.mul_succ, Nat.add_comm,
        List.replicate_add]
      rfl

/-- A line that carries a row is written as the row. -/
theorem Row.source_line (row : Row) (level : Nat) :
    Line.source { indent := row.level?.getD level, text := row.text } = row.source := by
  unfold Line.source Row.source
  cases hlevel : row.level? with
  | none => rw [if_pos (String.isEmpty_iff.2 (Row.text_eq_empty_iff.2 hlevel))]
  | some first =>
      have htext : ¬row.text.isEmpty = true := by
        rw [String.isEmpty_iff, Row.text_eq_empty_iff, hlevel]
        exact nofun
      rw [if_neg htext, Option.getD_some, blanks_eq]

namespace Carries

variable {layout : Layout} {row : Row}

/-- The layout is at the start of a line exactly if nothing is printed on the row. -/
theorem lineIsEmpty_iff (h : layout.Carries row) :
    layout.lineIsEmpty = true ↔ row.level? = none := by
  rw [lineIsEmpty, h, String.isEmpty_iff, Row.text_eq_empty_iff]

/-- An empty line stands at the level. -/
theorem indent_of_lineIsEmpty (h : layout.Carries row) (hempty : layout.lineIsEmpty = true) :
    layout.current.indent = layout.level := by
  rw [h.lineIsEmpty_iff] at hempty
  rw [h, hempty]
  rfl

/-- The current line stands in a text as the row does. -/
theorem source_current (h : layout.Carries row) : layout.current.source = row.source := by
  rw [h, Row.source_line]

/-- Printing adds the text to the row, at the level in force. -/
theorem print (h : layout.Carries row) (text : String) :
    (layout.print text).Carries (row ++ [{ level := layout.level, text }]) := by
  have hindent : row.level?.getD layout.level =
      (row.level?.or (if text = "" then none else some layout.level)).getD layout.level := by
    cases row.level? with
    | some first => rfl
    | none => split <;> rfl
  rw [Carries, Row.level?_concat, Row.text_concat, Layout.print, h]
  exact congrArg (Line.mk · _) hindent

/-- A finished line is never touched again. -/
theorem println (h : layout.Carries row) (text : String) :
    (layout.println text).Carries [] ∧
      (layout.println text).finished.map Line.source =
        Row.source (row ++ [{ level := layout.level, text }]) :: layout.finished.map Line.source :=
  ⟨rfl, congrArg (· :: _) (h.print text).source_current⟩

/-- Another level moves nothing that is printed. -/
theorem setLevel (h : layout.Carries row) (level : Nat) : (layout.setLevel level).Carries row := by
  have hempty := h.lineIsEmpty_iff
  rw [Carries, Layout.setLevel]
  -- an empty line comes along, and a line with text on it stays
  cases hlevel : row.level? with
  | none =>
      rw [if_pos (hempty.2 hlevel), h]
      rfl
  | some first =>
      have hne : ¬layout.lineIsEmpty = true := by
        rw [hempty, hlevel]
        exact nofun
      rw [if_neg hne, h, hlevel]
      rfl

/-- What a layout that carries a row comes to by any steps: it carries the last of the rows that the steps
lead to, and the rows before that are finished behind what was finished already. -/
theorem run (h : layout.Carries row) (steps : List Step) :
    ∃ done last, rows layout.level row steps = done ++ [last] ∧ (layout.run steps).Carries last ∧
      (layout.run steps).level = steps.foldl Step.levelAfter layout.level ∧
      (layout.run steps).finished.reverse.map Line.source =
        layout.finished.reverse.map Line.source ++ done.map Row.source := by
  -- every step leaves another layout that carries a row, so both are general
  induction steps generalizing layout row with
  | nil => exact ⟨[], row, rfl, h, rfl, (List.append_nil _).symm⟩
  | cons first rest ih =>
      rw [run_cons, List.foldl_cons]
      cases first with
      | print text => exact ih (h.print text)
      | println text =>
          obtain ⟨hcarries, hfinished⟩ := h.println text
          obtain ⟨done, last, hrows, hlast, hlevel, hdone⟩ := ih hcarries
          refine ⟨(row ++ [{ level := layout.level, text }]) :: done, last, ?_, hlast, hlevel, ?_⟩
          · exact congrArg _ hrows
          · have hreverse := congrArg List.reverse hfinished
            rw [List.reverse_cons, ← List.map_reverse, ← List.map_reverse] at hreverse
            rw [Layout.step, hdone, hreverse, List.append_assoc]
            rfl
      | indent => exact ih (h.setLevel _)
      | dedent => exact ih (h.setLevel _)

end Carries

/-- The text of a layout that carries a row behind finished ones. A last row with nothing on it is left
out. -/
theorem Carries.source_eq {layout : Layout} {last : Row} {done : List Row} (h : layout.Carries last)
    (hdone : layout.finished.reverse.map Line.source = done.map Row.source) :
    layout.source =
      "\n".intercalate ((if last.text = "" then done else done ++ [last]).map Row.source) := by
  have hempty : layout.lineIsEmpty = true ↔ last.text = "" := by
    rw [h.lineIsEmpty_iff, Row.text_eq_empty_iff]
  unfold Layout.source lines
  by_cases htext : last.text = ""
  · rw [if_pos (hempty.2 htext), if_pos htext, hdone]
  · rw [if_neg (mt hempty.1 htext), if_neg htext, List.reverse_cons, List.map_append, hdone,
      List.map_append, List.map_singleton, List.map_singleton, h.source_current]

theorem Row.newline_not_mem_source {row : Row} (h : ∀ print ∈ row, '\n' ∉ print.text.toList) :
    '\n' ∉ row.source.toList := by
  have htext : '\n' ∉ row.text.toList := by
    simpa [Row.text, String.toList_join] using h
  unfold Row.source
  cases row.level? with
  | none => exact List.not_mem_nil
  | some level =>
      dsimp only
      rw [← blanks_eq, String.toList_append, toList_blanks]
      simp [htext]

/-- Rows on which no line break is printed are found again as the lines of their text. -/
theorem splitOn_rows {written : List Row} (hne : written ≠ [])
    (h : ∀ print ∈ written.flatten, '\n' ∉ print.text.toList) :
    ("\n".intercalate (written.map Row.source)).toList.splitOn '\n' =
      written.map (·.source.toList) := by
  rw [String.toList_intercalate, List.map_map]
  refine List.splitOn_intercalate '\n' ?_ (by simpa using hne)
  intro line hline
  obtain ⟨row, hrow, rfl⟩ := List.mem_map.1 hline
  exact Row.newline_not_mem_source fun print hprint =>
    h print (List.mem_flatten_of_mem hrow hprint)

/-- **Laid out text**: whatever is printed and however the level is changed in between, the text is made of
rows in order, one for each `println` and the one behind the last of them unless it is empty. On the rows
stands all that is printed and nothing else, and in front of a row two blanks for each level that was in
force when its first text was printed. The level goes up and down by one, but not below zero, and a line
on which nothing stands yet is always at the level. If no text has a line break, the rows are the lines of
the text. -/
theorem source_run (level : Nat) (steps : List Step) :
    let layout := (start level).run steps
    (layout.lineIsEmpty = true → layout.current.indent = layout.level) ∧
      layout.level = steps.foldl Step.levelAfter level ∧
      ∃ (done : List Row) (last : Row), rows level [] steps = done ++ [last] ∧
        done.length = steps.countP Step.endsRow ∧
        (done ++ [last]).flatten.map (·.text) = steps.filterMap Step.text? ∧
        let written := if last.text = "" then done else done ++ [last]
        layout.source = "\n".intercalate (written.map Row.source) ∧
          ((∀ text ∈ steps.filterMap Step.text?, '\n' ∉ text.toList) → written ≠ [] →
            layout.source.toList.splitOn '\n' = written.map (·.source.toList)) := by
  intro layout
  obtain ⟨done, last, hrows, hcarries, hlevel, hdone⟩ := (carries_start level).run steps
  change rows level [] steps = done ++ [last] at hrows
  have hlength : done.length = steps.countP Step.endsRow := by
    have hcount := length_rows level [] steps
    rw [hrows, List.length_append] at hcount
    exact Nat.succ_inj.1 hcount
  have htexts : (done ++ [last]).flatten.map (·.text) = steps.filterMap Step.text? := by
    rw [← hrows]
    exact texts_rows level [] steps
  have hsource := hcarries.source_eq hdone
  refine ⟨hcarries.indent_of_lineIsEmpty, hlevel, done, last, hrows, hlength, htexts, hsource, ?_⟩
  intro hplain hne
  have hwritten : (if last.text = "" then done else done ++ [last]) ⊆ done ++ [last] := by
    split
    · exact List.subset_append_left done [last]
    · exact List.Subset.refl _
  rw [hsource]
  refine splitOn_rows hne fun print hprint => hplain _ ?_
  obtain ⟨row, hrow, hmem⟩ := List.mem_flatten.1 hprint
  rw [← htexts]
  exact List.mem_map_of_mem (List.mem_flatten_of_mem (hwritten hrow) hmem)

/-- Nothing is printed before the level goes back, so that the first row is not indented; the blank row
between the two counts, and the one behind them does not. -/
theorem source_run_outline :
    let steps : List Step :=
      [.indent, .print "", .dedent, .print "a", .indent, .print "b", .println "", .println "", .indent,
        .println "c", .print "", .dedent]
    let layout := (start 0).run steps
    (∀ text ∈ steps.filterMap Step.text?, '\n' ∉ text.toList) ∧ layout.source = "ab\n\n    c" ∧
      layout.source.toList.splitOn '\n' = [['a', 'b'], [], [' ', ' ', ' ', ' ', 'c']] ∧
      layout.lineIsEmpty = true ∧ layout.current.indent = 1 := by
  intro steps layout
  have hplain : ∀ text ∈ steps.filterMap Step.text?, '\n' ∉ text.toList := by decide
  have hempty : layout.lineIsEmpty = true := rfl
  obtain ⟨hindent, -, done, last, hrows, -, -, hsource, hlines⟩ := source_run 0 steps
  have hprinted : [[⟨1, ""⟩, ⟨0, "a"⟩, ⟨1, "b"⟩, ⟨1, ""⟩], [⟨1, ""⟩], [⟨2, "c"⟩]] ++ [[⟨2, ""⟩]] =
      done ++ [last] := hrows
  obtain ⟨rfl, hlast⟩ := List.append_inj' hprinted rfl
  obtain rfl : [⟨2, ""⟩] = last := (List.cons.inj hlast).1
  exact ⟨hplain, hsource, hlines hplain nofun, hempty, hindent hempty⟩

end ComponentTemplates.Layout
