/-
Module: ComponentTemplates.Proofs.Lookup.Raw
Purpose: Paths as they stand in a text, with their arguments unread. A step is an identifier, and behind
  it there may be a text in parentheses, which ends at the first closing one. The reader of lookups cuts
  a path at the dots outside parentheses; but it counts the opening ones in an argument text, which it
  never sees closed. So a path is a lookup exactly if only its last step has any (`parse?_raw`).
Main exports: Lookup.RawStep, Lookup.RawPath, Lookup.RawPath.written, Lookup.RawPath.Closed,
  Lookup.RawPath.barePath_written, Lookup.RawPath.barePath_braced, Lookup.parse?_of_barePath,
  Lookup.parse?_raw, Lookup.Unclosed
-/
import ComponentTemplates.Lookup.Parser
import ComponentTemplates.Proofs.Text.Reading
import Mathlib.Data.List.Basic

namespace ComponentTemplates.Lookup

open Text

/-- A step as it stands in a text: its name, and the text between the parentheses if there are any. -/
structure RawStep where
  name : List Char
  arguments : Option (List Char) := none
deriving DecidableEq, Repr

namespace RawStep

/-- The step, written out. -/
def written (step : RawStep) : List Char :=
  match step.arguments with
  | none => step.name
  | some text => step.name ++ '(' :: (text ++ [')'])

/-- The name is an identifier, and the arguments end at the first closing parenthesis. -/
structure WellFormed (step : RawStep) : Prop where
  name : Identifier.isIdentifier step.name = true
  arguments : ∀ text ∈ step.arguments, ')' ∉ text

/-- How many parentheses are left open behind the step. -/
def opened (step : RawStep) : Nat :=
  (step.arguments.getD []).count '('

/-- The step that is meant. -/
def step (raw : RawStep) : Step where
  name := String.ofList raw.name
  args := (Lookup.arguments (raw.arguments.getD [])).map String.ofList

end RawStep

/-- A path as it stands in a text. -/
abbrev RawPath := List RawStep

namespace RawPath

/-- The path, written out. -/
def written (path : RawPath) : List Char :=
  ['.'].intercalate (path.map RawStep.written)

/-- A path of at least one step. -/
structure WellFormed (path : RawPath) : Prop where
  nonempty : path ≠ []
  steps : ∀ step ∈ path, step.WellFormed

/-- No parenthesis is left open in front of a dot. -/
def Closed (path : RawPath) : Prop :=
  ∀ step ∈ path.dropLast, step.opened = 0

instance (path : RawPath) : Decidable path.Closed :=
  inferInstanceAs (Decidable (∀ step ∈ path.dropLast, step.opened = 0))

theorem WellFormed.tail {step next : RawStep} {others : RawPath}
    (h : WellFormed (step :: next :: others)) : WellFormed (next :: others) :=
  ⟨List.cons_ne_nil _ _, fun other hother => h.steps other (List.mem_cons_of_mem _ hother)⟩

/-- A path is a step, or a step in front of a path. -/
@[elab_as_elim]
theorem WellFormed.induct {motive : (path : RawPath) → path.WellFormed → Prop}
    (single : ∀ step h, motive [step] h)
    (cons : ∀ step next others h, motive (next :: others) h.tail →
      motive (step :: next :: others) h) {path : RawPath} (hpath : path.WellFormed) :
    motive path hpath := by
  induction path with
  | nil => exact absurd rfl hpath.nonempty
  | cons step rest ih =>
      cases rest with
      | nil => exact single step hpath
      | cons next others => exact cons step next others hpath (ih hpath.tail)

theorem WellFormed.head {step : RawStep} {rest : RawPath} (h : WellFormed (step :: rest)) :
    step.WellFormed :=
  h.steps step (List.mem_cons_self ..)

theorem closed_cons {step next : RawStep} {others : RawPath} :
    Closed (step :: next :: others) ↔ step.opened = 0 ∧ Closed (next :: others) := by
  simp [Closed]

/-- A path is written as its first step, and a dot before what follows. -/
theorem written_cons (step : RawStep) (rest : RawPath) :
    written (step :: rest) =
      match rest with
      | [] => step.written
      | next :: others => step.written ++ '.' :: written (next :: others) := by
  cases rest with
  | nil => simp [written]
  | cons next others => simp [written]

end RawPath

section Segments

/-- Puts a stretch in front of the first segment. -/
def extendHead (stretch : List Char) : List (List Char) → List (List Char)
  | [] => [stretch]
  | segment :: others => (stretch ++ segment) :: others

theorem extendHead_extendHead (first second : List Char) (segments : List (List Char)) :
    extendHead first (extendHead second segments) = extendHead (first ++ second) segments := by
  cases segments with
  | nil => rfl
  | cons segment others => simp [extendHead]

/-- A character that does not separate segments belongs to the first one, and may open or close a
parenthesis. -/
theorem segments_cons {depth : Nat} {c : Char} (rest : List Char) (hdot : ¬(c = '.' ∧ depth = 0)) :
    segments depth (c :: rest) = extendHead [c]
      (segments (if c = '(' then depth + 1 else if c = ')' then depth - 1 else depth) rest) := by
  rw [segments, if_neg (by simpa using hdot)]
  dsimp only
  split <;> rename_i heq <;> rw [heq] <;> rfl

theorem segments_ne_nil (depth : Nat) (cs : List Char) : segments depth cs ≠ [] := by
  cases cs with
  | nil => simp [segments]
  | cons c rest =>
      unfold segments
      split
      · simp
      · dsimp only
        split <;> simp

/-- A stretch without closing parentheses, and outside of them without dots, stays in one segment. -/
theorem segments_append {depth : Nat} {stretch : List Char}
    (h : ∀ c ∈ stretch, c ≠ ')' ∧ ¬(c = '.' ∧ depth = 0)) (rest : List Char) :
    segments depth (stretch ++ rest) =
      extendHead stretch (segments (depth + stretch.count '(') rest) := by
  induction stretch generalizing depth with
  | nil =>
      obtain ⟨segment, others, hrest⟩ := List.exists_cons_of_ne_nil (segments_ne_nil depth rest)
      rw [List.nil_append, List.count_nil, Nat.add_zero, hrest]
      rfl
  | cons c others ih =>
      obtain ⟨hclose, hdot⟩ := h c (List.mem_cons_self ..)
      have hothers : ∀ d ∈ others, d ≠ ')' ∧ ¬(d = '.' ∧ depth = 0) :=
        fun d hd => h d (List.mem_cons_of_mem _ hd)
      rw [List.cons_append, segments_cons _ hdot]
      by_cases hopen : c = '('
      · have hinside : ∀ d ∈ others, d ≠ ')' ∧ ¬(d = '.' ∧ depth + 1 = 0) :=
          fun d hd => ⟨(hothers d hd).1, by simp⟩
        have hdepth : depth + 1 + others.count '(' = depth + (c :: others).count '(' := by
          rw [hopen, List.count_cons_self, Nat.add_right_comm, Nat.add_assoc]
        rw [if_pos hopen, ih hinside, extendHead_extendHead, hdepth]
        rfl
      · rw [if_neg hopen, if_neg hclose, ih hothers, extendHead_extendHead,
          List.count_cons_of_ne hopen]
        rfl

/-- A character that no name has is not in the name of a step. -/
theorem RawStep.WellFormed.not_mem_name {step : RawStep} (hstep : step.WellFormed) {c : Char}
    (hc : Identifier.isRest c = false) : c ∉ step.name :=
  fun hmem => Identifier.ne_of_isRest (Identifier.isRest_of_mem hstep.name hmem) hc rfl

/-- A step stays in one segment, and behind it the parentheses count that its arguments open. -/
theorem RawStep.segments_written {step : RawStep} (hstep : step.WellFormed) (depth : Nat)
    (rest : List Char) :
    segments depth (step.written ++ rest) =
      extendHead step.written (segments (depth + step.opened) rest) := by
  have hname : ∀ c ∈ step.name, c ≠ ')' ∧ ¬(c = '.' ∧ depth = 0) := by
    intro c hc
    have hrest := Identifier.isRest_of_mem hstep.name hc
    exact ⟨Identifier.ne_of_isRest hrest (by decide),
      fun hdot => Identifier.ne_of_isRest hrest (by decide) hdot.1⟩
  have hcount : step.name.count '(' = 0 := List.count_eq_zero.2 (hstep.not_mem_name (by decide))
  unfold RawStep.written RawStep.opened
  cases harguments : step.arguments with
  | none =>
      rw [segments_append hname, hcount]
      rfl
  | some text =>
      have htext : ∀ c ∈ text, c ≠ ')' ∧ ¬(c = '.' ∧ depth + 1 = 0) := by
        intro c hc
        refine ⟨?_, by simp⟩
        rintro rfl
        exact hstep.arguments text harguments hc
      have hdepth : depth + 1 + text.count '(' - 1 = depth + text.count '(' := by omega
      dsimp only [Option.getD_some]
      rw [List.append_assoc, segments_append hname, hcount, Nat.add_zero, List.cons_append,
        List.append_assoc, segments_cons _ (by simp), if_pos rfl, segments_append htext,
        List.singleton_append, segments_cons _ (by simp), if_neg (by decide), if_pos rfl, hdepth]
      simp only [extendHead_extendHead]
      rfl

namespace RawPath

/-- A step by itself is one segment, also with dots among its arguments. -/
theorem segments_written_nil {step : RawStep} (hstep : step.WellFormed) (depth : Nat) :
    segments depth step.written = [step.written] := by
  have hread := RawStep.segments_written hstep depth []
  simpa [segments, extendHead] using hread

/-- Where a parenthesis is left open, the path is not cut any more. -/
theorem segments_of_depth {path : RawPath} (hpath : path.WellFormed) {depth : Nat}
    (hdepth : depth ≠ 0) : segments depth path.written = [path.written] := by
  induction hpath using WellFormed.induct generalizing depth with
  | single step hpath =>
      rw [written_cons]
      exact segments_written_nil hpath.head depth
  | cons step next others hpath ih =>
      have hdepth : depth + step.opened ≠ 0 := by omega
      rw [written_cons]
      dsimp only
      rw [RawStep.segments_written hpath.head, segments_cons _ (fun hdot => hdepth hdot.2),
        if_neg (by decide), if_neg (by decide), ih hdepth]
      simp [extendHead]

/-- The first dot of a path outside parentheses is the one behind its first step. -/
theorem segments_cons_of_closed {step next : RawStep} {others : RawPath}
    (hstep : step.WellFormed) (hclosed : step.opened = 0) :
    segments 0 (written (step :: next :: others)) =
      step.written :: segments 0 (written (next :: others)) := by
  rw [written_cons]
  dsimp only
  rw [RawStep.segments_written hstep, hclosed, segments, if_pos (by decide), extendHead,
    List.append_nil]

/-- Behind a parenthesis that is left open, dots do not separate segments. -/
theorem segments_cons_of_opened {step next : RawStep} {others : RawPath}
    (hpath : WellFormed (step :: next :: others)) (hopened : step.opened ≠ 0) :
    segments 0 (written (step :: next :: others)) = [written (step :: next :: others)] := by
  rw [written_cons]
  dsimp only
  rw [RawStep.segments_written hpath.head, Nat.zero_add, segments_cons _ (by simp [hopened]),
    if_neg (by decide), if_neg (by decide), segments_of_depth hpath.tail hopened]
  simp [extendHead]

end RawPath

end Segments

section Ends

/-- A step begins with the first character of its name. -/
theorem RawStep.written_eq_cons {step : RawStep} (hstep : step.WellFormed) :
    ∃ c rest, step.written = c :: rest ∧ Identifier.isRest c = true := by
  obtain ⟨c, others, hname⟩ :=
    List.exists_cons_of_ne_nil (Identifier.ne_nil_of_isIdentifier hstep.name)
  have hc : Identifier.isRest c = true :=
    Identifier.isRest_of_mem hstep.name (by rw [hname]; exact List.mem_cons_self ..)
  unfold RawStep.written
  rw [hname]
  split
  · exact ⟨c, others, rfl, hc⟩
  · exact ⟨c, _, rfl, hc⟩

theorem RawStep.isBlank_last {step : RawStep} (hstep : step.WellFormed) :
    ∀ c ∈ step.written.getLast?, isBlank c = false := by
  intro c hc
  unfold RawStep.written at hc
  split at hc
  · exact Identifier.isBlank_of_isRest
      (Identifier.isRest_of_mem hstep.name (List.mem_of_getLast? hc))
  · have hlast : c = ')' := by
      rw [← List.cons_append, ← List.append_assoc, List.getLast?_concat] at hc
      exact (Option.some.inj hc).symm
    rw [hlast]
    decide

namespace RawPath

/-- A path begins with a character of an identifier. -/
theorem written_eq_cons {path : RawPath} (hpath : path.WellFormed) :
    ∃ c rest, path.written = c :: rest ∧ Identifier.isRest c = true := by
  obtain ⟨step, others, rfl⟩ := List.exists_cons_of_ne_nil hpath.nonempty
  obtain ⟨c, rest, hwritten, hc⟩ := RawStep.written_eq_cons hpath.head
  rw [written_cons]
  cases others with
  | nil => exact ⟨c, rest, hwritten, hc⟩
  | cons next others =>
      refine ⟨c, rest ++ '.' :: written (next :: others), ?_, hc⟩
      dsimp only
      rw [hwritten, List.cons_append]

theorem isBlank_last {path : RawPath} (hpath : path.WellFormed) :
    ∀ c ∈ path.written.getLast?, isBlank c = false := by
  induction hpath using WellFormed.induct with
  | single step hpath =>
      rw [written_cons]
      exact RawStep.isBlank_last hpath.head
  | cons step next others hpath ih =>
      obtain ⟨c, rest, hwritten, _⟩ := written_eq_cons hpath.tail
      rw [written_cons]
      dsimp only
      rw [hwritten] at ih ⊢
      rw [List.getLast?_append_of_ne_nil _ (List.cons_ne_nil _ _), List.getLast?_cons_cons]
      exact ih

/-- A path has no blanks around it to be trimmed. -/
theorem trimBlank_written {path : RawPath} (hpath : path.WellFormed) :
    trimBlank path.written = path.written := by
  apply trimBlank_of_ends ?_ (isBlank_last hpath)
  obtain ⟨c, rest, hwritten, hc⟩ := written_eq_cons hpath
  intro d hd
  rw [hwritten] at hd
  cases hd
  exact Identifier.isBlank_of_isRest hc

/-- Without a brace behind the dollar signs, the path is what follows them. -/
theorem barePath_of_dropWhile {cs rest : List Char} {c : Char}
    (h : (trimBlank cs).dropWhile (· == '$') = c :: rest) (hbrace : c ≠ '\x7b') :
    barePath cs = c :: rest := by
  unfold barePath
  rw [h]
  dsimp only
  split
  · rename_i heq
    exact absurd (List.cons.inj heq).1 hbrace
  · rfl

/-- Blanks around a path are taken off. -/
theorem barePath_in_blanks {before cs after : List Char} (hbefore : ∀ c ∈ before, isBlank c = true)
    (hafter : ∀ c ∈ after, isBlank c = true) : barePath (before ++ (cs ++ after)) = barePath cs := by
  unfold barePath
  rw [trimBlank_in_blanks hbefore hafter]

/-- A dollar sign in front of a path is all that is taken off it. -/
theorem barePath_written {path : RawPath} (hpath : path.WellFormed) :
    barePath ('$' :: path.written) = path.written ∧ barePath path.written = path.written := by
  have hlast := isBlank_last hpath
  have htrim := trimBlank_written hpath
  obtain ⟨c, rest, hwritten, hc⟩ := written_eq_cons hpath
  have hdollar : c ≠ '$' := Identifier.ne_of_isRest hc (by decide)
  have hbrace : c ≠ '\x7b' := Identifier.ne_of_isRest hc (by decide)
  rw [hwritten] at hlast htrim ⊢
  have htrim' : trimBlank ('$' :: c :: rest) = '$' :: c :: rest := by
    apply trimBlank_of_ends
    · intro d hd
      cases hd
      decide
    · rwa [List.getLast?_cons_cons]
  constructor
  · apply barePath_of_dropWhile ?_ hbrace
    rw [htrim', List.dropWhile_cons_of_pos (by decide), List.dropWhile_cons_of_neg (by simpa)]
  · apply barePath_of_dropWhile ?_ hbrace
    rw [htrim, List.dropWhile_cons_of_neg (by simpa)]

/-- Braces around the sign and the path are taken off with it. -/
theorem barePath_braced {path : RawPath} (hpath : path.WellFormed) :
    barePath ('\x7b' :: ('$' :: path.written ++ ['\x7d'])) = path.written := by
  obtain ⟨c, rest, hwritten, hc⟩ := written_eq_cons hpath
  have hdollar : c ≠ '$' := Identifier.ne_of_isRest hc (by decide)
  have htrim : trimBlank ('\x7b' :: ('$' :: path.written ++ ['\x7d'])) =
      '\x7b' :: ('$' :: path.written ++ ['\x7d']) := by
    apply trimBlank_of_ends
    · intro d hd
      cases hd
      decide
    · intro d hd
      rw [← List.cons_append, List.getLast?_concat] at hd
      cases hd
      decide
  unfold barePath
  rw [htrim, List.dropWhile_cons_of_neg (by decide)]
  change (if ('$' :: path.written ++ ['\x7d']).getLast? = some '\x7d' then
    ('$' :: path.written ++ ['\x7d']).dropLast.dropWhile (· == '$') else _) = path.written
  rw [List.getLast?_concat, if_pos rfl, List.dropLast_concat, List.dropWhile_cons_of_pos (by decide),
    hwritten, List.dropWhile_cons_of_neg (by simpa)]

end RawPath

end Ends

section Steps

/-- A step on its own is read as what it is, even if it leaves a parenthesis open. -/
theorem parseStep?_written {step : RawStep} (hstep : step.WellFormed) :
    parseStep? step.written = some step.step := by
  have hpath : RawPath.WellFormed [step] := ⟨List.cons_ne_nil _ _, by simpa using hstep⟩
  have htrim := RawPath.trimBlank_written hpath
  rw [RawPath.written_cons] at htrim
  unfold parseStep?
  rw [htrim]
  unfold RawStep.written RawStep.step
  cases harguments : step.arguments with
  | none =>
      have hsplit : Identifier.split? (step.name ++ []) = some (step.name, []) :=
        Identifier.split?_append hstep.name nofun
      rw [List.append_nil] at hsplit
      simp [hsplit]
  | some text =>
      have hsplit : Identifier.split? (step.name ++ '(' :: (text ++ [')'])) =
          some (step.name, '(' :: (text ++ [')'])) :=
        Identifier.split?_append hstep.name (by simp; decide)
      have hinner : parenthesized? ('(' :: (text ++ [')'])) = some text := by
        rw [parenthesized?, cut?_char (hstep.arguments text harguments)]
      simp [hsplit, hinner]

/-- More than one step is not read as one. -/
theorem parseStep?_cons {step next : RawStep} {others : RawPath}
    (hpath : RawPath.WellFormed (step :: next :: others)) :
    parseStep? (RawPath.written (step :: next :: others)) = none := by
  have hstep := hpath.head
  unfold parseStep?
  rw [RawPath.trimBlank_written hpath, RawPath.written_cons]
  unfold RawStep.written
  dsimp only
  cases harguments : step.arguments with
  | none =>
      rw [Identifier.split?_append hstep.name (by simp; decide)]
      simp [parenthesized?]
  | some text =>
      dsimp only
      rw [List.append_assoc, List.cons_append, List.append_assoc, List.singleton_append,
        Identifier.split?_append hstep.name (by simp; decide)]
      simp [parenthesized?, cut?_char (hstep.arguments text harguments)]

/-- The segments of a closed path are its steps; those of a path that is not closed are no steps. -/
theorem mapM_parseStep?_segments {path : RawPath} (hpath : path.WellFormed) :
    (segments 0 path.written).mapM parseStep? =
      if path.Closed then some (path.map RawStep.step) else none := by
  induction hpath using RawPath.WellFormed.induct with
  | single step hpath =>
      rw [RawPath.written_cons, if_pos (by simp [RawPath.Closed])]
      simp [RawPath.segments_written_nil hpath.head, parseStep?_written hpath.head]
  | cons step next others hpath ih =>
      -- The dot behind the step cuts the path, or no dot behind it does.
      by_cases hopened : step.opened = 0
      · rw [RawPath.segments_cons_of_closed hpath.head hopened, List.mapM_cons,
          parseStep?_written hpath.head, ih]
        by_cases hclosed : RawPath.Closed (next :: others)
        · rw [if_pos hclosed, if_pos (RawPath.closed_cons.2 ⟨hopened, hclosed⟩)]
          rfl
        · rw [if_neg hclosed, if_neg fun h => hclosed (RawPath.closed_cons.1 h).2]
          rfl
      · rw [RawPath.segments_cons_of_opened hpath hopened,
          if_neg fun h => hopened (RawPath.closed_cons.1 h).1]
        simp [parseStep?_cons hpath]

end Steps

/-- What comes down to a path is read as its steps if no parenthesis is left open in front of a dot, and is
no lookup otherwise. -/
theorem parse?_of_barePath {path : RawPath} (hpath : path.WellFormed) {cs : List Char}
    (hbare : barePath cs = path.written) (mode : Mode) :
    parse? (String.ofList cs) mode =
      if path.Closed then some { steps := path.map RawStep.step, mode } else none := by
  have hread := mapM_parseStep?_segments hpath
  unfold parse? parseSteps?
  rw [String.toList_ofList, hbare, hread]
  by_cases hclosed : path.Closed
  · simp [hclosed]
  · simp [hclosed]

/-- A path is read as what it comes down to, and so it is with a dollar sign in front of it. -/
theorem parse?_raw {path : RawPath} (hpath : path.WellFormed) (mode : Mode) :
    (parse? (String.ofList path.written) mode =
      if path.Closed then some { steps := path.map RawStep.step, mode } else none) ∧
      parse? (String.ofList ('$' :: path.written)) mode =
        if path.Closed then some { steps := path.map RawStep.step, mode } else none := by
  obtain ⟨hdollar, hbare⟩ := RawPath.barePath_written hpath
  exact ⟨parse?_of_barePath hpath hbare mode, parse?_of_barePath hpath hdollar mode⟩

section Unclosed

/-- The text is a path. -/
def IsPath (path : List Char) : Prop :=
  ∃ raw : RawPath, raw.WellFormed ∧ raw.written = path

/-- The text is a path that leaves a parenthesis open in front of a dot. -/
def Unclosed (path : List Char) : Prop :=
  ∃ raw : RawPath, raw.WellFormed ∧ raw.written = path ∧ ¬raw.Closed

variable {path : List Char} {mode : Mode}

/-- An unclosed path is not a lookup. -/
theorem parse?_of_unclosed (h : Unclosed path) : parse? (String.ofList path) mode = none := by
  obtain ⟨raw, hraw, rfl, hopened⟩ := h
  rw [(parse?_raw hraw mode).1, if_neg hopened]

theorem parse?_of_not_unclosed (hpath : IsPath path) (h : ¬Unclosed path) :
    ∃ lookup, parse? (String.ofList path) mode = some lookup := by
  obtain ⟨raw, hraw, rfl⟩ := hpath
  by_cases hclosed : raw.Closed
  · exact ⟨_, (parse?_raw hraw mode).1.trans (if_pos hclosed)⟩
  · exact absurd ⟨raw, hraw, rfl, hclosed⟩ h

end Unclosed

end ComponentTemplates.Lookup
