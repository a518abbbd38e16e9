/-
Module: ComponentTemplates.Proofs.Text.Reading
Purpose: What readers take from the head of a text when what they look for is known to stand there: an
  identifier that nothing continues, a text before the first occurrence of a mark, a text in blanks, a
  list of texts with a mark between them.
Main exports: cut?_of_begins, cut?_cons_of_not_begins, cut?_of_not_mem, cut?_char,
  Identifier.split?_append, intercalate_map_cons, mem_intercalate_map, trimBlank_of_ends,
  trimBlank_in_blanks
-/
import ComponentTemplates.Text.Blank
import ComponentTemplates.Text.Identifier
import ComponentTemplates.Text.Split
import Mathlib.Data.List.Infix

namespace ComponentTemplates.Text

section Stretch

variable {p : Char → Bool} {stretch rest : List Char}

theorem dropWhile_of_head (hrest : ∀ c ∈ rest.head?, p c = false) : rest.dropWhile p = rest := by
  cases rest with
  | nil => rfl
  | cons c others =>
      have hc : p c = false := hrest c rfl
      simp [hc]

/-- A stretch is taken up to the first other character. -/
theorem takeWhile_stretch (hstretch : ∀ c ∈ stretch, p c = true)
    (hrest : ∀ c ∈ rest.head?, p c = false) : (stretch ++ rest).takeWhile p = stretch := by
  rw [List.takeWhile_append_of_pos hstretch]
  cases rest with
  | nil => simp
  | cons c others =>
      have hc : p c = false := hrest c rfl
      simp [hc]

theorem dropWhile_stretch (hstretch : ∀ c ∈ stretch, p c = true)
    (hrest : ∀ c ∈ rest.head?, p c = false) : (stretch ++ rest).dropWhile p = rest := by
  rw [List.dropWhile_append_of_pos hstretch]
  exact dropWhile_of_head hrest

/-- Every text begins with a stretch that does not go on. -/
theorem exists_stretch (p : Char → Bool) (cs : List Char) :
    ∃ stretch rest, cs = stretch ++ rest ∧ (∀ c ∈ stretch, p c = true) ∧
      ∀ c ∈ rest.head?, p c = false := by
  refine ⟨cs.takeWhile p, cs.dropWhile p, List.takeWhile_append_dropWhile.symm,
    List.all_eq_true.1 List.all_takeWhile, ?_⟩
  intro c hc
  have hhead := List.head?_dropWhile_not p cs
  rw [hc] at hhead
  exact hhead

end Stretch

section Cut

variable {mark rest : List Char} {c : Char}

/-- A text that begins with the mark is cut at its start. -/
theorem cut?_of_begins {cs : List Char} (h : mark.isPrefixOf cs = true) :
    cut? mark cs = some ([], cs.drop mark.length) := by
  unfold cut?
  rw [if_pos h]

/-- A text that does not begin with the mark is cut where its rest is. -/
theorem cut?_cons_of_not_begins (h : ¬mark.isPrefixOf (c :: rest) = true) :
    cut? mark (c :: rest) = (cut? mark rest).map fun (before, after) => (c :: before, after) := by
  rw [cut?, if_neg h]

theorem cut?_nil_of_not_begins (h : ¬mark.isPrefixOf [] = true) : cut? mark [] = none := by
  rw [cut?, if_neg h]

/-- A mark does not begin with a character that it has not in front. -/
theorem cut?_cons_of_ne {d : Char} (hd : c ≠ d) :
    cut? (c :: mark) (d :: rest) =
      (cut? (c :: mark) rest).map fun (before, after) => (d :: before, after) :=
  cut?_cons_of_not_begins (by simp [hd])

/-- A mark is looked for behind text that does not hold its first character. -/
theorem cut?_append_of_not_mem {before : List Char} (h : c ∉ before) (rest : List Char) :
    cut? (c :: mark) (before ++ rest) =
      (cut? (c :: mark) rest).map fun (between, after) => (before ++ between, after) := by
  induction before with
  | nil => simp
  | cons d others ih =>
      have hd : c ≠ d := fun heq => h (heq ▸ List.mem_cons_self ..)
      have hothers : c ∉ others := fun hmem => h (List.mem_cons_of_mem _ hmem)
      rw [List.cons_append, cut?_cons_of_ne hd, ih hothers, Option.map_map]
      rfl

/-- Text that does not hold the first character of a mark ends where the mark begins. -/
theorem cut?_of_not_mem {before : List Char} (h : c ∉ before) (after : List Char) :
    cut? (c :: mark) (before ++ c :: mark ++ after) = some (before, after) := by
  have hmark : (c :: mark).isPrefixOf (c :: mark ++ after) = true :=
    List.isPrefixOf_iff_prefix.2 (List.prefix_append _ _)
  rw [List.append_assoc, cut?_append_of_not_mem h, cut?_of_begins hmark, List.drop_left]
  simp

end Cut

/-- A text is cut at the first occurrence of a character. -/
theorem cut?_char {c : Char} {before : List Char} (h : c ∉ before) (after : List Char) :
    cut? [c] (before ++ c :: after) = some (before, after) := by
  have hcut : cut? (c :: []) (before ++ c :: [] ++ after) = some (before, after) :=
    cut?_of_not_mem h after
  rwa [List.append_assoc] at hcut

/-- A mark that is found nowhere is no part of the text. -/
theorem cut?_eq_none_iff {mark cs : List Char} : cut? mark cs = none ↔ ¬mark <:+: cs := by
  induction cs with
  | nil =>
      by_cases hmark : mark.isPrefixOf [] = true
      · rw [cut?_of_begins hmark]
        exact iff_of_false nofun (not_not_intro (List.isPrefixOf_iff_prefix.1 hmark).isInfix)
      · rw [cut?_nil_of_not_begins hmark]
        refine iff_of_true rfl fun hinside => hmark ?_
        rw [List.infix_nil.1 hinside]
        rfl
  | cons c rest ih =>
      rw [List.infix_cons_iff, ← List.isPrefixOf_iff_prefix]
      by_cases hmark : mark.isPrefixOf (c :: rest) = true
      · rw [cut?_of_begins hmark]
        exact iff_of_false nofun (not_not_intro (.inl hmark))
      · rw [cut?_cons_of_not_begins hmark, Option.map_eq_none_iff, ih, not_or]
        exact (and_iff_right hmark).symm

/-- A text is cut exactly if the mark stands in it. -/
theorem isSome_cut?_iff {mark cs : List Char} : (cut? mark cs).isSome = true ↔ mark <:+: cs := by
  rw [Option.isSome_iff_ne_none, Ne, cut?_eq_none_iff, not_not]

theorem cut?_char_eq_none_iff {c : Char} {cs : List Char} : cut? [c] cs = none ↔ c ∉ cs := by
  rw [cut?_eq_none_iff, List.singleton_infix_iff]

/-- The first mark of a text is that in front of any other text. -/
theorem cut?_append {mark cs before after : List Char} (h : cut? mark cs = some (before, after))
    (other : List Char) : cut? mark (before ++ mark ++ other) = some (before, other) := by
  induction cs generalizing before with
  | nil =>
      by_cases hmark : mark.isPrefixOf [] = true
      · rw [cut?_of_begins hmark] at h
        cases h
        obtain rfl : mark = [] := List.prefix_nil.1 (List.isPrefixOf_iff_prefix.1 hmark)
        exact cut?_of_begins rfl
      · rw [cut?_nil_of_not_begins hmark] at h
        cases h
  | cons c rest ih =>
      by_cases hmark : mark.isPrefixOf (c :: rest) = true
      · rw [cut?_of_begins hmark] at h
        cases h
        have hbegins : mark.isPrefixOf (mark ++ other) = true :=
          List.isPrefixOf_iff_prefix.2 (List.prefix_append mark other)
        rw [List.nil_append, cut?_of_begins hbegins, List.drop_left]
      · rw [cut?_cons_of_not_begins hmark] at h
        obtain ⟨⟨front, tail⟩, hrest, heq⟩ := Option.map_eq_some_iff.1 h
        cases heq
        -- an earlier mark would be over before the other text begins
        have hearlier : ¬mark.isPrefixOf (c :: (front ++ mark ++ other)) = true := by
          intro hbegins
          have hinside : mark <+: c :: (front ++ mark) := by
            apply List.prefix_of_prefix_length_le (List.isPrefixOf_iff_prefix.1 hbegins)
            · exact List.prefix_append (c :: (front ++ mark)) other
            · simp only [List.length_cons, List.length_append]
              omega
          apply hmark
          rw [← append_of_cut? hrest]
          exact List.isPrefixOf_iff_prefix.2 (List.prefix_append_of_prefix hinside)
        rw [List.cons_append, List.cons_append, cut?_cons_of_not_begins hearlier, ih hrest]
        rfl

theorem not_mem_of_cut? {c : Char} {cs before after : List Char}
    (h : cut? [c] cs = some (before, after)) : c ∉ before := by
  induction cs generalizing before with
  | nil =>
      rw [cut?, if_neg (by simp)] at h
      cases h
  | cons d rest ih =>
      unfold cut? at h
      split at h
      · cases h
        exact List.not_mem_nil
      · rename_i hbegins
        obtain ⟨⟨inner, tail⟩, hcut, heq⟩ := Option.map_eq_some_iff.1 h
        cases heq
        have hne : c ≠ d := by simpa using hbegins
        exact List.not_mem_cons_of_ne_of_not_mem hne (ih hcut)

section Lists

variable {α : Type} {write : α → List Char} {separator : List Char}

/-- With separators between them: the first item, and each further one behind a separator. -/
theorem intercalate_map_cons (separator : List Char) (item : α) (rest : List α) :
    separator.intercalate ((item :: rest).map write) =
      write item ++ rest.flatMap fun next => separator ++ write next := by
  induction rest generalizing item with
  | nil => simp
  | cons next rest ih =>
      rw [List.map_cons, List.map_cons, List.intercalate_cons_cons, ← List.map_cons, ih,
        List.flatMap_cons]
      simp

/-- Between and in the items, nothing else is written. -/
theorem mem_intercalate_map {c : Char} {items : List α}
    (h : c ∈ separator.intercalate (items.map write)) :
    c ∈ separator ∨ ∃ item ∈ items, c ∈ write item := by
  cases items with
  | nil => cases h
  | cons item rest =>
      rw [intercalate_map_cons] at h
      rcases List.mem_append.1 h with hc | hc
      · exact .inr ⟨item, List.mem_cons_self .., hc⟩
      · obtain ⟨next, hnext, hc⟩ := List.mem_flatMap.1 hc
        rcases List.mem_append.1 hc with hc | hc
        · exact .inl hc
        · exact .inr ⟨next, List.mem_cons_of_mem _ hnext, hc⟩

end Lists

section Trim

variable {cs : List Char}

/-- A first character goes only if all others have gone. -/
theorem dropTrailing_cons {p : Char → Bool} (c : Char) (rest : List Char) :
    dropTrailing p (c :: rest) =
      if dropTrailing p rest = [] ∧ p c = true then [] else c :: dropTrailing p rest := by
  simp only [dropTrailing, List.reverse_cons, List.dropWhile_append, List.isEmpty_iff,
    List.reverse_eq_nil_iff]
  by_cases hrest : rest.reverse.dropWhile p = []
  · by_cases hc : p c = true <;> simp [hrest, hc]
  · simp [hrest]

/-- What goes stood at the end. -/
theorem dropTrailing_append_drop (p : Char → Bool) (cs : List Char) :
    dropTrailing p cs ++ cs.drop (dropTrailing p cs).length = cs := by
  have hbegins : dropTrailing p cs <+: cs := by
    rw [← List.reverse_suffix, dropTrailing, List.reverse_reverse]
    exact List.dropWhile_suffix p
  exact List.prefix_iff_eq_append.1 hbegins

theorem dropTrailing_of_last {p : Char → Bool} (h : ∀ c ∈ cs.getLast?, p c = false) :
    dropTrailing p cs = cs := by
  unfold dropTrailing
  rw [dropWhile_of_head, List.reverse_reverse]
  rwa [List.head?_reverse]

/-- Characters at the end that are all dropped make no difference. -/
theorem dropTrailing_append {p : Char → Bool} {after : List Char} (hafter : ∀ c ∈ after, p c = true) :
    dropTrailing p (cs ++ after) = dropTrailing p cs := by
  have hreverse : ∀ c ∈ after.reverse, p c = true := fun c hc => hafter c (List.mem_reverse.1 hc)
  unfold dropTrailing
  rw [List.reverse_append, List.dropWhile_append_of_pos hreverse]

/-- Blanks around a text are taken off with its own. -/
theorem trimBlank_in_blanks {before after : List Char} (hbefore : ∀ c ∈ before, isBlank c = true)
    (hafter : ∀ c ∈ after, isBlank c = true) : trimBlank (before ++ (cs ++ after)) = trimBlank cs := by
  unfold trimBlank dropAround
  rw [List.dropWhile_append_of_pos hbefore, List.dropWhile_append]
  by_cases hblank : cs.dropWhile isBlank = []
  · have hempty : (after ++ []).dropWhile isBlank = [] := dropWhile_stretch hafter nofun
    rw [List.append_nil] at hempty
    rw [hblank, List.isEmpty_nil, if_pos rfl, hempty]
  · rw [if_neg (by simpa using hblank), dropTrailing_append hafter]

variable (hfirst : ∀ c ∈ cs.head?, isBlank c = false) (hlast : ∀ c ∈ cs.getLast?, isBlank c = false)

include hfirst hlast

theorem trimBlank_of_ends : trimBlank cs = cs := by
  unfold trimBlank dropAround
  rw [dropWhile_of_head hfirst, dropTrailing_of_last hlast]

end Trim

namespace Identifier

variable {c : Char} {name rest : List Char}

theorem isRest_of_mem (hname : isIdentifier name = true) (hmem : c ∈ name) : isRest c = true := by
  cases name with
  | nil => cases hmem
  | cons first others =>
      obtain ⟨hfirst, hothers⟩ := Bool.and_eq_true_iff.1 hname
      rcases List.mem_cons.1 hmem with rfl | hmem
      · simp [isRest, hfirst]
      · exact List.all_eq_true.1 hothers c hmem

theorem ne_nil_of_isIdentifier (hname : isIdentifier name = true) : name ≠ [] := by
  rintro rfl
  cases hname

/-- A character that identifiers have is none that they have not. -/
theorem ne_of_isRest (h : isRest c = true) {d : Char} (hd : isRest d = false) : c ≠ d := by
  rintro rfl
  rw [h] at hd
  cases hd

/-- No character of a name is a blank. -/
theorem isBlank_of_isRest (h : isRest c = true) : isBlank c = false := by
  have hrange : (97 ≤ c.toNat ∧ c.toNat ≤ 122) ∨ (65 ≤ c.toNat ∧ c.toNat ≤ 90) ∨ c.toNat = 95 ∨
      (48 ≤ c.toNat ∧ c.toNat ≤ 57) := by
    simp only [isRest, isStart, isLetter, Bool.or_eq_true, Bool.and_eq_true, decide_eq_true_eq,
      beq_iff_eq, Char.le_def, UInt32.le_iff_toNat_le] at h
    rcases h with ((h | h) | h) | h
    · exact .inl h
    · exact .inr (.inl h)
    · exact .inr (.inr (.inl (by rw [h]; rfl)))
    · exact .inr (.inr (.inr h))
  simp only [isBlank, blankRanges, List.any_cons, List.any_nil, Bool.or_false,
    Bool.or_eq_false_iff, Bool.and_eq_false_imp, decide_eq_true_eq, decide_eq_false_iff_not]
  omega

/-- An identifier that nothing continues is read as a whole. -/
theorem split?_append (hname : isIdentifier name = true) (hrest : ∀ c ∈ rest.head?, isRest c = false) :
    split? (name ++ rest) = some (name, rest) := by
  cases name with
  | nil => cases hname
  | cons first others =>
      obtain ⟨hfirst, hothers⟩ := Bool.and_eq_true_iff.1 hname
      rw [List.all_eq_true] at hothers
      rw [List.cons_append, split?, if_pos hfirst, takeWhile_stretch hothers hrest,
        dropWhile_stretch hothers hrest]

end Identifier

end ComponentTemplates.Text
