/-
Module: ComponentTemplates.Proofs.Text.Delimited
Purpose: Writings that show where they end. After a literal anything may follow; after a name that may
  be bare, only what no identifier goes on with; after a list of such writings, a mark that cannot be
  taken for the next item. So what was written can be told from the text, and so can what follows it.
Main exports: Delimited, Quoted.literal_append_inj, Quoted.delimited_name, Delimited.intercalate
-/
import ComponentTemplates.Proofs.Text.Reading
import ComponentTemplates.Text.Quoted
import Mathlib.Data.List.Basic

namespace ComponentTemplates.Text

/-- Where nothing or one of the given characters follows, the text tells what is written and what
follows. -/
def Delimited {α : Type} (ends : Char → Prop) (write : α → List Char) : Prop :=
  ∀ ⦃first second : α⦄ ⦃after others : List Char⦄, (∀ c ∈ after.head?, ends c) →
    (∀ c ∈ others.head?, ends c) → write first ++ after = write second ++ others →
      first = second ∧ after = others

namespace Quoted

variable {first second : String} {after others : List Char}

theorem toList_literal (text : String) : (literal text).toList = write text.toList := by
  rw [literal, String.toList_ofList]

/-- A literal shows where it ends, whatever follows. -/
theorem write_append_inj {first second : List Char} :
    write first ++ after = write second ++ others ↔ first = second ∧ after = others := by
  constructor
  · intro h
    have hread : read? (write first ++ after) = read? (write second ++ others) := by rw [h]
    rw [read?_write, read?_write] at hread
    simpa using hread
  · rintro ⟨rfl, rfl⟩
    rfl

/-- Literals can be told apart, and it can be told where they end. -/
theorem literal_append_inj :
    (literal first).toList ++ after = (literal second).toList ++ others ↔
      first = second ∧ after = others := by
  rw [toList_literal, toList_literal, write_append_inj, String.toList_inj]

/-- The text of the name at the head of the input, bare or in quotes, with what follows it. -/
def readName? (cs : List Char) : Option (List Char × List Char) :=
  read? cs <|> Identifier.split? cs

/-- A printed name is read back, and what follows it is left. -/
theorem readName?_name (text : String) (hafter : ∀ c ∈ after.head?, Identifier.isRest c = false) :
    readName? ((name text).toList ++ after) = some (text.toList, after) := by
  unfold readName? name
  by_cases hbare : Identifier.isIdentifier text.toList = true
  · -- An identifier does not begin with a quote.
    have hquoted : read? (text.toList ++ after) = none := by
      cases hchars : text.toList with
      | nil => simp [hchars, Identifier.isIdentifier] at hbare
      | cons c rest =>
          have hc : c ≠ '\'' := by
            rintro rfl
            rw [hchars] at hbare
            simp [Identifier.isIdentifier, Identifier.isStart, Identifier.isLetter] at hbare
          simp [read?, hc]
    rw [if_pos hbare, hquoted, Identifier.split?_append hbare hafter]
    rfl
  · rw [if_neg hbare, toList_literal, read?_write]
    rfl

/-- A name shows where it ends if no identifier could go on there. -/
theorem delimited_name : Delimited (Identifier.isRest · = false) fun text => (name text).toList := by
  intro first second after others hafter hothers h
  have hread : readName? ((name first).toList ++ after) =
      readName? ((name second).toList ++ others) := congrArg readName? h
  rw [readName?_name first hafter, readName?_name second hothers] at hread
  simpa [String.toList_inj] using hread

theorem name_first (text : String) : ∃ c rest, (name text).toList = c :: rest ∧ c ≠ ')' := by
  unfold name
  split
  · next hbare =>
      obtain ⟨c, rest, hchars⟩ :=
        List.exists_cons_of_ne_nil (Identifier.ne_nil_of_isIdentifier hbare)
      have hc : Identifier.isRest c = true :=
        Identifier.isRest_of_mem hbare (by rw [hchars]; exact List.mem_cons_self ..)
      exact ⟨c, rest, hchars, Identifier.ne_of_isRest hc (by decide)⟩
  · exact ⟨'\'', _, toList_literal text, by decide⟩

/-- Line breaks are written as escapes, so that generated code is read line by line. -/
theorem lineBreak_not_mem_literal {c : Char} (hc : c = '\n' ∨ c = '\r') (text : String) :
    c ∉ (literal text).toList := by
  have hplain : c ≠ '\\' ∧ c ≠ '\'' ∧ c ≠ 'n' ∧ c ≠ 'r' := by
    rcases hc with rfl | rfl
    · decide
    · decide
  have hescaped : ∀ d, c ∉ escapeChar d := by
    intro d
    unfold escapeChar
    split
    case h_5 hnewline hreturn =>
      rw [List.mem_singleton]
      rintro rfl
      exact hc.elim hnewline hreturn
    all_goals simp [hplain]
  simp [toList_literal, write, hescaped, hplain]

theorem newline_not_mem_literal (text : String) : '\n' ∉ (literal text).toList :=
  lineBreak_not_mem_literal (.inl rfl) text

theorem newline_not_mem_name (text : String) : '\n' ∉ (name text).toList := by
  unfold name
  split
  · next hbare =>
      intro hmem
      exact Identifier.ne_of_isRest (Identifier.isRest_of_mem hbare hmem) (by decide) rfl
  · exact newline_not_mem_literal text

end Quoted

section Lists

variable {α : Type} {write : α → List Char} {mark close : Char} {blanks : List Char}

/-- A mark, or what follows the last item, is what an item is followed by. -/
theorem head?_marked (rest : List α) {after : List Char} (hafter : ∀ c ∈ after.head?, c = close) :
    ∀ c ∈ ((rest.flatMap fun next => mark :: blanks ++ write next) ++ after).head?,
      c = mark ∨ c = close := by
  intro c hc
  cases rest with
  | nil => exact .inr (hafter c (by simpa using hc))
  | cons next rest => exact .inl (by simpa using hc.symm)

/-- Behind an item there is a mark, so that the item can be told and the rest is left. -/
theorem marked_append_inj (hmarks : mark ≠ close)
    (hitem : Delimited (fun c => c = mark ∨ c = close) write) {rest others : List α}
    {after following : List Char} (hafter : ∀ c ∈ after.head?, c = close)
    (hfollowing : ∀ c ∈ following.head?, c = close)
    (h : (rest.flatMap fun next => mark :: blanks ++ write next) ++ after =
      (others.flatMap fun next => mark :: blanks ++ write next) ++ following) :
    rest = others ∧ after = following := by
  induction rest generalizing others with
  | nil =>
      cases others with
      | nil => exact ⟨rfl, by simpa using h⟩
      | cons next others =>
          rw [List.flatMap_nil, List.nil_append] at h
          subst h
          exact absurd (hafter mark rfl) hmarks
  | cons item rest ih =>
      cases others with
      | nil =>
          rw [List.flatMap_nil, List.nil_append] at h
          subst h
          exact absurd (hfollowing mark rfl) hmarks
      | cons next others =>
          simp only [List.flatMap_cons, List.append_assoc, List.append_cancel_left_eq] at h
          obtain ⟨rfl, hrest⟩ :=
            hitem (head?_marked rest hafter) (head?_marked others hfollowing) h
          obtain ⟨rfl, rfl⟩ := ih hrest
          exact ⟨rfl, rfl⟩

/-- Items that show where they end, with marks between them, show where the last one ends if
something other than a mark or an item follows. -/
theorem Delimited.intercalate (hmarks : mark ≠ close)
    (hitem : Delimited (fun c => c = mark ∨ c = close) write)
    (hfirst : ∀ item, ∃ c rest, write item = c :: rest ∧ c ≠ close) :
    Delimited (· = close) fun items : List α =>
      (mark :: blanks).intercalate (items.map write) := by
  intro first second after others hafter hothers h
  have hempty : ∀ {item : α} {rest : List α} {before following : List Char},
      (∀ c ∈ before.head?, c = close) →
        before ≠ (mark :: blanks).intercalate ((item :: rest).map write) ++ following := by
    rintro item rest before following hbefore rfl
    obtain ⟨c, others, hwritten, hc⟩ := hfirst item
    rw [intercalate_map_cons, hwritten] at hbefore
    exact hc (hbefore c rfl)
  cases first with
  | nil =>
      cases second with
      | nil => exact ⟨rfl, by simpa using h⟩
      | cons item rest => exact absurd h (hempty hafter)
  | cons item rest =>
      cases second with
      | nil => exact absurd h.symm (hempty hothers)
      | cons next following =>
          simp only [intercalate_map_cons, List.append_assoc] at h
          obtain ⟨rfl, hrest⟩ :=
            hitem (head?_marked rest hafter) (head?_marked following hothers) h
          obtain ⟨rfl, rfl⟩ := marked_append_inj hmarks hitem hafter hothers hrest
          exact ⟨rfl, rfl⟩

end Lists

end ComponentTemplates.Text
