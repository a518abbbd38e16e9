/-
Module: ComponentTemplates.Proofs.Text.Regex
Purpose: Regular expressions whose alternatives are tried in order. All ways to match at the head of a text
  are listed, the ones that are tried first in front, so that the match is the first of them. Repetition
  takes as much as it can, or as little if it is lazy. Main statements: a greedy class takes the longest
  stretch if what follows it cannot match earlier (`first?_stretch_seq`), and a lazy one goes on to the
  leftmost match of what follows it (`first?_lazy_seq`).
Main exports: Regex, Regex.ways, Regex.first?, Regex.find?, first?_seq_of_some, first?_stretch_seq,
  first?_lazy_seq
-/
import ComponentTemplates.Proofs.Text.Reading

namespace ComponentTemplates

/-- A regular expression with named groups. -/
inductive Regex where
  /-- A character of a class. -/
  | set (accepts : Char → Bool)
  | text (written : List Char)
  | seq (first second : Regex)
  /-- What is tried first comes first. -/
  | either (first second : Regex)
  /-- Any number of times, the more the better, or the fewer if it is lazy. -/
  | many (item : Regex) (lazy : Bool := false)
  | group (name : String) (body : Regex)

namespace Regex

instance : Append Regex := ⟨.seq⟩

/-- At least once, the more the better. -/
def atLeastOnce (item : Regex) : Regex :=
  item ++ item.many

/-- Once or not at all, better once. -/
def optional (item : Regex) : Regex :=
  .either item (.text [])

/-- Any character. -/
def any : Regex :=
  .set fun _ => true

/-- A way to match at the head of a text: what it takes, what its groups take, and what is left. -/
structure Way where
  taken : List Char
  groups : List (String × List Char)
  rest : List Char
deriving DecidableEq, Repr

/-- A way without groups. -/
def Way.plain (taken rest : List Char) : Way where
  taken := taken
  groups := []
  rest := rest

/-- One way, then another from where it has come. -/
def Way.andThen (first second : Way) : Way where
  taken := first.taken ++ second.taken
  groups := first.groups ++ second.groups
  rest := second.rest

/-- A way that takes a text in front as well. -/
def Way.behind (before : List Char) (way : Way) : Way :=
  { way with taken := before ++ way.taken }

/-- What the way takes becomes a group. -/
def Way.named (name : String) (way : Way) : Way :=
  { way with groups := (name, way.taken) :: way.groups }

/-- All ways to match an item again and again. Each time it has to take something. -/
def repeated (item : List Char → List Way) (lazy : Bool) (cs : List Char) : List Way :=
  let again := (item cs).flatMap fun way =>
    if _h : way.rest.length < cs.length then (repeated item lazy way.rest).map way.andThen else []
  if lazy then .plain [] cs :: again else again ++ [.plain [] cs]
termination_by cs.length

/-- All ways to match at the head of a text, the one that is tried first in front. -/
def ways : Regex → List Char → List Way
  | .set _, [] => []
  | .set accepts, c :: rest => if accepts c then [.plain [c] rest] else []
  | .text written, cs =>
      if written.isPrefixOf cs then [.plain written (cs.drop written.length)] else []
  | .seq first second, cs =>
      (first.ways cs).flatMap fun way => (second.ways way.rest).map way.andThen
  | .either first second, cs => first.ways cs ++ second.ways cs
  | .many item lazy, cs => repeated item.ways lazy cs
  | .group name body, cs => (body.ways cs).map (·.named name)

/-- The match at the head of a text. -/
def first? (regex : Regex) (cs : List Char) : Option Way :=
  (regex.ways cs).head?

/-- The leftmost match in a text, with what stands before it. -/
def find? (regex : Regex) : List Char → Option (List Char × Way)
  | [] => (regex.first? []).map fun way => ([], way)
  | c :: rest =>
      match regex.first? (c :: rest) with
      | .some way => .some ([], way)
      | none => (regex.find? rest).map fun (before, way) => (c :: before, way)

/-! ## Ways and the first of them -/

@[simp] theorem Way.rest_andThen (first second : Way) : (first.andThen second).rest = second.rest :=
  rfl

@[simp] theorem Way.taken_andThen (first second : Way) :
    (first.andThen second).taken = first.taken ++ second.taken := rfl

section Operations

variable {first second : Regex} {cs : List Char} {way next : Way}

/-- The ways to match two expressions in a row are ways to match the first and then the second. -/
theorem mem_ways_seq : way ∈ (first ++ second).ways cs ↔
    ∃ one ∈ first.ways cs, ∃ two ∈ second.ways one.rest, one.andThen two = way := by
  change way ∈ (first.ways cs).flatMap (fun one => (second.ways one.rest).map one.andThen) ↔ _
  simp only [List.mem_flatMap, List.mem_map]

/-- The first way to match two in a row is the first way of the one that the other can go on from. -/
theorem first?_seq : (first ++ second).first? cs =
    (first.ways cs).findSome? fun one => (second.first? one.rest).map one.andThen := by
  change ((first.ways cs).flatMap fun one => (second.ways one.rest).map one.andThen).head? = _
  rw [List.head?_flatMap]
  simp only [List.head?_map]
  rfl

/-- If the other can go on from the first way, that is the match. -/
theorem first?_seq_of_some (hfirst : first.first? cs = some way)
    (hsecond : second.first? way.rest = some next) :
    (first ++ second).first? cs = some (way.andThen next) := by
  obtain ⟨others, hways⟩ := List.head?_eq_some_iff.1 hfirst
  rw [first?_seq, hways, List.findSome?_cons, hsecond]
  rfl

/-- If the other can go on from no way, there is no match. -/
theorem first?_seq_of_none (h : ∀ one ∈ first.ways cs, second.first? one.rest = none) :
    (first ++ second).first? cs = none := by
  rw [first?_seq, List.findSome?_eq_none_iff]
  intro one hone
  rw [h one hone, Option.map_none]

theorem first?_seq_of_first (h : first.first? cs = none) : (first ++ second).first? cs = none := by
  rw [first?_seq, List.head?_eq_none_iff.1 h]
  rfl

/-- If the second can always match, all depends on the first. -/
theorem first?_seq_of_total (h : ∀ rest, ∃ found, second.first? rest = some found) :
    (first ++ second).first? cs =
      (first.first? cs).bind fun one => (second.first? one.rest).map one.andThen := by
  cases hfirst : first.first? cs with
  | none => exact first?_seq_of_first hfirst
  | some one =>
      obtain ⟨found, hfound⟩ := h one.rest
      rw [first?_seq_of_some hfirst hfound, Option.bind_some, hfound]
      rfl

/-- The second alternative is tried where the first does not match. -/
theorem first?_either : (Regex.either first second).first? cs =
    (first.first? cs).or (second.first? cs) :=
  List.head?_append

theorem first?_group {name : String} :
    (Regex.group name first).first? cs = (first.first? cs).map (·.named name) :=
  List.head?_map

theorem first?_text (written : List Char) : (Regex.text written).first? cs =
    if written.isPrefixOf cs then some (.plain written (cs.drop written.length)) else none := by
  rw [first?, ways]
  split <;> rfl

theorem mem_ways_set {accepts : Char → Bool} (h : way ∈ (Regex.set accepts).ways cs) :
    ∃ c rest, cs = c :: rest ∧ accepts c = true ∧ way = .plain [c] rest := by
  cases cs with
  | nil => cases h
  | cons c rest =>
      rw [ways] at h
      split at h
      · rename_i hc
        exact ⟨c, rest, rfl, hc, List.mem_singleton.1 h⟩
      · cases h

theorem mem_ways_text {written : List Char} (h : way ∈ (Regex.text written).ways cs) :
    ∃ rest, cs = written ++ rest ∧ way = .plain written rest := by
  rw [ways] at h
  split at h
  · rename_i hprefix
    obtain ⟨rest, rfl⟩ := List.isPrefixOf_iff_prefix.1 hprefix
    rw [List.drop_left] at h
    exact ⟨rest, rfl, List.mem_singleton.1 h⟩
  · cases h

theorem first?_text_append (written rest : List Char) :
    (Regex.text written).first? (written ++ rest) = some (.plain written rest) := by
  have hprefix : written.isPrefixOf (written ++ rest) = true :=
    List.isPrefixOf_iff_prefix.2 (List.prefix_append _ _)
  rw [first?_text, if_pos hprefix, List.drop_left]

/-- A text has one way to match at most. -/
theorem first?_text_seq (written rest : List Char) :
    (Regex.text written ++ second).first? (written ++ rest) =
      (second.first? rest).map (·.behind written) := by
  have hways : (Regex.text written).ways (written ++ rest) = [.plain written rest] := by
    have hprefix : written.isPrefixOf (written ++ rest) = true :=
      List.isPrefixOf_iff_prefix.2 (List.prefix_append _ _)
    rw [ways, if_pos hprefix, List.drop_left]
  rw [first?_seq, hways, List.findSome?_singleton]
  rfl

theorem first?_text_seq_of_not_prefix {written : List Char} (h : ¬written <+: cs) :
    (Regex.text written ++ second).first? cs = none := by
  apply first?_seq_of_first
  rw [first?_text, if_neg (by simpa using h)]

end Operations

section Many

variable {item : Regex} {cs : List Char} {way : Way}

/-- An item is repeated as long as it takes something, and then not any more. -/
theorem ways_many : item.many.ways cs = ((item.ways cs).flatMap fun one =>
    if one.rest.length < cs.length then (item.many.ways one.rest).map one.andThen else []) ++
      [.plain [] cs] := by
  rw [ways, repeated]
  simp only [Bool.false_eq_true, if_false, dite_eq_ite]
  rfl

theorem ways_many_ne_nil : item.many.ways cs ≠ [] := by
  rw [ways_many]
  exact List.concat_ne_nil _ _

/-- Once more if it can be done. -/
theorem first?_many_of_some (h : item.first? cs = some way) (hlt : way.rest.length < cs.length) :
    item.many.first? cs = (item.many.first? way.rest).map way.andThen := by
  obtain ⟨others, hways⟩ := List.head?_eq_some_iff.1 h
  have hne : item.many.ways way.rest ≠ [] := ways_many_ne_nil
  obtain ⟨next, more, hmore⟩ := List.exists_cons_of_ne_nil hne
  rw [first?, first?, ways_many, hways, List.flatMap_cons, if_pos hlt, hmore]
  rfl

theorem first?_many_of_none (h : item.first? cs = none) :
    item.many.first? cs = some (.plain [] cs) := by
  rw [first?, ways_many, List.head?_eq_none_iff.1 h]
  rfl

/-- A repetition matches nothing, or the item and then a repetition on less text. -/
theorem mem_ways_many {lazy : Bool} (h : way ∈ (item.many lazy).ways cs) :
    way = .plain [] cs ∨ ∃ one ∈ item.ways cs, ∃ two ∈ (item.many lazy).ways one.rest,
      one.rest.length < cs.length ∧ one.andThen two = way := by
  have hmem : way = .plain [] cs ∨ way ∈ (item.ways cs).flatMap fun one =>
      if _h : one.rest.length < cs.length then
        ((item.many lazy).ways one.rest).map one.andThen
      else [] := by
    rw [ways, repeated] at h
    cases lazy with
    | true => exact List.mem_cons.1 h
    | false => exact (List.mem_append.1 h).symm.imp_left List.mem_singleton.1
  refine hmem.imp_right ?_
  intro hmore
  obtain ⟨one, hone, hnext⟩ := List.mem_flatMap.1 hmore
  split at hnext
  · rename_i hlt
    obtain ⟨two, htwo, rfl⟩ := List.mem_map.1 hnext
    exact ⟨one, hone, two, htwo, hlt, rfl⟩
  · cases hnext

end Many

/-- A match takes what stands at the head of the text, and leaves the rest. -/
theorem append_of_mem_ways {regex : Regex} {cs : List Char} {way : Way}
    (h : way ∈ regex.ways cs) : way.taken ++ way.rest = cs := by
  induction regex generalizing cs way with
  | set accepts =>
      obtain ⟨c, rest, rfl, -, rfl⟩ := mem_ways_set h
      rfl
  | text written =>
      obtain ⟨rest, rfl, rfl⟩ := mem_ways_text h
      rfl
  | seq first second ihfirst ihsecond =>
      obtain ⟨one, hone, two, htwo, rfl⟩ := mem_ways_seq.1 h
      rw [← ihfirst hone, ← ihsecond htwo]
      exact List.append_assoc ..
  | either first second ihfirst ihsecond =>
      rcases List.mem_append.1 h with h | h
      · exact ihfirst h
      · exact ihsecond h
  | many item lazy ih =>
      induction hlength : cs.length using Nat.strongRecOn generalizing cs way with
      | ind length ihmore =>
          rcases mem_ways_many h with rfl | ⟨one, hone, two, htwo, hlt, rfl⟩
          · rfl
          · have hmore := ihmore one.rest.length (hlength ▸ hlt) htwo rfl
            rw [← ih hone, ← hmore]
            exact List.append_assoc ..
  | group name body ih =>
      obtain ⟨inner, hinner, rfl⟩ := List.mem_map.1 h
      have hwritten := ih hinner
      exact hwritten

/-! ## Stretches of a class -/

section Stretch

variable {p : Char → Bool} {c : Char} {rest cs : List Char} {way : Way} {next : Regex}

/-- A character of the class is taken first, and left last. -/
theorem ways_stretch_cons_of (hc : p c = true) :
    (set p).many.ways (c :: rest) =
      ((set p).many.ways rest).map (Way.plain [c] rest).andThen ++ [.plain [] (c :: rest)] := by
  rw [ways_many, ways, if_pos hc, List.flatMap_singleton]
  exact congrArg (· ++ _) (if_pos (Nat.lt_succ_self _))

theorem ways_stretch_cons_of_not (hc : ¬p c = true) :
    (set p).many.ways (c :: rest) = [.plain [] (c :: rest)] := by
  rw [ways_many, ways, if_neg hc]
  rfl

theorem ways_stretch_nil : (set p).many.ways [] = [.plain [] []] := by
  rw [ways_many, ways]
  rfl

/-- A stretch is tried in its full length first. -/
theorem first?_stretch :
    (set p).many.first? cs = some (.plain (cs.takeWhile p) (cs.dropWhile p)) := by
  induction cs with
  | nil => rw [first?, ways_stretch_nil]; rfl
  | cons c rest ih =>
      by_cases hc : p c = true
      · obtain ⟨others, hways⟩ := List.head?_eq_some_iff.1 ih
        rw [first?, ways_stretch_cons_of hc, hways, List.takeWhile_cons_of_pos hc,
          List.dropWhile_cons_of_pos hc]
        rfl
      · rw [first?, ways_stretch_cons_of_not hc, List.takeWhile_cons_of_neg hc,
          List.dropWhile_cons_of_neg hc]
        rfl

/-- A stretch may be shorter than the class allows. -/
theorem mem_ways_stretch (h : way ∈ (set p).many.ways cs) :
    way.taken ++ way.rest = cs ∧ way.groups = [] ∧ ∀ c ∈ way.taken, p c = true := by
  induction cs generalizing way with
  | nil =>
      obtain rfl := List.mem_singleton.1 (ways_stretch_nil ▸ h)
      exact ⟨rfl, rfl, nofun⟩
  | cons c rest ih =>
      by_cases hc : p c = true
      · rw [ways_stretch_cons_of hc, List.mem_append, List.mem_map, List.mem_singleton] at h
        rcases h with ⟨more, hmore, rfl⟩ | rfl
        · obtain ⟨htaken, hgroups, hclass⟩ := ih hmore
          exact ⟨congrArg (c :: ·) htaken, hgroups, List.forall_mem_cons.2 ⟨hc, hclass⟩⟩
        · exact ⟨rfl, rfl, nofun⟩
      · obtain rfl := List.mem_singleton.1 (ways_stretch_cons_of_not hc ▸ h)
        exact ⟨rfl, rfl, nofun⟩

/-- If what follows a stretch cannot begin inside it, the stretch is as long as it can be. -/
theorem first?_stretch_seq (hnext : ∀ c rest, p c = true → next.first? (c :: rest) = none) :
    ((set p).many ++ next).first? cs =
      (next.first? (cs.dropWhile p)).map (Way.plain (cs.takeWhile p) (cs.dropWhile p)).andThen := by
  cases hrest : next.first? (cs.dropWhile p) with
  | some found => exact first?_seq_of_some first?_stretch hrest
  | none =>
      apply first?_seq_of_none
      intro way hway
      obtain ⟨htaken, _, hclass⟩ := mem_ways_stretch hway
      -- what is left goes on with the class, or the stretch was as long as it can be
      cases hleft : way.rest with
      | nil =>
          rw [← htaken, hleft, Text.dropWhile_stretch hclass (by simp)] at hrest
          exact hrest
      | cons c others =>
          by_cases hc : p c = true
          · exact hnext c others hc
          · have hhead : ∀ d ∈ (c :: others).head?, p d = false := by
              rintro d ⟨⟩
              exact Bool.eq_false_iff.2 hc
            rw [← htaken, hleft, Text.dropWhile_stretch hclass hhead] at hrest
            exact hrest

/-- What is not a character, and then the character. -/
theorem first?_until : ((set (· != c)).many ++ text [c]).first? cs =
    (Text.cut? [c] cs).map fun (before, after) => .plain (before ++ [c]) after := by
  have hnext : ∀ d rest, (d != c) = true → (text [c]).first? (d :: rest) = none := by
    intro d rest hd
    rw [first?_text, if_neg (by simpa using Ne.symm (bne_iff_ne.1 hd))]
  rw [first?_stretch_seq hnext]
  induction cs with
  | nil =>
      rw [Text.cut?_nil_of_not_begins (by simp)]
      rfl
  | cons d rest ih =>
      by_cases hd : d = c
      · subst hd
        rw [List.dropWhile_cons_of_neg (by simp), List.takeWhile_cons_of_neg (by simp),
          Text.cut?_of_begins (by simp), first?_text, if_pos (by simp)]
        rfl
      · rw [List.dropWhile_cons_of_pos (by simpa using hd),
          List.takeWhile_cons_of_pos (by simpa using hd), Text.cut?_cons_of_ne (Ne.symm hd)]
        have hrest := congrArg (Option.map (Way.behind [d])) ih
        rw [Option.map_map, Option.map_map] at hrest
        rw [Option.map_map]
        exact hrest

end Stretch

/-! ## The leftmost match -/

section Find

variable {c : Char} {rest cs before : List Char} {way : Way} {next : Regex}

theorem find?_of_first? (h : next.first? cs = some way) : next.find? cs = some ([], way) := by
  cases cs with
  | nil => rw [find?, h]; rfl
  | cons c rest => rw [find?, h]

/-- Without a match at the head, the leftmost one is that of the rest. -/
theorem find?_cons_of_none (h : next.first? (c :: rest) = none) :
    next.find? (c :: rest) = (next.find? rest).map fun (before, way) => (c :: before, way) := by
  rw [find?, h]

/-- What stands at the head of a text is found there. -/
theorem first?_of_find? (h : next.find? cs = some ([], way)) : next.first? cs = some way := by
  cases hfirst : next.first? cs with
  | some found =>
      rw [find?_of_first? hfirst] at h
      exact congrArg (Option.map Prod.snd) h
  | none =>
      cases cs with
      | nil => rw [find?, hfirst] at h; cases h
      | cons c rest =>
          rw [find?_cons_of_none hfirst] at h
          obtain ⟨found, -, heq⟩ := Option.map_eq_some_iff.1 h
          cases heq

theorem first?_of_find?_eq_none (h : next.find? cs = none) : next.first? cs = none := by
  cases hfirst : next.first? cs with
  | none => rfl
  | some found =>
      rw [find?_of_first? hfirst] at h
      cases h

/-- A lazy repetition takes nothing first, and then one character more and more. -/
theorem ways_lazy : (any.many true).ways cs = .plain [] cs ::
    match cs with
    | [] => []
    | c :: rest => ((any.many true).ways rest).map (Way.plain [c] rest).andThen := by
  rw [ways, repeated]
  cases cs with
  | nil => rfl
  | cons c rest =>
      have hany : any.ways (c :: rest) = [.plain [c] rest] := rfl
      rw [hany, if_pos rfl, List.flatMap_singleton]
      exact congrArg (_ :: ·) (dif_pos (Nat.lt_succ_self _))

/-- Any text is skipped until what follows it matches. -/
theorem findSome?_lazy (next : Regex)
    (skip : List Char → List (String × List Char) → Way → Way) (cs : List Char) :
    (((any.many true).ways cs).findSome? fun one =>
      (next.first? one.rest).map (skip one.taken one.groups)) =
        (next.find? cs).map fun (before, way) => skip before [] way := by
  induction cs generalizing skip with
  | nil =>
      rw [ways_lazy, find?, List.findSome?_singleton, Option.map_map]
      rfl
  | cons c rest ih =>
      have hplace : (Way.plain [] (c :: rest)).rest = c :: rest := rfl
      rw [ways_lazy, List.findSome?_cons, hplace]
      cases hfirst : next.first? (c :: rest) with
      | some way =>
          rw [find?_of_first? hfirst]
          rfl
      | none =>
          rw [find?_cons_of_none hfirst, Option.map_map, Option.map_none, List.findSome?_map]
          exact ih fun before => skip (c :: before)

theorem first?_lazy_seq : (any.many true ++ next).first? cs =
    (next.find? cs).map fun (before, way) => way.behind before := by
  rw [first?_seq]
  exact findSome?_lazy next (fun taken groups way =>
    { taken := taken ++ way.taken, groups := groups ++ way.groups, rest := way.rest }) cs

/-- The text to be skipped may be a group. -/
theorem first?_group_lazy_seq (name : String) : (group name (any.many true) ++ next).first? cs =
    (next.find? cs).map fun (before, way) =>
      { way.behind before with groups := (name, before) :: way.groups } := by
  have hways : (group name (any.many true)).ways cs =
      ((any.many true).ways cs).map (·.named name) := rfl
  rw [first?_seq, hways, List.findSome?_map]
  exact findSome?_lazy next (fun taken groups way =>
    { taken := taken ++ way.taken, groups := (name, taken) :: groups ++ way.groups,
      rest := way.rest }) cs

/-- The leftmost match of a text is where the text is cut. -/
theorem find?_text (mark : List Char) : (text mark).find? cs =
    (Text.cut? mark cs).map fun (before, after) => (before, .plain mark after) := by
  induction cs with
  | nil =>
      rw [find?, first?_text]
      by_cases hmark : mark.isPrefixOf [] = true
      · rw [if_pos hmark, Text.cut?_of_begins hmark]
        rfl
      · rw [if_neg hmark, Text.cut?_nil_of_not_begins hmark]
        rfl
  | cons c rest ih =>
      by_cases hmark : mark.isPrefixOf (c :: rest) = true
      · rw [find?_of_first? ((first?_text mark).trans (if_pos hmark)), Text.cut?_of_begins hmark]
        rfl
      · rw [find?_cons_of_none ((first?_text mark).trans (if_neg hmark)),
          Text.cut?_cons_of_not_begins hmark, ih, Option.map_map, Option.map_map]
        rfl

end Find

section Trimmed

variable {p : Char → Bool} {c : Char} {mark cs : List Char}

/-- The match of a mark behind this text, with the class at the end of the text in it. -/
def trimmed (p : Char → Bool) (mark before after : List Char) : List Char × Way :=
  (Text.dropTrailing p before,
    .plain (before.drop (Text.dropTrailing p before).length ++ mark) after)

/-- A character of the class is trimmed if everything behind it is. -/
theorem trimmed_cons_of {before : List Char} (hc : p c = true)
    (hbefore : Text.dropTrailing p before = []) (after : List Char) :
    trimmed p mark (c :: before) after = ([], .plain (c :: before ++ mark) after) := by
  rw [trimmed, Text.dropTrailing_cons, if_pos ⟨hbefore, hc⟩]
  rfl

/-- Any other character is kept, and what is behind it is trimmed. -/
theorem trimmed_cons_of_not {before : List Char}
    (h : ¬(Text.dropTrailing p before = [] ∧ p c = true)) (after : List Char) :
    trimmed p mark (c :: before) after =
      (c :: (trimmed p mark before after).1, (trimmed p mark before after).2) := by
  rw [trimmed, Text.dropTrailing_cons, if_neg h]
  rfl

/-- In front of a text that does not begin with the class, the longest stretch is taken. -/
theorem first?_stretch_text (hc : p c = false) :
    ((set p).many ++ text (c :: mark)).first? cs =
      ((text (c :: mark)).first? (cs.dropWhile p)).map
        (Way.plain (cs.takeWhile p) (cs.dropWhile p)).andThen := by
  apply first?_stretch_seq
  intro d rest hd
  have hne : c ≠ d := by
    rintro rfl
    rw [hc] at hd
    cases hd
  rw [first?_text, if_neg (by simp [hne])]

/-- A character of the class in front of the stretch belongs to it. -/
theorem first?_stretch_text_cons {d : Char} {rest : List Char} (hc : p c = false)
    (hd : p d = true) :
    ((set p).many ++ text (c :: mark)).first? (d :: rest) =
      (((set p).many ++ text (c :: mark)).first? rest).map (·.behind [d]) := by
  rw [first?_stretch_text hc, first?_stretch_text hc, List.dropWhile_cons_of_pos hd,
    List.takeWhile_cons_of_pos hd, Option.map_map]
  rfl

/-- One more character of the class in front of a match: it belongs to the match if that has come to the
front, and else it is skipped. -/
theorem find?_stretch_text_cons {d : Char} {rest before after : List Char} (hc : p c = false)
    (hd : p d = true) (h : ((set p).many ++ text (c :: mark)).find? rest =
      some (trimmed p (c :: mark) before after)) :
    ((set p).many ++ text (c :: mark)).find? (d :: rest) =
      some (trimmed p (c :: mark) (d :: before) after) := by
  have hfirst : ((set p).many ++ text (c :: mark)).first? (d :: rest) = _ :=
    first?_stretch_text_cons hc hd
  cases hrest : ((set p).many ++ text (c :: mark)).first? rest with
  | some way =>
      rw [find?_of_first? hrest] at h
      obtain ⟨hbefore, rfl⟩ := Prod.mk.inj (Option.some.inj h)
      rw [hrest] at hfirst
      rw [find?_of_first? hfirst, trimmed_cons_of hd hbefore.symm, ← hbefore]
      rfl
  | none =>
      -- a text that is all of the class would have matched already
      have hbefore : Text.dropTrailing p before ≠ [] := by
        intro hnil
        rw [trimmed, hnil] at h
        rw [first?_of_find? h] at hrest
        cases hrest
      rw [hrest] at hfirst
      rw [find?_cons_of_none hfirst, h, trimmed_cons_of_not fun h => hbefore h.1]
      rfl

/-- Text is skipped up to the first mark, but what it has of the class at its end belongs to the match. -/
theorem find?_stretch_text (hc : p c = false) :
    ((set p).many ++ text (c :: mark)).find? cs =
      (Text.cut? (c :: mark) cs).map fun (before, after) => trimmed p (c :: mark) before after := by
  induction cs with
  | nil =>
      rw [find?, first?_stretch_text hc, Text.cut?_nil_of_not_begins (by simp)]
      rfl
  | cons d rest ih =>
      by_cases hmark : (c :: mark).isPrefixOf (d :: rest) = true
      · obtain ⟨heq, -⟩ := Bool.and_eq_true_iff.1 hmark
        obtain rfl : c = d := by simpa using heq
        have hfirst : ((set p).many ++ text (c :: mark)).first? (c :: rest) = _ :=
          first?_stretch_text hc
        rw [List.dropWhile_cons_of_neg (by simp [hc]), first?_text, if_pos hmark,
          List.takeWhile_cons_of_neg (by simp [hc])] at hfirst
        rw [find?_of_first? hfirst, Text.cut?_of_begins hmark]
        rfl
      · rw [Text.cut?_cons_of_not_begins hmark, Option.map_map]
        by_cases hd : p d = true
        · cases hcut : Text.cut? (c :: mark) rest with
          | some found =>
              rw [hcut] at ih
              exact find?_stretch_text_cons hc hd ih
          | none =>
              rw [hcut] at ih
              have hnone : ((set p).many ++ text (c :: mark)).first? rest = none :=
                first?_of_find?_eq_none ih
              have hfirst := (first?_stretch_text_cons hc hd).trans (congrArg _ hnone)
              rw [find?_cons_of_none hfirst, ih]
              rfl
        · have hnone : ((set p).many ++ text (c :: mark)).first? (d :: rest) = none := by
            rw [first?_stretch_text hc, List.dropWhile_cons_of_neg hd, first?_text, if_neg hmark]
            rfl
          rw [find?_cons_of_none hnone, ih, Option.map_map]
          congr 1
          funext ⟨before, after⟩
          exact (trimmed_cons_of_not (fun h => hd h.2) after).symm

end Trimmed

/-- If all that follows needs is a mark somewhere behind, what comes first is matched as it is best. -/
theorem first?_seq_of_cut {first second : Regex} {c : Char} {mark cs : List Char} {way : Way}
    (hsecond : ∀ rest, second.first? rest = none ↔ Text.cut? (c :: mark) rest = none)
    (hways : ∀ one ∈ first.ways cs, one.taken ++ one.rest = cs ∧ c ∉ one.taken)
    (hfirst : first.first? cs = some way) :
    (first ++ second).first? cs = (second.first? way.rest).map way.andThen := by
  cases hnext : second.first? way.rest with
  | some next => exact first?_seq_of_some hfirst hnext
  | none =>
      have hcut : ∀ one ∈ first.ways cs,
          Text.cut? (c :: mark) cs = none ↔ second.first? one.rest = none := by
        intro one hone
        obtain ⟨hwritten, hmark⟩ := hways one hone
        rw [hsecond, ← hwritten, Text.cut?_append_of_not_mem hmark, Option.map_eq_none_iff]
      have hnone := (hcut way (List.mem_of_mem_head? hfirst)).2 hnext
      exact first?_seq_of_none fun one hone => (hcut one hone).1 hnone

end Regex

end ComponentTemplates
