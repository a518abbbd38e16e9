/-
Module: ComponentTemplates.Files.Glob.Fit
Purpose: Which names a pattern stands for. `Denotes` says it rule by rule; `fit` finds it out by going
  over the name once for every stretch of the pattern. It never has to try a stretch of another
  length once the name was too short for what follows the stretch.
Main exports: Glob.Denotes, Glob.fit, Glob.accepts, Glob.accepts_iff_denotes
-/
import ComponentTemplates.Files.Glob.Pattern

namespace ComponentTemplates.Glob

/-- A character lies in one of the ranges. -/
def inRanges (ranges : List Range) (c : Char) : Bool :=
  ranges.any fun range => range.first ≤ c && c ≤ range.last

/-- The token stands for the character. -/
def Token.acceptsChar (c : Char) : Token → Bool
  | .char expected => c = expected
  | .anyChar => true
  | .within ranges => inRanges ranges c
  | .outside ranges => !inRanges ranges c
  | .anyText | .anyFolders => false

/-- The token stands for any number of characters. -/
def Token.isStretch : Token → Bool
  | .anyText | .anyFolders => true
  | .char _ | .anyChar | .within _ | .outside _ => false

/-- The names that tokens stand for. -/
inductive Denotes : List Token → List Char → Prop where
  | nil : Denotes [] []
  | one {token : Token} {rest : List Token} {c : Char} {cs : List Char} :
      token.isStretch = false → token.acceptsChar c = true → Denotes rest cs →
        Denotes (token :: rest) (c :: cs)
  | stretch {token : Token} {rest : List Token} {cs tail : List Char} :
      token.isStretch = true → tail <:+ cs → Denotes rest tail → Denotes (token :: rest) cs

/-- How tokens and a name go together. -/
inductive Fit where
  /-- The tokens stand for the name. -/
  | whole
  /-- A character is not what its token stands for, or is left over. -/
  | differs
  /-- The name ends before the tokens do. -/
  | tooShort
deriving DecidableEq, Repr, Inhabited

/-- The first tail of a name that does not differ decides: a shorter one would be too short as well. -/
def firstFit (fitTail : List Char → Fit) : List Char → Fit
  | [] =>
      match fitTail [] with
      | .whole => .whole
      | .differs | .tooShort => .tooShort
  | c :: cs =>
      match fitTail (c :: cs) with
      | .whole => .whole
      | .tooShort => .tooShort
      | .differs => firstFit fitTail cs

/-- How tokens and a name go together. A stretch takes as few characters as it can. -/
def fit : List Token → List Char → Fit
  | [], [] => .whole
  | [], _ :: _ => .differs
  | token :: rest, cs =>
      if token.isStretch then firstFit (fit rest) cs
      else
        match cs with
        | [] => .tooShort
        | c :: cs => if token.acceptsChar c then fit rest cs else .differs

/-- The tokens stand for the whole of a name. -/
def accepts (tokens : List Token) (cs : List Char) : Bool :=
  fit tokens cs = .whole

/-- What `fit` has to say about a set of names: whether the name is in it, and that the name is too
short only if none of its tails is. -/
def Decides (fitName : List Char → Fit) (denoted : List Char → Prop) : Prop :=
  ∀ cs, (fitName cs = .whole ↔ denoted cs) ∧
    (fitName cs = .tooShort → ∀ tail, tail <:+ cs → ¬ denoted tail)

/-- A stretch may take any number of characters before the rest of the pattern goes on. -/
theorem denotes_cons_iff_of_isStretch {token : Token} {rest : List Token} {cs : List Char}
    (h : token.isStretch = true) :
    Denotes (token :: rest) cs ↔ ∃ tail, tail <:+ cs ∧ Denotes rest tail := by
  constructor
  · intro denotes
    cases denotes with
    | one single _ _ => rw [h] at single; cases single
    | stretch _ suffix restDenotes => exact ⟨_, suffix, restDenotes⟩
  · intro ⟨tail, suffix, restDenotes⟩
    exact .stretch h suffix restDenotes

/-- A token that is no stretch takes exactly one character, one that it accepts. -/
theorem denotes_cons_cons_iff {token : Token} {rest : List Token} {c : Char} {cs : List Char}
    (h : token.isStretch = false) :
    Denotes (token :: rest) (c :: cs) ↔ token.acceptsChar c = true ∧ Denotes rest cs := by
  constructor
  · intro denotes
    cases denotes with
    | one _ accepted restDenotes => exact ⟨accepted, restDenotes⟩
    | stretch stretches _ _ => rw [h] at stretches; cases stretches
  · intro ⟨accepted, restDenotes⟩
    exact .one h accepted restDenotes

/-- A token that is no stretch needs a character. -/
theorem not_denotes_cons_nil {token : Token} {rest : List Token} (h : token.isStretch = false) :
    ¬ Denotes (token :: rest) [] := by
  intro denotes
  cases denotes with
  | stretch stretches _ _ => rw [h] at stretches; cases stretches

/-- The first tail that does not differ tells whether any tail is denoted. -/
theorem firstFit_eq_whole_iff {fitTail : List Char → Fit} {denoted : List Char → Prop}
    (h : Decides fitTail denoted) (cs : List Char) :
    firstFit fitTail cs = .whole ↔ ∃ tail, tail <:+ cs ∧ denoted tail := by
  induction cs with
  | nil =>
      have here := (h []).1
      cases hfit : fitTail [] <;> simp_all [firstFit]
  | cons c cs ih =>
      have here := h (c :: cs)
      cases hfit : fitTail (c :: cs) with
      | whole =>
          have denotedHere := here.1.mp hfit
          simp only [firstFit, hfit, true_iff]
          exact ⟨_, List.suffix_refl _, denotedHere⟩
      | differs =>
          have notHere : ¬ denoted (c :: cs) := fun denotedHere => by
            rw [here.1.mpr denotedHere] at hfit
            cases hfit
          simp only [firstFit, hfit, ih]
          constructor
          · intro ⟨tail, suffix, denotedTail⟩
            exact ⟨tail, suffix.trans (List.suffix_cons c cs), denotedTail⟩
          · intro ⟨tail, suffix, denotedTail⟩
            rcases List.suffix_cons_iff.mp suffix with rfl | suffix
            · exact absurd denotedTail notHere
            · exact ⟨tail, suffix, denotedTail⟩
      | tooShort =>
          simp only [firstFit, hfit, reduceCtorEq, false_iff]
          intro ⟨tail, suffix, denotedTail⟩
          exact here.2 hfit tail suffix denotedTail

/-- What is found out about a name is what the rules say. -/
theorem fit_decides (tokens : List Token) : Decides (fit tokens) (Denotes tokens) := by
  induction tokens with
  | nil =>
      intro cs
      cases cs with
      | nil => simp [fit, Denotes.nil]
      | cons c cs =>
          simp only [fit, reduceCtorEq, false_iff, false_implies, and_true]
          intro denotes
          cases denotes
  | cons token rest ih =>
      intro cs
      cases stretches : token.isStretch with
      | true =>
          have found := firstFit_eq_whole_iff ih cs
          simp only [fit, stretches, if_true]
          refine ⟨found.trans (denotes_cons_iff_of_isStretch stretches).symm, ?_⟩
          intro short tail suffix denotes
          obtain ⟨inner, innerSuffix, innerDenotes⟩ :=
            (denotes_cons_iff_of_isStretch stretches).mp denotes
          rw [found.mpr ⟨inner, innerSuffix.trans suffix, innerDenotes⟩] at short
          cases short
      | false =>
          cases cs with
          | nil =>
              simp only [fit, stretches, reduceCtorEq, if_false, false_iff, forall_const]
              refine ⟨not_denotes_cons_nil stretches, ?_⟩
              intro tail suffix
              rw [List.suffix_nil.mp suffix]
              exact not_denotes_cons_nil stretches
          | cons c cs =>
              cases accepted : token.acceptsChar c with
              | false =>
                  simp [fit, stretches, accepted, denotes_cons_cons_iff stretches]
              | true =>
                  simp only [fit, stretches, accepted, if_true, Bool.false_eq_true, if_false,
                    denotes_cons_cons_iff stretches, true_and]
                  refine ⟨(ih cs).1, ?_⟩
                  intro short tail suffix denotes
                  cases tail with
                  | nil => exact not_denotes_cons_nil stretches denotes
                  | cons d others =>
                      have inner := ((denotes_cons_cons_iff stretches).mp denotes).2
                      rcases List.suffix_cons_iff.mp suffix with same | suffix
                      · rw [(List.cons.inj same).2] at inner
                        exact (ih cs).2 short cs (List.suffix_refl cs) inner
                      · exact (ih cs).2 short others
                          ((List.suffix_cons d others).trans suffix) inner

/-- A name is accepted iff the tokens stand for it. -/
theorem accepts_iff_denotes (tokens : List Token) (cs : List Char) :
    accepts tokens cs = true ↔ Denotes tokens cs := by
  simp only [accepts, decide_eq_true_eq]
  exact (fit_decides tokens cs).1

/-- Characters stand for themselves alone. -/
theorem accepts_chars (name cs : List Char) :
    accepts (name.map .char) cs = true ↔ cs = name := by
  simp only [accepts, decide_eq_true_eq]
  induction name generalizing cs with
  | nil => cases cs <;> simp [fit]
  | cons c rest ih =>
      cases cs with
      | nil => simp [fit, Token.isStretch]
      | cons d others =>
          by_cases same : d = c <;>
            simp [fit, Token.isStretch, Token.acceptsChar, same, ih]

/-- Any number of characters stand for every text. -/
theorem accepts_anyText (cs : List Char) : accepts [.anyText] cs = true :=
  (accepts_iff_denotes _ _).mpr (.stretch rfl (List.nil_suffix) .nil)

end ComponentTemplates.Glob
