/-
Module: ComponentTemplates.Json.Token
Purpose: The tokens of JSON text: brackets, separators, names and scalar values. Blanks are space, tab,
  line feed and carriage return. A string whose escapes leave half a surrogate pair is well formed,
  but stands for no text.
Main exports: Json.Token, Json.Token.ofText?
-/
import ComponentTemplates.Json.Number

namespace ComponentTemplates.Json

/-- A token. A string that stands for no text holds none. -/
inductive Token where
  | openArray
  | closeArray
  | openObject
  | closeObject
  | comma
  | colon
  | text (value : Option String)
  | scalar (value : Json)

/-- White space between tokens. -/
def isSpace (c : Char) : Bool :=
  c = ' ' || c = '\t' || c = '\n' || c = '\x0d'

/-- A part of a string: a character, or a code unit that was given by its number. -/
inductive StringPart where
  | char (c : Char)
  | unit (value : Nat)

/-- The value of a hexadecimal digit. -/
def hexValue? (c : Char) : Option Nat :=
  if isDigit c then some (digitValue c)
  else if 'a' ≤ c && c ≤ 'f' then some (c.toNat - 'a'.toNat + 10)
  else if 'A' ≤ c && c ≤ 'F' then some (c.toNat - 'A'.toNat + 10)
  else none

/-- The number that hexadecimal digits write. -/
def hexNumber? (digits : List Char) : Option Nat :=
  digits.foldlM (fun value c => (hexValue? c).map (value * 16 + ·)) 0

/-- The character that a backslash with one character behind it stands for. -/
def escaped? : Char → Option Char
  | '"' => some '"'
  | '\\' => some '\\'
  | '/' => some '/'
  | 'b' => some '\x08'
  | 'f' => some '\x0c'
  | 'n' => some '\n'
  | 'r' => some '\x0d'
  | 't' => some '\t'
  | _ => none

/-- The parts of a string up to its closing quote, and what follows. -/
def readString? : List Char → Option (List StringPart × List Char)
  | [] => none
  | '"' :: rest => some ([], rest)
  | '\\' :: 'u' :: a :: b :: c :: d :: rest => do
      let value ← hexNumber? [a, b, c, d]
      let (parts, after) ← readString? rest
      return (.unit value :: parts, after)
  | '\\' :: c :: rest => do
      let char ← escaped? c
      let (parts, after) ← readString? rest
      return (.char char :: parts, after)
  | c :: rest =>
      if c.toNat < 0x20 || c = '\\' then none
      else do
        let (parts, after) ← readString? rest
        return (.char c :: parts, after)

/-- Reading a string uses up at least its closing quote. -/
theorem length_of_readString? {cs after : List Char} {parts : List StringPart}
    (h : readString? cs = some (parts, after)) : after.length < cs.length := by
  fun_induction readString? cs generalizing parts with
  | case1 => cases h
  | case2 rest =>
      cases h
      simp
  | case3 a b c d rest ih =>
      simp only [Option.bind_eq_bind, Option.bind_eq_some_iff, Prod.exists, Option.pure_def,
        Option.some.injEq, Prod.mk.injEq] at h
      obtain ⟨_, _, _, _, hrest, _, rfl⟩ := h
      have := ih hrest
      simp only [List.length_cons]
      omega
  | case4 c rest hu ih =>
      simp only [Option.bind_eq_bind, Option.bind_eq_some_iff, Prod.exists, Option.pure_def,
        Option.some.injEq, Prod.mk.injEq] at h
      obtain ⟨_, _, _, _, hrest, _, rfl⟩ := h
      have := ih hrest
      simp only [List.length_cons]
      omega
  | case5 => cases h
  | case6 c rest _ _ _ _ ih =>
      simp only [Option.bind_eq_bind, Option.bind_eq_some_iff, Prod.exists, Option.pure_def,
        Option.some.injEq, Prod.mk.injEq] at h
      obtain ⟨_, _, hrest, _, rfl⟩ := h
      have := ih hrest
      simp only [List.length_cons]
      omega

/-- The first half of a surrogate pair. -/
def isHighSurrogate (value : Nat) : Bool :=
  0xD800 ≤ value && value ≤ 0xDBFF

/-- The second half of a surrogate pair. -/
def isLowSurrogate (value : Nat) : Bool :=
  0xDC00 ≤ value && value ≤ 0xDFFF

/-- The characters that the parts stand for, unless half a surrogate pair is among them. -/
def joinParts? : List StringPart → Option (List Char)
  | [] => some []
  | .char c :: rest => (joinParts? rest).map (c :: ·)
  | .unit high :: .unit low :: rest =>
      if isHighSurrogate high then
        if isLowSurrogate low then
          (joinParts? rest).map
            (Char.ofNat (0x10000 + (high - 0xD800) * 0x400 + (low - 0xDC00)) :: ·)
        else none
      else if isLowSurrogate high then none
      else (joinParts? (.unit low :: rest)).map (Char.ofNat high :: ·)
  | .unit value :: rest =>
      if isHighSurrogate value || isLowSurrogate value then none
      else (joinParts? rest).map (Char.ofNat value :: ·)

namespace Token

/-- A number at the head of the text as a token. -/
def readNumber? (cs : List Char) : Option (Token × List Char) :=
  (Literal.read? cs).map fun (literal, rest) =>
    (.scalar ((literal.value?.map Json.number).getD .invalid), rest)

/-- The token at the head of the text, and what follows it. -/
def read? : List Char → Option (Token × List Char)
  | '[' :: rest => some (.openArray, rest)
  | ']' :: rest => some (.closeArray, rest)
  | '\x7b' :: rest => some (.openObject, rest)
  | '\x7d' :: rest => some (.closeObject, rest)
  | ',' :: rest => some (.comma, rest)
  | ':' :: rest => some (.colon, rest)
  | '"' :: rest =>
      (readString? rest).map fun (parts, after) =>
        (.text ((joinParts? parts).map String.ofList), after)
  | 'n' :: 'u' :: 'l' :: 'l' :: rest => some (.scalar .null, rest)
  | 't' :: 'r' :: 'u' :: 'e' :: rest => some (.scalar (.bool true), rest)
  | 'f' :: 'a' :: 'l' :: 's' :: 'e' :: rest => some (.scalar (.bool false), rest)
  | cs => readNumber? cs

/-- A token takes up room. -/
theorem length_of_read? {cs rest : List Char} {token : Token}
    (h : read? cs = some (token, rest)) : rest.length < cs.length := by
  unfold read? at h
  split at h
  case h_7 =>
    simp only [Option.map_eq_some_iff, Prod.exists, Prod.mk.injEq] at h
    obtain ⟨_, _, hstring, _, rfl⟩ := h
    have := length_of_readString? hstring
    simp only [List.length_cons]
    omega
  case h_11 =>
    simp only [readNumber?, Option.map_eq_some_iff, Prod.exists, Prod.mk.injEq] at h
    obtain ⟨_, _, hnumber, _, rfl⟩ := h
    exact Literal.length_of_read? hnumber
  all_goals
    cases h
    simp only [List.length_cons]
    omega

/-- The tokens of a text; none if some part of it is no token. -/
def ofText? : List Char → Option (List Token)
  | [] => some []
  | c :: rest =>
      if isSpace c then ofText? rest
      else
        match h : read? (c :: rest) with
        | some (token, after) =>
            have : after.length < rest.length + 1 := length_of_read? h
            (ofText? after).map (token :: ·)
        | none => none
termination_by cs => cs.length

end Token

end ComponentTemplates.Json
