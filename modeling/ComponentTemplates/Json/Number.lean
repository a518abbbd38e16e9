/-
Module: ComponentTemplates.Json.Number
Purpose: The value of a JSON number. Digits are collected into a significand of 64 bits. A whole number
  that fits is taken exactly; any other number becomes a floating-point number, the significand
  scaled by a power of ten, and has no value if that leaves the finite range.
Main exports: Json.Literal, Json.Literal.value?, Json.Literal.read?
-/
import ComponentTemplates.Json.Basic
import ComponentTemplates.Text.Split

namespace ComponentTemplates.Json

/-- A number as it is written: digits before and behind the point, and an exponent. -/
structure Literal where
  negative : Bool
  whole : List Char
  fraction : Option (List Char)
  exponent : Option (Bool × List Char)

/-- A decimal digit. -/
def isDigit (c : Char) : Bool :=
  '0' ≤ c && c ≤ '9'

/-- The value of a decimal digit. -/
def digitValue (c : Char) : Nat :=
  c.toNat - '0'.toNat

/-- The significand is at most the greatest number of 64 bits. -/
def significandLimit : Nat := Nat.pow 2 64

/-- Takes digits into a significand as long as it has room for them. The second result is how many
digits were taken. -/
def takeDigits (significand : Nat) : List Char → Nat × Nat
  | [] => (significand, 0)
  | c :: rest =>
      let next := significand * 10 + digitValue c
      if next < significandLimit then
        let (last, taken) := takeDigits next rest
        (last, taken + 1)
      else (significand, 0)

/-- Scales by a power of ten in steps that floating-point numbers can represent; none if the result is
not finite. Two steps down exhaust every number, so `steps` is never what ends the scaling. -/
def scale? (steps : Nat) (value : Float) (exponent : Int) : Option Float :=
  if exponent.natAbs ≤ 308 then
    let power := Float.ofScientific 1 false exponent.natAbs
    if 0 ≤ exponent then
      let scaled := value * power
      if scaled.isInf then none else some scaled
    else some (value / power)
  else if value == 0.0 then some value
  else if 0 ≤ exponent then none
  else
    match steps with
    | 0 => some 0.0
    | steps + 1 => scale? steps (value / Float.ofScientific 1 false 308) (exponent + 308)

/-- The greatest exponent that is told from its neighbours. -/
def exponentLimit : Nat := Nat.pow 2 31

/-- The exponent that a list of digits writes, unless it is beyond the limit. -/
def exponentValue? (digits : List Char) : Option Nat :=
  digits.foldlM (fun value c =>
    let next := value * 10 + digitValue c
    if next < exponentLimit then some next else none) 0

namespace Literal

/-- The floating-point value of a significand with a power of ten, and the sign in front. -/
def real? (literal : Literal) (significand : Nat) (exponent : Int) : Option Number :=
  let signed (value : Float) : Number := .real (if literal.negative then -value else value)
  let scaled (exponent : Int) := (scale? 4 (Float.ofNat significand) exponent).map signed
  match literal.exponent with
  | none => scaled exponent
  | some (down, digits) =>
      match exponentValue? digits with
      | some value =>
          let shift : Int := if down then -(value : Int) else value
          scaled (max (-(exponentLimit : Int)) (min (exponentLimit - 1) (exponent + shift)))
      | none =>
          if significand ≠ 0 && !down then none else some (signed 0.0)

/-- The value of a number, if it has one. -/
def value? (literal : Literal) : Option Number :=
  let (significand, taken) := takeDigits 0 literal.whole
  let skipped := literal.whole.length - taken
  match literal.fraction with
  | some fraction =>
      let (significand, taken) := takeDigits significand fraction
      literal.real? significand ((skipped : Int) - taken)
  | none =>
      if skipped = 0 && literal.exponent.isNone then
        if !literal.negative then some (.integer significand)
        else if significand ≠ 0 && significand ≤ Nat.pow 2 63 then some (.integer (-(significand : Int)))
        else some (.real (-(Float.ofNat significand)))
      else literal.real? significand skipped

/-- The digits before the point: a single zero, or digits that begin with another. -/
def readWhole? : List Char → Option (List Char × List Char)
  | [] => none
  | c :: rest =>
      if c = '0' then some ([c], rest)
      else if isDigit c then some (c :: rest.takeWhile isDigit, rest.dropWhile isDigit)
      else none

/-- The point and the digits behind it, if there is a point; then there are digits. -/
def readFraction? : List Char → Option (Option (List Char) × List Char)
  | '.' :: rest =>
      if (rest.takeWhile isDigit).isEmpty then none
      else some (some (rest.takeWhile isDigit), rest.dropWhile isDigit)
  | cs => some (none, cs)

/-- The sign of an exponent: whether it is a minus. -/
def readSign : List Char → Bool × List Char
  | '-' :: rest => (true, rest)
  | '+' :: rest => (false, rest)
  | cs => (false, cs)

/-- The exponent, if there is a mark for one; then there are digits. -/
def readExponent? : List Char → Option (Option (Bool × List Char) × List Char)
  | [] => some (none, [])
  | c :: rest =>
      if c = 'e' || c = 'E' then
        let (down, tail) := readSign rest
        if (tail.takeWhile isDigit).isEmpty then none
        else some (some (down, tail.takeWhile isDigit), tail.dropWhile isDigit)
      else some (none, c :: rest)

/-- The number without its sign at the head of the text, and what follows it. -/
def readUnsigned? (negative : Bool) (cs : List Char) : Option (Literal × List Char) := do
  let (whole, rest) ← readWhole? cs
  let (fraction, rest) ← readFraction? rest
  let (exponent, rest) ← readExponent? rest
  return ({ negative, whole, fraction, exponent }, rest)

/-- The number at the head of the text, and what follows it. -/
def read? : List Char → Option (Literal × List Char)
  | '-' :: rest => readUnsigned? true rest
  | cs => readUnsigned? false cs

/-- A whole part has at least one digit. -/
theorem length_of_readWhole? {cs digits rest : List Char} (h : readWhole? cs = some (digits, rest)) :
    rest.length < cs.length := by
  unfold readWhole? at h
  split at h
  · cases h
  · next c tail =>
      have := Text.length_dropWhile_le isDigit tail
      split at h
      · cases h
        simp
      · split at h
        · cases h
          simp only [List.length_cons]
          omega
        · cases h

theorem length_of_readFraction? {cs rest : List Char} {digits : Option (List Char)}
    (h : readFraction? cs = some (digits, rest)) : rest.length ≤ cs.length := by
  unfold readFraction? at h
  split at h
  · next tail =>
      have := Text.length_dropWhile_le isDigit tail
      split at h
      · cases h
      · cases h
        simp only [List.length_cons]
        omega
  · cases h
    exact Nat.le_refl _

theorem length_readSign (cs : List Char) : (readSign cs).2.length ≤ cs.length := by
  unfold readSign
  split <;> simp

theorem length_of_readExponent? {cs rest : List Char} {exponent : Option (Bool × List Char)}
    (h : readExponent? cs = some (exponent, rest)) : rest.length ≤ cs.length := by
  unfold readExponent? at h
  split at h
  · cases h
    exact Nat.le_refl _
  · next c tail =>
      have hsign := length_readSign tail
      have hdrop := Text.length_dropWhile_le isDigit (readSign tail).2
      split at h
      · simp only at h
        split at h
        · cases h
        · cases h
          simp only [List.length_cons]
          omega
      · cases h
        exact Nat.le_refl _

theorem length_of_readUnsigned? {negative : Bool} {cs rest : List Char} {literal : Literal}
    (h : readUnsigned? negative cs = some (literal, rest)) : rest.length < cs.length := by
  simp only [readUnsigned?, Option.bind_eq_bind, Option.bind_eq_some_iff, Prod.exists,
    Option.pure_def, Option.some.injEq, Prod.mk.injEq] at h
  obtain ⟨_, _, hwhole, _, _, hfraction, _, _, hexponent, _, rfl⟩ := h
  have := length_of_readWhole? hwhole
  have := length_of_readFraction? hfraction
  have := length_of_readExponent? hexponent
  omega

/-- A number takes up room. -/
theorem length_of_read? {cs rest : List Char} {literal : Literal}
    (h : read? cs = some (literal, rest)) : rest.length < cs.length := by
  unfold read? at h
  split at h
  · have := length_of_readUnsigned? h
    simp only [List.length_cons]
    omega
  · exact length_of_readUnsigned? h

end Literal

end ComponentTemplates.Json
