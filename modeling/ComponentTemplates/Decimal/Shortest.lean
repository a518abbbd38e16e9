/-
Module: ComponentTemplates.Decimal.Shortest
Purpose: The shortest decimal that reads back as a given binary floating-point number, and of those the
  nearest to it. A finite number is `m * 2 ^ q`; the reals that round to it form an interval, closed
  iff `m` is even. For one digit, two digits and so on, the two neighbours of the number on the
  decimal grid are tried in exact arithmetic, and the first grid with a hit wins.
Main exports: Binary, Binary.ofBits, Decimal, Binary.shortest, Decimal.Style, Decimal.text
-/

namespace ComponentTemplates

/-- A number `mantissa * 2 ^ exponent` greater than zero. At the lower end of a binade the next number
below is only half as far as the next above. -/
structure Binary where
  mantissa : Nat
  exponent : Int
  lowerEnd : Bool
deriving DecidableEq, Repr, Inhabited

/-- A number `digits * 10 ^ exponent`. -/
structure Decimal where
  digits : Nat
  exponent : Int
deriving DecidableEq, Repr, Inhabited

/-- The parts of the absolute value of a finite number that is not zero. -/
def Binary.ofBits (bits : UInt64) : Binary :=
  let fraction : Nat := bits.toNat % Nat.pow 2 52
  let biased : Nat := bits.toNat / Nat.pow 2 52 % Nat.pow 2 11
  if biased = 0 then { mantissa := fraction, exponent := -1074, lowerEnd := false }
  else
    { mantissa := Nat.pow 2 52 + fraction
      exponent := (biased : Int) - 1075
      lowerEnd := fraction = 0 && 1 < biased }

namespace Decimal

/-- The number without zeros at the end of its digits; `fuel` bounds how many there are. -/
def stripZeros (fuel : Nat) (decimal : Decimal) : Decimal :=
  match fuel with
  | 0 => decimal
  | fuel + 1 =>
      if decimal.digits % 10 = 0 && decimal.digits ≠ 0 then
        stripZeros fuel { digits := decimal.digits / 10, exponent := decimal.exponent + 1 }
      else decimal

/-- How a decimal is written: the greatest and least exponent of the first digit for which it is
written out in full. Outside of them a mark and a signed exponent follow the digits. -/
structure Style where
  leastPlain : Int
  greatestPlain : Int

/-- The text of a decimal. Written out in full it has at least one digit behind the point. -/
def text (style : Style) (decimal : Decimal) : String :=
  let digits := toString decimal.digits
  let first : Int := decimal.exponent + digits.length - 1
  if style.leastPlain ≤ first && first ≤ style.greatestPlain then
    if 0 ≤ decimal.exponent then digits.pushn '0' decimal.exponent.toNat ++ ".0"
    else if 0 ≤ first then
      let whole := digits.toList.take (first.toNat + 1)
      let fraction := digits.toList.drop (first.toNat + 1)
      String.ofList (whole ++ '.' :: fraction)
    else "0." ++ "".pushn '0' (-first - 1).toNat ++ digits
  else
    let sign := if first < 0 then "-" else "+"
    let mantissa :=
      match digits.toList with
      | [] => ""
      | [digit] => String.ofList [digit]
      | digit :: fraction => String.ofList (digit :: '.' :: fraction)
    mantissa ++ "e" ++ sign ++ toString first.natAbs

end Decimal

namespace Binary

/-- The product `a * 2 ^ p * 10 ^ s`, as a fraction of two natural numbers. -/
def fraction (a : Nat) (p s : Int) : Nat × Nat :=
  (a * Nat.pow 2 p.toNat * Nat.pow 10 s.toNat, Nat.pow 2 (-p).toNat * Nat.pow 10 (-s).toNat)

/-- The greatest `e` with `10 ^ e` at most the number. -/
def decimalExponent (binary : Binary) : Int :=
  let (num, den) := fraction binary.mantissa binary.exponent 0
  if den ≤ num then ((toString (num / den)).length : Int) - 1
  else
    match (List.range 400).find? fun k => den ≤ num * Nat.pow 10 k with
    | some k => -(k : Int)
    | none => 0

/-- The decimal `digits * 10 ^ s` lies in the interval of reals that round to the number. The ends are
quarter steps of the last binary place: two above, and two or one below. -/
def rounds (binary : Binary) (digits : Nat) (s : Int) : Bool :=
  let low := 4 * binary.mantissa - if binary.lowerEnd then 1 else 2
  let high := 4 * binary.mantissa + 2
  let (lowNum, den) := fraction low (binary.exponent - 2) (-s)
  let highNum := (fraction high (binary.exponent - 2) (-s)).1
  if binary.mantissa % 2 = 0 then lowNum ≤ digits * den && digits * den ≤ highNum
  else lowNum < digits * den && digits * den < highNum

/-- The neighbour of the number on the grid of multiples of `10 ^ s` that rounds to it, the nearer one
if both do, and of two that are equally near the even one. -/
def onGrid? (binary : Binary) (s : Int) : Option Nat :=
  let (num, den) := fraction binary.mantissa binary.exponent (-s)
  let below := num / den
  let twice := 2 * (num - below * den)
  match binary.rounds below s, binary.rounds (below + 1) s with
  | true, true =>
      some (if twice < den || (twice = den && below % 2 = 0) then below else below + 1)
  | true, false => some below
  | false, true => some (below + 1)
  | false, false => none

/-- The shortest decimal that rounds to the number. Seventeen digits always suffice. -/
def shortest (binary : Binary) : Decimal :=
  let first := binary.decimalExponent
  let hit := (List.range 17).findSome? fun (count : Nat) =>
    let s := first - (count : Int)
    (binary.onGrid? s).map fun digits => ({ digits, exponent := s } : Decimal)
  (hit.getD { digits := 0, exponent := 0 }).stripZeros 20

end Binary

/-- The text of a finite floating-point number. -/
def Decimal.textOfFloat (style : Decimal.Style) (value : Float) : String :=
  let bits := value.toBits
  let sign := if bits < 0x8000000000000000 then "" else "-"
  if bits % 0x8000000000000000 = 0 then sign ++ "0.0"
  else sign ++ (Binary.ofBits bits).shortest.text style

end ComponentTemplates
