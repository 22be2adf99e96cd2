import MessageFlow.Number.Decimal

/-!
The shortest decimal numeral that reads back as a given binary64 number, and how numerals are laid
out. The digits are found in exact arithmetic: on coarser and finer decimal grids, the first grid with
a point among the reals that round to the number gives the digits.
-/

namespace MessageFlow.Binary64

/-- The reals that round to a magnitude, in quarters of a unit; the ends belong to them when the
significand is even. -/
structure Neighbourhood where
  low : Nat
  centre : Nat
  high : Nat
  closed : Bool

def neighbourhood (units : Nat) : Neighbourhood :=
  let k := units.log2 - 52
  let gap := Nat.pow 2 k
  let below := if 0 < k ∧ units = Nat.pow 2 (k + 52) then gap else 2 * gap
  ⟨4 * units - below, 4 * units, 4 * units + 2 * gap, units / gap % 2 = 0⟩

/-- Whether the quotient `num / den` lies in the neighbourhood. -/
def Neighbourhood.holds (h : Neighbourhood) (num den : Nat) : Bool :=
  if h.closed then h.low * den ≤ num && num ≤ h.high * den
  else h.low * den < num && num < h.high * den

/-- The multiple of `10 ^ exponent` nearest to the number among those that read back as it. -/
def onGrid? (h : Neighbourhood) (exponent : Int) : Option Nat :=
  -- a point is `n * num / den` quarters of a unit
  let num := 4 * one * Nat.pow 10 exponent.toNat
  let den := Nat.pow 10 (-exponent).toNat
  let n := h.centre * den / num
  let r := h.centre * den % num
  let lower := n ≠ 0 && h.holds (n * num) den
  let upper := h.holds ((n + 1) * num) den
  if lower && upper then
    some (if 2 * r < num ∨ (2 * r = num ∧ n % 2 = 0) then n else n + 1)
  else if lower then some n
  else if upper then some (n + 1)
  else none

/-- Search from a grid down through `steps` finer ones. -/
def searchGrids (h : Neighbourhood) : (steps : Nat) → (exponent : Int) → Option Decimal
  | 0, _ => none
  | steps + 1, exponent =>
    match onGrid? h exponent with
    | some n => some ⟨n, exponent⟩
    | none => searchGrids h steps (exponent - 1)

/-- The fewest digits that read back, and of these the nearest. Twenty grids suffice: the first is
above the number, and seventeen digits always read back. -/
def shortest (units : Nat) : Decimal :=
  if units = 0 then ⟨0, 0⟩
  else
    let top : Int := ((units.log2 : Int) - 1073) * 30103 / 100000 + 1
    match searchGrids (neighbourhood units) 22 top with
    | some d => d
    | none => ⟨0, 0⟩

/-- The layout of a numeral. Inside `positional` (powers of ten, upper end excluded) the point stands
among the digits; outside, one digit stands before the point and an exponent follows. -/
structure Layout where
  positional : Option (Int × Int)
  wholeSuffix : String

/-- JSON text: positional from 10⁻⁵ up to 10¹⁶, and never without a point or an exponent. -/
def jsonLayout : Layout := ⟨some (-5, 16), ".0"⟩

/-- Literals of conditions: always positional, and whole numbers without a point. -/
def plainLayout : Layout := ⟨none, ""⟩

/-- Digits with the point `point` places after the first digit's left side. -/
def positionalText (digits : List Char) (point : Int) (wholeSuffix : String) : String :=
  let n : Int := digits.length
  if point ≤ 0 then
    "0." ++ String.ofList (List.replicate (-point).toNat '0' ++ digits)
  else if n ≤ point then
    String.ofList (digits ++ List.replicate (point - n).toNat '0') ++ wholeSuffix
  else
    String.ofList (digits.take point.toNat) ++ "." ++ String.ofList (digits.drop point.toNat)

/-- One digit, the others behind the point, and an exponent with its sign. -/
def scientificText (digits : List Char) (point : Int) : String :=
  let e := point - 1
  let mark := if e < 0 then "e-" else "e+"
  let fraction := match digits.drop 1 with
    | [] => ""
    | ds => "." ++ String.ofList ds
  String.ofList (digits.take 1) ++ fraction ++ mark ++ String.ofList (Nat.toDigits 10 e.natAbs)

/-- A decimal value without sign, laid out. -/
def Layout.text (l : Layout) (d : Decimal) : String :=
  if d.digits = 0 then "0" ++ l.wholeSuffix
  else
    let digits := Nat.toDigits 10 d.digits
    let kept := (digits.reverse.dropWhile (· = '0')).reverse
    let point := (digits.length : Int) + d.exponent
    match l.positional with
    | some (low, high) =>
      if low < point ∧ point ≤ high then positionalText kept point l.wholeSuffix
      else scientificText kept point
    | none => positionalText kept point l.wholeSuffix

/-- The text of a number. -/
def text (l : Layout) (x : Binary64) : String :=
  (if x.negative then "-" else "") ++ l.text (shortest x.units)

end MessageFlow.Binary64
