import MessageFlow.Json.Basic
import MessageFlow.Text.Pieces

/-!
The value of a JSON numeral.

An integer of 64 bits stands for itself. Every other numeral is a binary64 number: its leading digits,
as many as fit into 64 bits, are rounded to a number, which is then multiplied or divided by powers of
ten, each step rounded. Numerals of up to fifteen digits with small exponents come out exactly rounded.
-/

namespace MessageFlow.Json

/-- A numeral as it is written: the digits before and after the point, and the exponent. -/
structure Numeral where
  negative : Bool
  whole : List Char
  fraction : Option (List Char)
  exponent : Option Int

namespace Numeral

/-- Read digits into a significand while it fits into 64 bits; the digits that do not fit are left. -/
def fill (significand : Nat) : List Char → Nat × List Char
  | [] => (significand, [])
  | c :: rest =>
    let next := 10 * significand + Text.digitValue c
    if next < Text.wordLimit then fill next rest else (significand, c :: rest)

/-- A power of ten as a binary64 magnitude. -/
def powerUnits (e : Nat) : Nat := Binary64.roundQuotient (Nat.pow 10 e * Binary64.one) 1

/-- Divide a magnitude by a power of ten, in steps of at most 308 places. -/
def shrink (units : Nat) (places : Nat) : Nat :=
  if places ≤ 308 then Binary64.overUnits units (powerUnits places)
  else if units = 0 then 0
  else shrink (Binary64.overUnits units (powerUnits 308)) (places - 308)
termination_by places

/-- The magnitude of a significand times a power of ten, `none` beyond the finite range. -/
def scale? (significand : Nat) (exponent : Int) : Option Nat :=
  let units := Binary64.roundQuotient (significand * Binary64.one) 1
  if exponent < 0 then some (shrink units exponent.natAbs)
  else if exponent ≤ 308 then
    let u := Binary64.timesUnits units (powerUnits exponent.toNat)
    if u < Binary64.limit then some u else none
  else if significand = 0 then some 0 else none

/-- The number that a numeral denotes, `none` when it lies beyond the finite range. -/
def value? (n : Numeral) : Option Number :=
  let (significand, spare) := fill 0 n.whole
  match n.fraction, n.exponent with
  | none, none =>
    if !spare.isEmpty then
      (scale? significand spare.length).map (fun u => .float ⟨n.negative, u⟩)
    else if !n.negative then some (.int significand)
    else if 0 < significand ∧ significand ≤ Nat.pow 2 63 then some (.int (-significand))
    else some (.float ⟨true, Binary64.roundQuotient (significand * Binary64.one) 1⟩)
  | fraction, exponent =>
    let digits := fraction.getD []
    let (significand, unread) := fill significand digits
    let places : Int := spare.length - (digits.length - unread.length) + exponent.getD 0
    (scale? significand places).map (fun u => .float ⟨n.negative, u⟩)

end Numeral
end MessageFlow.Json
