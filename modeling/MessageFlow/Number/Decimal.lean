import MessageFlow.Number.Binary64
import MessageFlow.Text.Pieces

/-!
Decimal numerals: digits with a point and an exponent, and the binary64 number next to their value.
-/

namespace MessageFlow

/-- The value `digits · 10 ^ exponent`. -/
structure Decimal where
  digits : Nat
  exponent : Int
deriving DecidableEq, Inhabited

namespace Decimal

/-- Number of decimal digits; zero has none. -/
def width (n : Nat) : Nat := if n = 0 then 0 else (Nat.toDigits 10 n).length

/-- The binary64 number next to a decimal value, `none` beyond the finite range. Exponents far outside
the range are settled by the number of digits alone. -/
def toBinary64? (negative : Bool) (d : Decimal) : Option Binary64 :=
  if d.digits = 0 then some (.zero negative)
  else
    let order := (width d.digits : Int) + d.exponent
    if order > 310 then none
    else if order < -330 then some (.zero negative)
    else if 0 ≤ d.exponent then
      Binary64.ofQuotient? negative (d.digits * Nat.pow 10 d.exponent.toNat * Binary64.one) 1
    else
      Binary64.ofQuotient? negative (d.digits * Binary64.one) (Nat.pow 10 (-d.exponent).toNat)

/-- An exponent after its mark: an optional sign and at least one digit, to the end of the text. -/
def exponent? (s : List Char) : Option Int :=
  let (negative, ds) := match s with
    | '+' :: rest => (false, rest)
    | '-' :: rest => (true, rest)
    | _ => (false, s)
  if ds.isEmpty || !ds.all Text.isDigit then none
  else
    let n : Int := Text.digitsValue ds 0
    some (if negative then -n else n)

/-- A numeral without sign: digits, with at most one point before, between or after them, and at
least one digit in all; then possibly `e` or `E` and an exponent. -/
def read? (s : List Char) : Option Decimal := do
  let whole := s.takeWhile Text.isDigit
  let (fraction, rest) := match s.dropWhile Text.isDigit with
    | '.' :: t => (t.takeWhile Text.isDigit, t.dropWhile Text.isDigit)
    | t => ([], t)
  guard !(whole.isEmpty && fraction.isEmpty)
  let e ← match rest with
    | [] => some 0
    | c :: t => if c = 'e' ∨ c = 'E' then exponent? t else none
  return ⟨Text.digitsValue (whole ++ fraction) 0, e - fraction.length⟩

end Decimal
end MessageFlow
