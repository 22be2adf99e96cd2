/-!
Finite numbers of the format binary64. Each of them is a whole multiple of 2⁻¹⁰⁷⁴, so a magnitude is
kept as a count of that unit, and comparing two numbers is comparing two integers.
-/

namespace MessageFlow

/-- A finite binary64 number: its sign, and its magnitude in units of 2⁻¹⁰⁷⁴. Zero has both signs. -/
structure Binary64 where
  negative : Bool
  units : Nat
deriving DecidableEq, Inhabited

namespace Binary64

/-- How many units make one. -/
def one : Nat := Nat.pow 2 1074

/-- The first count of units beyond the finite range. -/
def limit : Nat := Nat.pow 2 2098

/-- A quotient rounded to 53 significant bits; a tie goes to the even neighbour. -/
def roundQuotient (num den : Nat) : Nat :=
  let step := Nat.pow 2 ((num / den).log2 - 52)
  let wide := den * step
  let q := num / wide
  let r := num % wide
  (if 2 * r > wide ∨ (2 * r = wide ∧ q % 2 = 1) then q + 1 else q) * step

/-- The finite number next to a quotient of units, unless that lies beyond the range. -/
def ofQuotient? (negative : Bool) (num den : Nat) : Option Binary64 :=
  let u := roundQuotient num den
  if u < limit then some ⟨negative, u⟩ else none

def zero (negative : Bool) : Binary64 := ⟨negative, 0⟩

/-- The value in units, as an integer; both zeros have the value 0. -/
def value (x : Binary64) : Int := if x.negative then -(x.units : Int) else x.units

/-- The number next to an integer of at most 64 bits. -/
def ofInt (n : Int) : Binary64 := ⟨decide (n < 0), roundQuotient (n.natAbs * one) 1⟩

/-- The distance of two numbers in units, rounded as a difference of the format is. -/
def distance (x y : Binary64) : Nat := roundQuotient (x.value - y.value).natAbs 1

/-- The gap between 1 and the next number, in units. -/
def epsilon : Nat := Nat.pow 2 1022

/-- The product and the quotient of two magnitudes, as counts of units. -/
def timesUnits (u v : Nat) : Nat := roundQuotient (u * v) one

def overUnits (u v : Nat) : Nat := roundQuotient (u * one) v

end Binary64
end MessageFlow
