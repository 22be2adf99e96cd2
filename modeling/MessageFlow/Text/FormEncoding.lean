import MessageFlow.Text.Pieces

/-!
Query text in the form `application/x-www-form-urlencoded`: pairs of a name and a value, joined by
ampersands, in which every character outside a small set is written by its UTF-8 bytes.
-/

namespace MessageFlow.Text

/-- Bytes that stand for themselves: ASCII letters and digits, and `*`, `-`, `.`, `_`. -/
def isFormPlain (b : UInt8) : Bool :=
  (0x30 ≤ b && b ≤ 0x39) || (0x41 ≤ b && b ≤ 0x5A) || (0x61 ≤ b && b ≤ 0x7A) ||
    b == 0x2A || b == 0x2D || b == 0x2E || b == 0x5F

/-- A hexadecimal digit in upper case. -/
def upperHexDigit (n : Nat) : Char := Char.ofNat (if n < 10 then 0x30 + n else 0x37 + n)

/-- One byte: itself, a plus sign for a space, or its two hexadecimal digits after a percent sign. -/
def formByte (b : UInt8) : List Char :=
  if isFormPlain b then [Char.ofNat b.toNat]
  else if b = 0x20 then ['+']
  else ['%', upperHexDigit (b.toNat / 16), upperHexDigit (b.toNat % 16)]

def formBytes (bs : List UInt8) : List Char := bs.flatMap formByte

def formText (s : String) : String := String.ofList (formBytes s.toUTF8.toList)

/-- One pair of a query. -/
def formPair (p : String × String) : String := formText p.1 ++ "=" ++ formText p.2

/-- The query of a list of pairs. -/
def formQuery (pairs : List (String × String)) : String := join "&" (pairs.map formPair)

end MessageFlow.Text
