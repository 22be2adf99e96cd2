import MessageFlow.Json.Reader

/-!
Universally unique identifiers and their texts.
-/

namespace MessageFlow

/-- An identifier of 128 bits. -/
structure Uuid where
  value : Nat
deriving DecidableEq, Inhabited

namespace Uuid

/-- The value of a run of hexadecimal digits. -/
def hexNat? (s : List Char) : Option Nat :=
  s.foldlM (fun n c => (Json.hexValue? c).map (16 * n + ·)) 0

/-- Five groups of 8, 4, 4, 4 and 12 digits with hyphens between them. -/
def hyphenated? (s : List Char) : Option Uuid :=
  match Text.pieces '-' s with
  | [a, b, c, d, e] =>
    if a.length = 8 ∧ b.length = 4 ∧ c.length = 4 ∧ d.length = 4 ∧ e.length = 12 then
      (hexNat? (a ++ b ++ c ++ d ++ e)).map Uuid.mk
    else none
  | _ => none

/-- Thirty-two digits, or the hyphenated form bare, in braces or behind `urn:uuid:` in any case. -/
def read? (text : String) : Option Uuid :=
  let s := text.toList
  if s.length = 32 then (hexNat? s).map Uuid.mk
  else if s.length = 36 then hyphenated? s
  else if s.length = 38 then
    match s with
    | '\x7b' :: rest => if rest.getLast? = some '\x7d' then hyphenated? rest.dropLast else none
    | _ => none
  else if s.length = 45 ∧ (s.take 9).map Char.toLower = "urn:uuid:".toList then hyphenated? (s.drop 9)
  else none

/-- The hyphenated form in lower case. -/
def text (u : Uuid) : String :=
  let ds := Nat.toDigits 16 u.value
  let s := List.replicate (32 - ds.length) '0' ++ ds
  let group := fun (start count : Nat) => String.ofList ((s.drop start).take count)
  Text.join "-" [group 0 8, group 8 4, group 12 4, group 16 4, group 20 12]

end Uuid
end MessageFlow
