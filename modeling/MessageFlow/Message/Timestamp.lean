import MessageFlow.Text.Pieces

/-!
Points in time as dates and times of day, in the profile of ISO 8601 for the Internet: read leniently
about blanks and separators, written in UTC with as many fraction digits as are needed in threes.
-/

namespace MessageFlow

/-- Seconds since the start of 1970 in UTC, and nanoseconds. A leap second has more than 10⁹ of them. -/
structure Timestamp where
  seconds : Int
  nanos : Nat
deriving DecidableEq, Inhabited

namespace Timestamp

/-- Days from 1970-01-01 to a date of the Gregorian calendar. -/
def daysFromCivil (year : Int) (month day : Nat) : Int :=
  let y := if month ≤ 2 then year - 1 else year
  let era := y.fdiv 400
  let yearOfEra := y - era * 400
  let shifted : Int := if month > 2 then (month : Int) - 3 else (month : Int) + 9
  let dayOfYear := (153 * shifted + 2) / 5 + (day : Int) - 1
  let dayOfEra := yearOfEra * 365 + yearOfEra / 4 - yearOfEra / 100 + dayOfYear
  era * 146097 + dayOfEra - 719468

/-- The date that is a number of days after 1970-01-01. -/
def civilFromDays (days : Int) : Int × Nat × Nat :=
  let z := days + 719468
  let era := z.fdiv 146097
  let dayOfEra := z - era * 146097
  let yearOfEra := (dayOfEra - dayOfEra / 1460 + dayOfEra / 36524 - dayOfEra / 146096) / 365
  let dayOfYear := dayOfEra - (365 * yearOfEra + yearOfEra / 4 - yearOfEra / 100)
  let shifted := (5 * dayOfYear + 2) / 153
  let day := dayOfYear - (153 * shifted + 2) / 5 + 1
  let month := if shifted < 10 then shifted + 3 else shifted - 9
  let year := yearOfEra + era * 400 + (if month ≤ 2 then 1 else 0)
  (year, month.toNat, day.toNat)

def isLeap (year : Int) : Bool := year % 4 == 0 && (year % 100 != 0 || year % 400 == 0)

def daysInMonth (year : Int) (month : Nat) : Nat :=
  if month = 2 then (if isLeap year then 29 else 28)
  else if month = 4 ∨ month = 6 ∨ month = 9 ∨ month = 11 then 30 else 31

/-- A number of one to `width` digits, blanks before it passed over. -/
def number? (width : Nat) (s : List Char) : Option (Nat × List Char) :=
  let s := Text.trimStart s
  let ds := (s.take width).takeWhile Text.isDigit
  if ds.isEmpty then none else some (Text.digitsValue ds 0, s.drop ds.length)

/-- A year: four digits at most, or any number of them behind a sign. -/
def year? (s : List Char) : Option (Int × List Char) :=
  match Text.trimStart s with
  | '-' :: rest =>
    let ds := rest.takeWhile Text.isDigit
    if ds.isEmpty then none else some (-(Text.digitsValue ds 0 : Int), rest.drop ds.length)
  | '+' :: rest =>
    let ds := rest.takeWhile Text.isDigit
    if ds.isEmpty then none else some ((Text.digitsValue ds 0 : Int), rest.drop ds.length)
  | rest => (number? 4 rest).map (fun p => ((p.1 : Int), p.2))

/-- A given character, blanks before it passed over. -/
def mark? (c : Char) (s : List Char) : Option (List Char) :=
  match Text.trimStart s with
  | d :: rest => if d = c then some rest else none
  | [] => none

/-- A fraction of a second in nanoseconds; digits after the ninth are dropped. -/
def nanos? : List Char → Option (Nat × List Char)
  | '.' :: rest =>
    let ds := (rest.take 9).takeWhile Text.isDigit
    if ds.isEmpty then none
    else
      let nanos := Text.digitsValue ds 0 * Nat.pow 10 (9 - ds.length)
      some (nanos, (rest.drop ds.length).dropWhile Text.isDigit)
  | s => some (0, s)

/-- The offset from UTC in seconds: `Z`, `UTC`, or a sign with hours and minutes. -/
def offset? (s : List Char) : Option (Int × List Char) :=
  if (s.take 3).map Char.toLower = ['u', 't', 'c'] then some (0, s.drop 3)
  else match s with
    | 'Z' :: rest | 'z' :: rest => some (0, rest)
    | c :: h₁ :: h₂ :: rest =>
      if (c = '+' ∨ c = '-' ∨ c = '\u2212') ∧ Text.isDigit h₁ ∧ Text.isDigit h₂ then
        match rest.dropWhile (fun d => d = ':' || Text.isBlank d) with
        | m₁ :: m₂ :: rest =>
          if '0' ≤ m₁ ∧ m₁ ≤ '5' ∧ Text.isDigit m₂ then
            let seconds : Int := Text.digitsValue [h₁, h₂] 0 * 3600 + Text.digitsValue [m₁, m₂] 0 * 60
            if seconds < 86400 then some (if c = '+' then seconds else -seconds, rest) else none
          else none
        | _ => none
      else none
    | _ => none

/-- The first year that is counted. -/
def firstYear : Int := -262143

/-- The last year that is counted. -/
def lastYear : Int := 262142

/-- Whether a moment lies in the years that are counted, in UTC. -/
def inRange (seconds : Int) : Bool :=
  daysFromCivil firstYear 1 1 * 86400 ≤ seconds && seconds < daysFromCivil (lastYear + 1) 1 1 * 86400

/-- A date, a time of day and an offset. The second may be a leap second. The year must be one that is
counted, both as it is written and in UTC. -/
def read? (text : String) : Option Timestamp := do
  let (year, s) ← year? text.toList
  let s ← mark? '-' s
  let (month, s) ← number? 2 s
  let s ← mark? '-' s
  let (day, s) ← number? 2 s
  let s ← match s with
    | 't' :: rest | 'T' :: rest | ' ' :: rest => some rest
    | _ => none
  let (hour, s) ← number? 2 s
  let s ← mark? ':' s
  let (minute, s) ← number? 2 s
  let s ← mark? ':' s
  let (second, s) ← number? 2 s
  let (nanos, s) ← nanos? s
  let (offset, s) ← offset? (Text.trimStart s)
  guard (Text.trimStart s).isEmpty
  guard (firstYear ≤ year && year ≤ lastYear && 1 ≤ month && month ≤ 12 && 1 ≤ day &&
    day ≤ daysInMonth year month && hour ≤ 23 && minute ≤ 59 && second ≤ 60)
  let leap := second = 60
  let time : Int := (hour : Int) * 3600 + minute * 60 + (if leap then 59 else second)
  let seconds := daysFromCivil year month day * 86400 + time - offset
  guard (inRange seconds)
  return ⟨seconds, if leap then nanos + 1000000000 else nanos⟩

/-- Milliseconds since the start of 1970. -/
def milliseconds (t : Timestamp) : Int := t.seconds * 1000 + t.nanos / 1000000

/-- Decimal digits, with zeros in front up to a width. -/
def padded (width n : Nat) : String :=
  let ds := Nat.toDigits 10 n
  String.ofList (List.replicate (width - ds.length) '0' ++ ds)

/-- Years outside 0 to 9999 carry a sign. -/
def yearText (year : Int) : String :=
  if 0 ≤ year ∧ year ≤ 9999 then padded 4 year.toNat
  else (if year < 0 then "-" else "+") ++ padded 4 year.natAbs

/-- No digits for a whole second, else three, six or nine of them. -/
def fractionText (nanos : Nat) : String :=
  if nanos = 0 then ""
  else if nanos % 1000000 = 0 then "." ++ padded 3 (nanos / 1000000)
  else if nanos % 1000 = 0 then "." ++ padded 6 (nanos / 1000)
  else "." ++ padded 9 nanos

def text (t : Timestamp) : String :=
  let days := t.seconds.fdiv 86400
  let time := (t.seconds - days * 86400).toNat
  let leap := 1000000000 ≤ t.nanos
  let (year, month, day) := civilFromDays days
  yearText year ++ "-" ++ padded 2 month ++ "-" ++ padded 2 day ++ "T" ++
    padded 2 (time / 3600) ++ ":" ++ padded 2 (time / 60 % 60) ++ ":" ++
    padded 2 (time % 60 + (if leap then 1 else 0)) ++ fractionText (t.nanos % 1000000000) ++ "Z"

end Timestamp
end MessageFlow
