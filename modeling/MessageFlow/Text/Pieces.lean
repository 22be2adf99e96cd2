import MessageFlow.Text.Blank

/-!
Cutting text or bytes at a separator, joining pieces back, and reading counts.
-/

namespace MessageFlow.Text
variable {α : Type} [DecidableEq α] {sep : α} {s : List α}

/-- The stretches between the separators; there is one more of them than separators. -/
def pieces (sep : α) : List α → List (List α)
  | [] => [[]]
  | c :: rest =>
    if c = sep then [] :: pieces sep rest
    else match pieces sep rest with
      | [] => [[c]]
      | p :: ps => (c :: p) :: ps

/-- What is before and after the first separator. -/
def cut (sep : α) : List α → Option (List α × List α)
  | [] => none
  | c :: rest => if c = sep then some ([], rest) else (cut sep rest).map (fun p => (c :: p.1, p.2))

theorem pieces_ne_nil : pieces sep s ≠ [] := by
  cases s with
  | nil => simp [pieces]
  | cons c rest => simp only [pieces]; split <;> (try split) <;> simp

theorem cut_eq_some {l r : List α} (h : cut sep s = some (l, r)) : s = l ++ sep :: r := by
  induction s generalizing l with
  | nil => simp [cut] at h
  | cons c rest ih =>
    simp only [cut] at h
    split at h
    · next hc => simp_all
    · obtain ⟨⟨l', r'⟩, h', he⟩ := Option.map_eq_some_iff.1 h
      simp only [Prod.mk.injEq] at he
      obtain ⟨rfl, rfl⟩ := he
      simp [ih h']

theorem cut_append {l r : List α} (h : sep ∉ l) : cut sep (l ++ sep :: r) = some (l, r) := by
  induction l with
  | nil => simp [cut]
  | cons c rest ih =>
    simp only [List.mem_cons, not_or] at h
    simp [cut, Ne.symm h.1, ih h.2]

theorem pieces_of_not_mem (h : sep ∉ s) : pieces sep s = [s] := by
  induction s with
  | nil => rfl
  | cons c rest ih =>
    simp only [List.mem_cons, not_or] at h
    simp [pieces, Ne.symm h.1, ih h.2]

theorem pieces_append {l r : List α} (h : sep ∉ l) : pieces sep (l ++ sep :: r) = l :: pieces sep r := by
  induction l with
  | nil => simp [pieces]
  | cons c rest ih =>
    simp only [List.mem_cons, not_or] at h
    simp [pieces, Ne.symm h.1, ih h.2]

/-- The pieces of a string. -/
def split (sep : Char) (s : String) : List String := (pieces sep s.toList).map String.ofList

/-- The parts of a string around its first separator. -/
def splitOnce (sep : Char) (s : String) : Option (String × String) :=
  (cut sep s.toList).map (fun p => (String.ofList p.1, String.ofList p.2))

/-- Pieces with one separator between neighbours. -/
def join (sep : String) : List String → String
  | [] => ""
  | [s] => s
  | s :: t :: rest => s ++ sep ++ join sep (t :: rest)

/-- Joining and splitting lose nothing, unless there is nothing to join. -/
theorem split_join {sep : Char} {parts : List String} (hne : parts ≠ [])
    (h : ∀ part ∈ parts, sep ∉ part.toList) : split sep (join (String.singleton sep) parts) = parts := by
  induction parts with
  | nil => exact absurd rfl hne
  | cons part rest ih =>
    have hp : sep ∉ part.toList := h part List.mem_cons_self
    cases rest with
    | nil => simp [join, split, pieces_of_not_mem hp]
    | cons next rest =>
      have hr := ih (by simp) (fun p hm => h p (List.mem_cons_of_mem part hm))
      simp only [split] at hr
      simp [join, split, pieces_append hp, hr]

def isDigit (c : Char) : Bool := '0' ≤ c && c ≤ '9'

def digitValue (c : Char) : Nat := c.toNat - '0'.toNat

/-- The number that a run of decimal digits spells, continuing after `acc`. -/
def digitsValue (s : List Char) (acc : Nat) : Nat := s.foldl (fun n c => 10 * n + digitValue c) acc

/-- The first count that no longer fits into a machine word of 64 bits. -/
def wordLimit : Nat := Nat.pow 2 64

/-- A count in decimal digits, with an optional plus sign, that fits into a machine word. -/
def count? (s : List Char) : Option Nat :=
  let digits := match s with
    | '+' :: rest => rest
    | _ => s
  if digits.isEmpty || !digits.all isDigit then none
  else
    let n := digitsValue digits 0
    if n < wordLimit then some n else none

end MessageFlow.Text
