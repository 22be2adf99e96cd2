/-!
Blank characters and trimming. Blank means the Unicode property White_Space, so a no-break space or an
ideographic space is trimmed as a plain space is.
-/

namespace MessageFlow.Text
variable {s : List Char}

/-- The characters with the property White_Space. -/
def isBlank (c : Char) : Bool :=
  let n := c.toNat
  (9 ≤ n && n ≤ 13) || n == 0x20 || n == 0x85 || n == 0xA0 || n == 0x1680 ||
    (0x2000 ≤ n && n ≤ 0x200A) || n == 0x2028 || n == 0x2029 || n == 0x202F || n == 0x205F ||
    n == 0x3000

def trimStart (s : List Char) : List Char := s.dropWhile isBlank

def trimEnd (s : List Char) : List Char := (s.reverse.dropWhile isBlank).reverse

/-- Without the blanks at either end. -/
def trim (s : List Char) : List Char := trimEnd (trimStart s)

theorem length_dropWhile_le {p : Char → Bool} : (s.dropWhile p).length ≤ s.length :=
  (List.dropWhile_sublist p).length_le

theorem length_trim_le : (trim s).length ≤ s.length := by
  have h₁ : (trimEnd (trimStart s)).length ≤ (trimStart s).length := by
    simpa [trimEnd] using length_dropWhile_le (s := (trimStart s).reverse) (p := isBlank)
  exact Nat.le_trans h₁ length_dropWhile_le

theorem trimStart_eq_self (h : ∀ c, s.head? = some c → isBlank c = false) : trimStart s = s := by
  cases s with
  | nil => rfl
  | cons c rest => simp [trimStart, h c rfl]

/-- Text stays as it is if it neither begins nor ends with a blank. -/
theorem trim_eq_self (hh : ∀ c, s.head? = some c → isBlank c = false)
    (hl : ∀ c, s.getLast? = some c → isBlank c = false) : trim s = s := by
  have hr : trimStart s.reverse = s.reverse := trimStart_eq_self (by simpa using hl)
  rw [trim, trimStart_eq_self hh]
  show (trimStart s.reverse).reverse = s
  rw [hr, List.reverse_reverse]

theorem head_of_trim_eq_self {c : Char} (h : trim s = s) (hc : s.head? = some c) : isBlank c = false := by
  have hle : (trim s).length ≤ (trimStart s).length := by
    simpa [trim, trimEnd] using (List.dropWhile_sublist (l := (trimStart s).reverse) isBlank).length_le
  have hs : trimStart s = s := by
    apply (List.dropWhile_sublist isBlank).eq_of_length_le
    rw [h] at hle
    exact hle
  cases s with
  | nil => simp at hc
  | cons d rest =>
    simp only [List.head?_cons, Option.some.injEq] at hc
    subst hc
    cases hb : isBlank d with
    | false => rfl
    | true =>
      have hlen := length_dropWhile_le (s := rest) (p := isBlank)
      have := congrArg List.length hs
      simp only [trimStart, List.dropWhile_cons, hb, if_true, List.length_cons] at this
      omega

theorem getLast_of_trim_eq_self {c : Char} (h : trim s = s) (hc : s.getLast? = some c) :
    isBlank c = false := by
  rw [← h, trim, trimEnd, List.getLast?_reverse] at hc
  cases hd : (trimStart s).reverse.dropWhile isBlank with
  | nil => simp [hd] at hc
  | cons d rest =>
    rw [hd, List.head?_cons, Option.some.injEq] at hc
    subst hc
    have hn := List.head?_dropWhile_not isBlank (trimStart s).reverse
    rw [hd] at hn
    exact hn

theorem trim_append_eq_self {l m r : List Char} (hl : l ≠ []) (hr : r ≠ []) (htl : trim l = l)
    (htr : trim r = r) : trim (l ++ m ++ r) = l ++ m ++ r := by
  apply trim_eq_self
  · intro c hc
    cases l with
    | nil => exact absurd rfl hl
    | cons d rest => exact head_of_trim_eq_self htl hc
  · intro c hc
    rw [List.getLast?_append, Option.or_of_isSome (List.getLast?_isSome.2 hr)] at hc
    exact getLast_of_trim_eq_self htr hc

/-- Trimming of a whole string. -/
def trimmed (s : String) : String := String.ofList (trim s.toList)

/-- ASCII letters in lower case, everything else as it is. -/
def lowered (s : String) : String := String.ofList (s.toList.map Char.toLower)

end MessageFlow.Text
