import MessageFlow.Condition.Basic

/-!
Reading conditions. `or` binds more loosely than `and`, which binds more loosely than `not`; chains group
to the right; parentheses group and may wrap any condition. Operators and connectives count only outside
quotes and parentheses.
-/

namespace MessageFlow
namespace Expression
variable {s l r inner needle : List Char} {depth : Nat} {quote : Option Char}

/-- The text before and after the first occurrence of `needle` outside quotes and parentheses, scanning
from inside `depth` parentheses and the open quote `quote`. -/
def splitTop (needle : List Char) : (depth : Nat) → (quote : Option Char) → List Char →
    Option (List Char × List Char)
  | _, _, [] => none
  | depth, some q, c :: rest =>
    (splitTop needle depth (if c = q then none else some q) rest).map (fun p => (c :: p.1, p.2))
  | depth, none, c :: rest =>
    if c = '\'' ∨ c = '"' then (splitTop needle depth (some c) rest).map (fun p => (c :: p.1, p.2))
    else if c = '(' then (splitTop needle (depth + 1) none rest).map (fun p => (c :: p.1, p.2))
    else if c = ')' then (splitTop needle (depth - 1) none rest).map (fun p => (c :: p.1, p.2))
    else if depth = 0 ∧ needle.isPrefixOf (c :: rest) then some ([], (c :: rest).drop needle.length)
    else (splitTop needle depth none rest).map (fun p => (c :: p.1, p.2))

/-- The text up to the parenthesis that closes the one already open, if that is the last character. -/
def untilClosing : (depth : Nat) → (quote : Option Char) → List Char → Option (List Char)
  | _, _, [] => none
  | depth, some q, c :: rest =>
    (untilClosing depth (if c = q then none else some q) rest).map (c :: ·)
  | depth, none, c :: rest =>
    if c = '\'' ∨ c = '"' then (untilClosing depth (some c) rest).map (c :: ·)
    else if c = '(' then (untilClosing (depth + 1) none rest).map (c :: ·)
    else if c = ')' then
      if depth ≤ 1 then (if rest = [] then some [] else none)
      else (untilClosing (depth - 1) none rest).map (c :: ·)
    else (untilClosing depth none rest).map (c :: ·)

/-- The inside of one pair of parentheses around the whole text. -/
def unwrap : List Char → Option (List Char)
  | '(' :: rest => untilClosing 1 none rest
  | _ => none

theorem length_splitTop (hn : needle ≠ []) (h : splitTop needle depth quote s = some (l, r)) :
    l.length < s.length ∧ r.length < s.length := by
  have hpos : 0 < needle.length := List.length_pos_iff.2 hn
  fun_induction splitTop needle depth quote s generalizing l r with
  | case1 => simp at h
  | case6 depth c rest _ _ _ hd =>
    simp only [Option.some.injEq, Prod.mk.injEq] at h
    obtain ⟨rfl, rfl⟩ := h
    simp only [List.length_drop, List.length_cons, List.length_nil]
    omega
  | case2 _ _ _ _ ih | case3 _ _ _ _ ih | case4 _ _ _ ih | case5 _ _ _ _ ih
  | case7 _ _ _ _ _ _ _ ih =>
    obtain ⟨⟨l', r'⟩, h', he⟩ := Option.map_eq_some_iff.1 h
    simp only [Prod.mk.injEq] at he
    obtain ⟨rfl, rfl⟩ := he
    have := ih h'
    simp only [List.length_cons]
    omega

theorem length_untilClosing (h : untilClosing depth quote s = some inner) :
    inner.length < s.length := by
  fun_induction untilClosing depth quote s generalizing inner with
  | case1 => simp at h
  | case5 =>
    simp only [Option.some.injEq] at h
    subst h
    simp
  | case6 => simp at h
  | case2 _ _ _ _ ih | case3 _ _ _ _ ih | case4 _ _ _ ih | case7 _ _ _ _ _ ih
  | case8 _ _ _ _ _ _ ih =>
    obtain ⟨inner', h', rfl⟩ := Option.map_eq_some_iff.1 h
    have := ih h'
    simp only [List.length_cons]
    omega

theorem length_unwrap (h : unwrap s = some inner) : inner.length < s.length := by
  unfold unwrap at h
  split at h
  · have := length_untilClosing h
    simp only [List.length_cons]
    omega
  · simp at h

/-- What `not` stands before. -/
def negated? : List Char → Option (List Char)
  | 'n' :: 'o' :: 't' :: ' ' :: rest => some rest
  | _ => none

theorem length_negated? (h : negated? s = some inner) : inner.length < s.length := by
  unfold negated? at h
  split at h
  · simp only [Option.some.injEq] at h
    subst h
    simp only [List.length_cons]
    omega
  · simp at h

/-- Names of the numbers that are not finite; letters count in either case. -/
def specialNumber? (negative : Bool) (s : List Char) : Option LiteralNumber :=
  let name := s.map Char.toLower
  if name = "inf".toList ∨ name = "infinity".toList then some (.infinite negative)
  else if name = "nan".toList then some .nan
  else none

/-- A number with an optional sign; one beyond the finite range is infinite. -/
def number? (s : List Char) : Option LiteralNumber :=
  let (negative, s) := match s with
    | '-' :: rest => (true, rest)
    | '+' :: rest => (false, rest)
    | _ => (false, s)
  match specialNumber? negative s with
  | some n => some n
  | none =>
    (Decimal.read? s).map (fun d =>
      match d.toBinary64? negative with
      | some x => .finite x
      | none => .infinite negative)

/-- The inside of a text between two quotes of one kind. -/
def quotedInside? : List Char → Option (List Char)
  | [] => none
  | q :: rest =>
    if (q = '\'' ∨ q = '"') ∧ rest.getLast? = some q then some rest.dropLast else none

/-- The right side of a comparison. -/
def literal (s : List Char) : Except PredicateError Literal :=
  let s := Text.trim s
  if s = "null".toList then .ok .null
  else if s = "true".toList then .ok (.boolean true)
  else if s = "false".toList then .ok (.boolean false)
  else match quotedInside? s with
    | some t => .ok (.string (String.ofList t))
    | none =>
      match number? s with
      | some n => .ok (.number n)
      | none => .error (.parse "literal" (String.ofList s))

/-- The operators in the order in which they are looked for; the longer before its beginnings. -/
def operators : List (List Char × CompareOp) :=
  [("!=".toList, .notEq), (">=".toList, .greaterEq), ("<=".toList, .lessEq), ("==".toList, .eq),
    (">".toList, .greater), ("<".toList, .less), (" contains ".toList, .contains)]

/-- A path, an operator and a literal. -/
def comparison (s : List Char) : List (List Char × CompareOp) → Except PredicateError Expression
  | [] => .error (.parse "condition" (String.ofList s))
  | (needle, op) :: others =>
    match splitTop needle 0 none s with
    | none => comparison s others
    | some (left, right) =>
      let path := Text.trim left
      if path.isEmpty || path.any Text.isBlank then .error (.parse "path" (String.ofList path))
      else (literal right).map (fun lit => .compare (String.ofList path) op lit)

/-- Read a condition from its characters. -/
def ofChars (text : List Char) : Except PredicateError Expression :=
  let s := Text.trim text
  if s = [] then .error (.parse "condition" "")
  else match _hw : unwrap s with
  | some inner => ofChars inner
  | none =>
    if s = "true".toList then .ok .always
    else if s = "false".toList then .ok .never
    else match _ho : splitTop " or ".toList 0 none s with
    | some (l, r) => do
      let left ← ofChars l
      let right ← ofChars r
      return .disj left right
    | none =>
      match _ha : splitTop " and ".toList 0 none s with
      | some (l, r) => do
        let left ← ofChars l
        let right ← ofChars r
        return .conj left right
      | none =>
        match _hn : negated? s with
        | some rest => (ofChars rest).map .neg
        | none => comparison s operators
termination_by text.length
decreasing_by
  all_goals have ht : s.length ≤ text.length := Text.length_trim_le
  · have := length_unwrap _hw; omega
  · have := length_splitTop (by decide) _ho; omega
  · have := length_splitTop (by decide) _ho; omega
  · have := length_splitTop (by decide) _ha; omega
  · have := length_splitTop (by decide) _ha; omega
  · have := length_negated? _hn; omega

/-- Read a condition. -/
def read (text : String) : Except PredicateError Expression := ofChars text.toList

end Expression
end MessageFlow
