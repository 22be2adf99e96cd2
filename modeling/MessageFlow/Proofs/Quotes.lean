import MessageFlow.Proofs.Grammar

/-!
What becomes of the quotes of a text. Reading looks at nothing but the first and the last character of a right
side, so a constant can have quotes of its own kind inside. None is lost: the quotes of the text are those
around the constants, those inside of them, and those in paths. So the constants are free of them exactly when
no more quotes stand in the text than are needed.
-/

namespace MessageFlow
namespace Expression

/-- The two kinds of quotes, in either order. -/
def Kinds (q r : Char) : Prop := (q = '\'' ∧ r = '"') ∨ (q = '"' ∧ r = '\'')

/-- The paths that a condition compares. -/
def paths : Expression → List String
  | .always | .never => []
  | .compare path _ _ => [path]
  | .conj left right | .disj left right => left.paths ++ right.paths
  | .neg inner => inner.paths

/-- The text constants of a condition. -/
def strings : Expression → List String
  | .compare _ _ (.string t) => [t]
  | .always | .never | .compare _ _ _ => []
  | .conj left right | .disj left right => left.strings ++ right.strings
  | .neg inner => inner.strings

/-- How often a character stands in the paths of a condition. -/
def inPaths (q : Char) (e : Expression) : Nat := (e.paths.flatMap String.toList).count q

/-- How often a character stands in the text constants of a condition. -/
def inStrings (q : Char) (e : Expression) : Nat := (e.strings.flatMap String.toList).count q

/-- How often a character stands in the paths and constants of a condition, and around the constants if each stands
between two of it. -/
def spelled (q : Char) (e : Expression) : Nat := e.inPaths q + e.inStrings q + 2 * e.strings.length

variable {s l r inner needle text : List Char} {q o : Char} {depth : Nat} {quote : Option Char}
  {e left right : Expression}

theorem spelled_eq_add (hpaths : e.paths = left.paths ++ right.paths)
    (hstrings : e.strings = left.strings ++ right.strings) : e.spelled q = left.spelled q + right.spelled q := by
  simp only [spelled, inPaths, inStrings, hpaths, hstrings, List.flatMap_append, List.count_append,
    List.length_append]
  omega

theorem inStrings_eq_zero_iff : e.inStrings q = 0 ↔ ∀ t ∈ e.strings, q ∉ t.toList := by
  simp only [inStrings, List.count_eq_zero, List.mem_flatMap, not_exists, not_and]

/-! The parts make up the text -/

theorem eq_append_of_splitTop (h : splitTop needle depth quote s = some (l, r)) : s = l ++ (needle ++ r) := by
  fun_induction splitTop needle depth quote s generalizing l r with
  | case1 => cases h
  | case6 depth c rest _ _ _ hd =>
    obtain ⟨t, ht⟩ := List.isPrefixOf_iff_prefix.1 hd.2
    cases h
    rw [← ht, List.drop_left, List.nil_append]
  | case2 _ _ _ _ ih | case3 _ _ _ _ ih | case4 _ _ _ ih | case5 _ _ _ _ ih | case7 _ _ _ _ _ _ _ ih =>
    obtain ⟨⟨l', r'⟩, h', he⟩ := Option.map_eq_some_iff.1 h
    cases he
    rw [List.cons_append, ← ih h']

theorem eq_append_of_untilClosing (h : untilClosing depth quote s = some inner) : s = inner ++ [')'] := by
  fun_induction untilClosing depth quote s generalizing inner with
  | case1 => cases h
  | case5 =>
    cases h
    rfl
  | case6 => cases h
  | case2 _ _ _ _ ih | case3 _ _ _ _ ih | case4 _ _ _ ih | case7 _ _ _ _ _ ih | case8 _ _ _ _ _ _ ih =>
    obtain ⟨inner', h', rfl⟩ := Option.map_eq_some_iff.1 h
    rw [List.cons_append, ← ih h']

theorem eq_append_of_unwrap (h : unwrap s = some inner) : s = '(' :: (inner ++ [')']) := by
  unfold unwrap at h
  split at h
  · rw [eq_append_of_untilClosing h]
  · cases h

theorem eq_append_of_negated? (h : negated? s = some inner) : s = "not ".toList ++ inner := by
  unfold negated? at h
  split at h <;> cases h
  rfl

theorem isInfix_trim : Text.trim s <:+: s := by
  have hend : Text.trimEnd (Text.trimStart s) <+: Text.trimStart s := by
    rw [← List.reverse_suffix, Text.trimEnd, List.reverse_reverse]
    exact List.dropWhile_suffix _
  exact hend.isInfix.trans (List.dropWhile_suffix _).isInfix

theorem not_mem_trim (h : o ∉ s) : o ∉ Text.trim s := fun hmem => h (isInfix_trim.subset hmem)

theorem not_mem_of_splitTop (ho : o ∉ s) (h : splitTop needle depth quote s = some (l, r)) :
    o ∉ l ∧ o ∉ r := by
  rw [eq_append_of_splitTop h, List.mem_append, List.mem_append, not_or, not_or] at ho
  exact ⟨ho.1, ho.2.2⟩

theorem count_dropWhile (hq : Text.isBlank q = false) : (s.dropWhile Text.isBlank).count q = s.count q := by
  have hnone : q ∉ s.takeWhile Text.isBlank := by
    intro hmem
    have := List.all_eq_true.1 List.all_takeWhile q hmem
    rw [hq] at this
    cases this
  have hparts := congrArg (List.count q) (List.takeWhile_append_dropWhile (p := Text.isBlank) (l := s))
  rw [List.count_append, List.count_eq_zero.2 hnone] at hparts
  omega

/-- Trimming takes no quotes away. -/
theorem count_trim (hq : Text.isBlank q = false) : (Text.trim s).count q = s.count q := by
  rw [Text.trim, Text.trimEnd, List.count_reverse, count_dropWhile hq, List.count_reverse, Text.trimStart,
    count_dropWhile hq]

/-! Right sides -/

theorem quotedInside?_eq_some (h : quotedInside? s = some inner) :
    ∃ q, (q = '\'' ∨ q = '"') ∧ s = q :: (inner ++ [q]) := by
  unfold quotedInside? at h
  split at h
  · cases h
  · next q rest =>
    split at h
    · next hq =>
      obtain ⟨t, rfl⟩ := List.getLast?_eq_some_iff.1 hq.2
      rw [List.dropLast_concat] at h
      cases h
      exact ⟨q, hq.1, rfl⟩
    · cases h

theorem literal_ok_cases {lit : Literal} (h : literal s = .ok lit) :
    (∀ c ∈ Text.trim s, isMark c = false) ∧ (∀ t, lit ≠ .string t) ∨
      ∃ q t, (q = '\'' ∨ q = '"') ∧ lit = .string (String.ofList t) ∧ Text.trim s = q :: (t ++ [q]) := by
  unfold literal at h
  dsimp only at h
  split at h
  · next hs =>
    cases h
    exact .inl ⟨hs ▸ forall_of_check (by decide), by simp⟩
  · split at h
    · next hs =>
      cases h
      exact .inl ⟨hs ▸ forall_of_check (by decide), by simp⟩
    · split at h
      · next hs =>
        cases h
        exact .inl ⟨hs ▸ forall_of_check (by decide), by simp⟩
      · split at h
        · next t ht =>
          cases h
          obtain ⟨q, hq, hs⟩ := quotedInside?_eq_some ht
          exact .inr ⟨q, t, hq, rfl, hs⟩
        · split at h
          · next n hn =>
            cases h
            exact .inl ⟨unmarked_of_number? hn, by simp⟩
          · cases h

/-! Texts and the conditions read from them -/

/-- Each constant of the condition stands in the text between two quotes, and the text has no other quotes
than those, the ones inside of constants, and the ones in paths. -/
structure Spells (q : Char) (s : List Char) (e : Expression) : Prop where
  quoted : ∀ t ∈ e.strings, q :: (t.toList ++ [q]) <:+: s
  count : s.count q = e.spelled q

namespace Spells

theorem of_trim (hq : Text.isBlank q = false) (h : Spells q (Text.trim s) e) : Spells q s e :=
  ⟨fun t ht => (h.quoted t ht).trans isInfix_trim, (count_trim hq).symm.trans h.count⟩

theorem inside (h : Spells q s e) (hl : q ∉ l) (hr : q ∉ r) : Spells q (l ++ (s ++ r)) e := by
  refine ⟨fun t ht => (h.quoted t ht).trans ⟨l, r, List.append_assoc ..⟩, ?_⟩
  rw [List.count_append, List.count_append, List.count_eq_zero.2 hl, List.count_eq_zero.2 hr, h.count]
  omega

theorem constant (hs : q ∉ s) (hstrings : e.strings = []) (hpaths : e.paths = []) : Spells q s e :=
  ⟨by simp [hstrings], by simp [spelled, inPaths, inStrings, hstrings, hpaths, List.count_eq_zero.2 hs]⟩

theorem behind (h : Spells q s e) (hl : q ∉ l) : Spells q (l ++ s) e := by
  have := h.inside hl (r := []) List.not_mem_nil
  rwa [List.append_nil] at this

theorem neg (h : Spells q s e) : Spells q s (.neg e) := ⟨h.quoted, h.count⟩

/-- Both sides of a connective. -/
theorem both (hl : Spells q l left) (hr : Spells q r right) (hn : q ∉ needle)
    (hpaths : e.paths = left.paths ++ right.paths) (hstrings : e.strings = left.strings ++ right.strings) :
    Spells q (l ++ (needle ++ r)) e := by
  constructor
  · intro t ht
    rw [hstrings, List.mem_append] at ht
    rcases ht with ht | ht
    · exact (hl.quoted t ht).trans (List.prefix_append _ _).isInfix
    · rw [← List.append_assoc]
      exact (hr.quoted t ht).trans (List.suffix_append _ _).isInfix
  · rw [List.count_append, List.count_append, List.count_eq_zero.2 hn, hl.count, hr.count,
      spelled_eq_add hpaths hstrings]
    omega

end Spells

namespace Kinds
variable (h : Kinds q o)
include h

theorem isMark : isMark q = true := by rcases h with ⟨rfl, -⟩ | ⟨rfl, -⟩ <;> decide

theorem isBlank : Text.isBlank q = false := by rcases h with ⟨rfl, -⟩ | ⟨rfl, -⟩ <;> decide

theorem not_mem_of_unmarked (hs : ∀ c ∈ s, Expression.isMark c = false) : q ∉ s := by
  intro hmem
  have := hs q hmem
  rw [h.isMark] at this
  cases this

theorem not_mem_operator {op : CompareOp} (hop : (needle, op) ∈ operators) : q ∉ needle := by
  have hall : ∀ entry ∈ operators, '\'' ∉ entry.1 ∧ '"' ∉ entry.1 := by decide
  rcases h with ⟨rfl, -⟩ | ⟨rfl, -⟩
  · exact (hall _ hop).1
  · exact (hall _ hop).2

/-- A comparison: a path, an operator without quotes, and a right side that is a word without quotes or stands
between two of them. -/
theorem spells_comparison (ho : o ∉ s) (he : comparison s operators = .ok e) : Spells q s e := by
  obtain ⟨needle, op, l, r, lit, hop, hcut, hlit, rfl⟩ := comparison_eq_ok he
  have hs := eq_append_of_splitTop hcut
  have hpath : l.count q = (Text.trim l).count q := (count_trim h.isBlank).symm
  have hneedle := List.count_eq_zero.2 (h.not_mem_operator hop)
  have hcount : s.count q = (Text.trim l).count q + (Text.trim r).count q := by
    rw [hs, List.count_append, List.count_append, hneedle, count_trim h.isBlank, count_trim h.isBlank]
    omega
  have hright : Text.trim r <:+: s := by
    rw [hs, ← List.append_assoc]
    exact isInfix_trim.trans (List.suffix_append _ _).isInfix
  rcases literal_ok_cases hlit with ⟨hunmarked, hword⟩ | ⟨q', t, hq', rfl, hr⟩
  · have hnone : strings (.compare (String.ofList (Text.trim l)) op lit) = [] := by
      cases lit with
      | string t => exact absurd rfl (hword t)
      | _ => rfl
    rw [List.count_eq_zero.2 (h.not_mem_of_unmarked hunmarked)] at hcount
    refine ⟨by simp [hnone], ?_⟩
    simp [spelled, inPaths, inStrings, hnone, paths, hcount]
  · -- The quotes around the constant are not of the kind that the text does not have.
    have hkind : q' = q := by
      have hmem : q' ∈ s := hright.subset (hr ▸ List.mem_cons_self)
      have hne : q' ≠ o := fun heq => ho (heq ▸ hmem)
      rcases h with ⟨rfl, rfl⟩ | ⟨rfl, rfl⟩ <;> rcases hq' with rfl | rfl <;>
        first | rfl | exact absurd rfl hne
    subst hkind
    constructor
    · intro u hu
      rw [strings, List.mem_singleton] at hu
      rw [hu, String.toList_ofList, ← hr]
      exact hright
    · rw [hcount, hr]
      simp [spelled, inPaths, inStrings, strings, paths]
      omega

theorem spells_of_reads (hread : Reads text e) (ho : o ∉ text) : Spells q text e := by
  have hwords : q ∉ " or ".toList ∧ q ∉ " and ".toList ∧ q ∉ "not ".toList ∧ q ∉ "true".toList ∧
      q ∉ "false".toList ∧ q ∉ ['('] ∧ q ∉ [')'] := by
    rcases h with ⟨rfl, -⟩ | ⟨rfl, -⟩ <;> decide
  obtain ⟨hor, hand, hnot, htrue, hfalse, hopen, hclose⟩ := hwords
  induction hread with
  | parens hw _ ih =>
    have hs := eq_append_of_unwrap hw
    have ho' := not_mem_trim ho
    rw [hs] at ho'
    have hinner := ih (by simp_all)
    exact .of_trim h.isBlank (hs ▸ hinner.inside hopen hclose)
  | always ht => exact .of_trim h.isBlank (ht ▸ .constant htrue rfl rfl)
  | never ht => exact .of_trim h.isBlank (ht ▸ .constant hfalse rfl rfl)
  | or _ hcut _ _ ihl ihr =>
    have hs := eq_append_of_splitTop hcut
    obtain ⟨hl, hr⟩ := not_mem_of_splitTop (not_mem_trim ho) hcut
    exact .of_trim h.isBlank (hs ▸ (ihl hl).both (ihr hr) hor rfl rfl)
  | and _ _ hcut _ _ ihl ihr =>
    have hs := eq_append_of_splitTop hcut
    obtain ⟨hl, hr⟩ := not_mem_of_splitTop (not_mem_trim ho) hcut
    exact .of_trim h.isBlank (hs ▸ (ihl hl).both (ihr hr) hand rfl rfl)
  | not _ _ _ hn _ ih =>
    have hs := eq_append_of_negated? hn
    have ho' := not_mem_trim ho
    rw [hs, List.mem_append, not_or] at ho'
    exact .of_trim h.isBlank (hs ▸ ((ih ho'.2).behind hnot).neg)
  | comparison _ _ _ _ he => exact .of_trim h.isBlank (h.spells_comparison (not_mem_trim ho) he)

end Kinds

/-- In a text without the other kind of quotes, each constant stands between two quotes; and the constants
have none inside exactly when the text has no more of them than the paths, and two for each constant. -/
theorem read_unquoted_iff {text : String} (hkinds : Kinds q o) (ho : o ∉ text.toList)
    (h : read text = .ok e) :
    (∀ t ∈ e.strings, q :: (t.toList ++ [q]) <:+: text.toList) ∧
      ((∀ t ∈ e.strings, q ∉ t.toList) ↔
        text.toList.count q = e.inPaths q + 2 * e.strings.length) := by
  have hspells := hkinds.spells_of_reads (reads_of_ofChars h) ho
  refine ⟨hspells.quoted, ?_⟩
  rw [hspells.count, spelled, ← inStrings_eq_zero_iff]
  omega

/-- Two constants on one right side are read as one. -/
theorem read_two_constants : read "a == 'x' 'y'" = .ok (.compare "a" .eq (.string "x' 'y")) := by
  have htrim : Text.trim "a == 'x' 'y'".toList = "a == 'x' 'y'".toList := by decide
  have hreads : Reads "a == 'x' 'y'".toList (.compare "a" .eq (.string "x' 'y")) := by
    refine .comparison ⟨?_, ?_, ?_, ?_⟩ ?_ ?_ ?_ ?compared <;> rw [htrim]
    case compared => rfl
    -- None of the scans finds a connective.
    all_goals decide
  exact hreads.ofChars_eq

/-- The four quotes are two more than one constant needs. -/
theorem read_unquoted_iff_two_constants :
    ∃ e, read "a == 'x' 'y'" = .ok e ∧ ¬ ∀ t ∈ e.strings, '\'' ∉ t.toList := by
  refine ⟨_, read_two_constants, fun h => ?_⟩
  have hcount := (read_unquoted_iff (.inl ⟨rfl, rfl⟩) (by decide) read_two_constants).2.1 h
  exact absurd hcount (by decide)

/-- A text without double quotes, and a constant with a single quote in it. -/
theorem constant_takes_quotes :
    ∃ e, '"' ∉ "a == 'x' 'y'".toList ∧ read "a == 'x' 'y'" = .ok e ∧
      ∃ t ∈ e.strings, '\'' ∈ t.toList :=
  ⟨_, by decide, read_two_constants, "x' 'y", List.mem_singleton_self _, by decide⟩

end Expression
end MessageFlow
