import MessageFlow.Condition.Grammar

/-!
Scanning texts in which every quote and every parenthesis is closed. A scan passes over such a text and is in
the state it was in; on the way it stops only at a separator that stands outside of all of them. In a text of
words with blanks between them, a word of its own is found wherever it first stands.
-/

namespace MessageFlow
namespace Expression

/-- Every quote and every parenthesis is closed, and `P` holds of the characters outside of them. -/
inductive Closed : (Char → Prop) → List Char → Prop
  | nil {P : Char → Prop} : Closed P []
  | plain {P : Char → Prop} {c : Char} {s : List Char} :
      P c → ¬ (c = '\'' ∨ c = '"') → c ≠ '(' → c ≠ ')' → Closed P s → Closed P (c :: s)
  | quoted {P : Char → Prop} {q : Char} {t s : List Char} :
      q = '\'' ∨ q = '"' → q ∉ t → Closed P s → Closed P (q :: (t ++ q :: s))
  | parens {P : Char → Prop} {t s : List Char} :
      Closed (fun _ => True) t → Closed P s → Closed P ('(' :: (t ++ ')' :: s))

/-- Words, each behind a blank. -/
def spaced (words : List (List Char)) : List Char := words.flatMap (' ' :: ·)

variable {P Q : Char → Prop} {s t rest w first needle k : List Char} {c q : Char} {depth : Nat}
  {before words : List (List Char)}

theorem Closed.mono (h : Closed P s) (hpq : ∀ c, P c → Q c) : Closed Q s := by
  induction h with
  | nil => exact .nil
  | plain hc hq ho hn _ ih => exact .plain (hpq _ hc) hq ho hn (ih hpq)
  | quoted hq ht _ ih => exact .quoted hq ht (ih hpq)
  | parens ht _ _ ih => exact .parens ht (ih hpq)

theorem Closed.append (h : Closed P s) (ht : Closed P t) : Closed P (s ++ t) := by
  induction h with
  | nil => exact ht
  | plain hc hq ho hn _ ih => exact .plain hc hq ho hn (ih ht)
  | quoted hq hn _ ih =>
    rw [List.cons_append, List.append_assoc, List.cons_append]
    exact .quoted hq hn (ih ht)
  | parens hn _ _ ih =>
    rw [List.cons_append, List.append_assoc, List.cons_append]
    exact .parens hn (ih ht)

/-- A property of the characters of a text is checked one by one. -/
theorem forall_of_check [DecidablePred P] (h : s.all (fun c => decide (P c)) = true) : ∀ c ∈ s, P c :=
  fun c hc => of_decide_eq_true (List.all_eq_true.1 h c hc)

theorem closed_of_plain (h : ∀ c ∈ s, P c ∧ c ∉ "'\"()".toList) : Closed P s := by
  induction s with
  | nil => exact .nil
  | cons c s ih =>
    obtain ⟨⟨hp, hc⟩, hs⟩ := List.forall_mem_cons.1 h
    simp at hc
    exact .plain hp (by simp [hc]) (by simp [hc]) (by simp [hc]) (ih hs)

theorem closed_of_unmarked (h : ∀ c ∈ s, isMark c = false) : Closed (fun c => isMark c = false) s := by
  refine closed_of_plain fun c hc => ⟨h c hc, fun hmem => ?_⟩
  have hmark : ∀ d ∈ "'\"()".toList, isMark d = true := forall_of_check (by decide)
  exact Bool.false_ne_true ((h c hc).symm.trans (hmark c hmem))

/-! Passing over closed text -/

theorem splitTop_quoted (h : q ∉ t) : splitTop needle depth (some q) (t ++ q :: rest) =
    (splitTop needle depth none rest).map (fun p => (t ++ q :: p.1, p.2)) := by
  induction t with
  | nil => simp [splitTop]
  | cons c t ih =>
    rw [List.mem_cons, not_or] at h
    simp [splitTop, Ne.symm h.1, ih h.2, Function.comp_def]

theorem untilClosing_quoted (h : q ∉ t) : untilClosing depth (some q) (t ++ q :: rest) =
    (untilClosing depth none rest).map (t ++ q :: ·) := by
  induction t with
  | nil => simp [untilClosing]
  | cons c t ih =>
    rw [List.mem_cons, not_or] at h
    simp [untilClosing, Ne.symm h.1, ih h.2, Function.comp_def]

/-- A scan for something that starts with `c` passes over text that does not have `c` outside quotes and
parentheses; inside of parentheses it passes over any text. -/
theorem splitTop_closed (h : Closed P s) (hp : depth = 0 → ¬ P c) :
    splitTop (c :: needle) depth none (s ++ rest) =
      (splitTop (c :: needle) depth none rest).map (fun p => (s ++ p.1, p.2)) := by
  induction h generalizing depth rest with
  | nil => simp
  | @plain P d s hd hq ho hn _ ih =>
    have hpass : depth = 0 → c ≠ d := fun hdepth he => hp hdepth (he ▸ hd)
    simp only [List.cons_append, splitTop, hq, ho, hn, if_false, ih hp, Option.map_map, Function.comp_def]
    rw [if_neg]
    rintro ⟨hdepth, hprefix⟩
    simp only [List.isPrefixOf, Bool.and_eq_true, beq_iff_eq] at hprefix
    exact hpass hdepth hprefix.1
  | quoted hq ht _ ih =>
    simp [splitTop, hq, splitTop_quoted ht, ih hp, Function.comp_def]
  | parens _ _ iht ih =>
    simp [splitTop, iht, ih hp, Function.comp_def]

theorem untilClosing_closed (h : Closed P s) : untilClosing (depth + 1) none (s ++ rest) =
    (untilClosing (depth + 1) none rest).map (s ++ ·) := by
  induction h generalizing depth rest with
  | nil => simp
  | plain _ hq ho hn _ ih => simp [untilClosing, hq, ho, hn, ih, Function.comp_def]
  | quoted hq ht _ ih => simp [untilClosing, hq, untilClosing_quoted ht, ih, Function.comp_def]
  | parens _ _ iht ih => simp [untilClosing, iht, ih, Function.comp_def]

theorem unwrap_parens (h : Closed P s) : unwrap ('(' :: (s ++ [')'])) = some s := by
  simp [unwrap, untilClosing_closed h, untilClosing]

/-- Parentheses do not wrap a text of several words: those of the first word are closed before its end. -/
theorem unwrap_append (h : Closed P s) (hc : c ≠ '(') : unwrap (s ++ c :: rest) = none := by
  cases h with
  | nil => simp [unwrap, hc]
  | plain _ _ ho _ _ => simp [unwrap, ho]
  | quoted hq _ _ => rcases hq with rfl | rfl <;> simp [unwrap]
  | parens ht _ => simp [unwrap, untilClosing_closed ht, untilClosing]

/-! Words with blanks between them -/

theorem spaced_cons : spaced (w :: words) = ' ' :: (w ++ spaced words) := rfl

theorem closed_of_words (hf : Closed P first) (hw : ∀ w ∈ words, Closed P w) :
    Closed (fun _ => True) (first ++ spaced words) := by
  induction words generalizing first with
  | nil => exact (hf.append .nil).mono fun _ _ => trivial
  | cons w words ih =>
    obtain ⟨hw, hwords⟩ := List.forall_mem_cons.1 hw
    have hblank : Closed (fun _ => True) [' '] := .plain trivial (by decide) (by decide) (by decide) .nil
    exact (hf.mono fun _ _ => trivial).append (hblank.append (ih hw hwords))

/-- Where a word begins, no other word with a blank behind it does. -/
theorem eq_keyword_of_starts (hw : Closed P w) (hp : ¬ P ' ') (hk : ∀ c ∈ k, isMark c = false)
    (h : k ++ [' '] <+: w ++ spaced words) : w = k := by
  induction hw generalizing k with
  | nil =>
    cases k with
    | nil => rfl
    | cons d k =>
      -- The word is over, so a blank follows, and a keyword has none.
      cases words with
      | nil => simp [spaced] at h
      | cons v words =>
        have hd : d = ' ' := by simpa [spaced] using (List.cons_prefix_cons.1 h).1
        subst hd
        exact absurd (hk ' ' List.mem_cons_self) (by decide)
  | @plain P d s hd _ _ _ _ ih =>
    cases k with
    | nil =>
      have he : ' ' = d := (List.cons_prefix_cons.1 h).1
      exact absurd (he ▸ hd) hp
    | cons e k =>
      obtain ⟨rfl, htail⟩ := List.cons_prefix_cons.1 h
      rw [ih hp (List.forall_mem_cons.1 hk).2 htail]
  | quoted hq _ _ _ =>
    cases k with
    | nil => rcases hq with rfl | rfl <;> simp at h
    | cons e k =>
      obtain ⟨rfl, -⟩ := List.cons_prefix_cons.1 h
      have he := (List.forall_mem_cons.1 hk).1
      rcases hq with rfl | rfl <;> exact absurd he (by decide)
  | parens _ _ _ _ =>
    cases k with
    | nil => simp at h
    | cons e k =>
      obtain ⟨rfl, -⟩ := List.cons_prefix_cons.1 h
      exact absurd (List.forall_mem_cons.1 hk).1 (by decide)

section Keyword
variable (hp : ¬ P ' ') (hk : ∀ c ∈ k, isMark c = false)
include hp hk

/-- At a blank, a keyword is found if it is the next word, and not the last one. -/
theorem splitTop_blank (hw : Closed P w) (hne : w ≠ k) :
    splitTop (' ' :: (k ++ [' '])) 0 none (' ' :: (w ++ spaced words)) =
      (splitTop (' ' :: (k ++ [' '])) 0 none (w ++ spaced words)).map (fun p => (' ' :: p.1, p.2)) := by
  have hno : ¬ k ++ [' '] <+: w ++ spaced words := fun h => hne (eq_keyword_of_starts hw hp hk h)
  simp [splitTop, hno]

/-- A keyword that is none of the words behind the first is not found. -/
theorem splitTop_spaced_of_not_mem (hf : Closed P first) (hw : ∀ w ∈ words, Closed P w) (hn : k ∉ words) :
    splitTop (' ' :: (k ++ [' '])) 0 none (first ++ spaced words) = none := by
  induction words generalizing first with
  | nil =>
    rw [splitTop_closed hf (fun _ => hp)]
    rfl
  | cons v words ih =>
    obtain ⟨hv, hwords⟩ := List.forall_mem_cons.1 hw
    rw [List.mem_cons, not_or] at hn
    rw [splitTop_closed hf (fun _ => hp), spaced_cons, splitTop_blank hp hk hv (Ne.symm hn.1),
      ih hv hwords hn.2]
    rfl

/-- A text is cut at the first of the words behind the first one that is the keyword, if it is not the last.
-/
theorem splitTop_spaced (hf : Closed P first) (hw : ∀ w ∈ before, Closed P w) (hn : k ∉ before)
    (next : List Char) (after : List (List Char)) :
    splitTop (' ' :: (k ++ [' '])) 0 none (first ++ spaced (before ++ k :: next :: after)) =
      some (first ++ spaced before, next ++ spaced after) := by
  induction before generalizing first with
  | nil =>
    have hfound : splitTop (' ' :: (k ++ [' '])) 0 none (' ' :: (k ++ ' ' :: (next ++ spaced after))) =
        some ([], next ++ spaced after) := by
      simp [splitTop]
    rw [splitTop_closed hf (fun _ => hp), List.nil_append, spaced_cons, spaced_cons, hfound]
    rfl
  | cons v before ih =>
    obtain ⟨hv, hbefore⟩ := List.forall_mem_cons.1 hw
    rw [List.mem_cons, not_or] at hn
    rw [splitTop_closed hf (fun _ => hp), List.cons_append, spaced_cons,
      splitTop_blank hp hk hv (Ne.symm hn.1), ih hv hbefore hn.2]
    rfl

end Keyword

end Expression
end MessageFlow
