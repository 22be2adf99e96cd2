import MessageFlow.Proofs.Reading
import MessageFlow.Proofs.Scanning

/-!
Reading keeps to the grammar: the text of every phrase is read as the condition that the phrase stands for.
The text is a row of words with blanks between them, where a text in quotes or in parentheses is one word; so
a connective counts where it is a word of its own, and the words of a phrase that binds more tightly have none
in them.
-/

namespace MessageFlow
namespace Expression

variable {s : List Char} {c : Char} {n : LiteralNumber}

/-! The characters of numbers -/

theorem isMark_eq_false_of_toNat
    (h : 0x2A ≤ c.toNat ∧ c.toNat ≤ 0x3B ∨ 0x3F ≤ c.toNat ∧ c.toNat ≤ 0x84) : isMark c = false := by
  have hblank : Text.isBlank c = false := by
    simp only [Text.isBlank, Bool.or_eq_false_iff, Bool.and_eq_false_iff, decide_eq_false_iff_not,
      beq_eq_false_iff_ne]
    omega
  have hmark : c ∉ "'\"()=!<>".toList := by
    intro hmem
    have hall : ∀ d ∈ "'\"()=!<>".toList,
        ¬ (0x2A ≤ d.toNat ∧ d.toNat ≤ 0x3B ∨ 0x3F ≤ d.toNat ∧ d.toNat ≤ 0x84) :=
      forall_of_check (by decide)
    exact hall c hmem h
  simp only [isMark, hblank, Bool.false_or, List.contains_eq_mem, decide_eq_false hmark]

theorem isMark_of_isDigit (h : Text.isDigit c = true) : isMark c = false := by
  simp only [Text.isDigit, Bool.and_eq_true, decide_eq_true_eq] at h
  have hlow : 0x30 ≤ c.toNat := h.1
  have hhigh : c.toNat ≤ 0x39 := h.2
  exact isMark_eq_false_of_toNat (by omega)

/-- A letter has no blank or other mark as its other case. -/
theorem isMark_of_toLower (h : 0x61 ≤ c.toLower.toNat ∧ c.toLower.toNat ≤ 0x7A) : isMark c = false := by
  apply isMark_eq_false_of_toNat
  delta Char.toLower at h
  split at h
  · next hc =>
    have hlow : 0x41 ≤ c.toNat := hc.1
    have hhigh : c.toNat ≤ 0x5A := hc.2
    omega
  · omega

theorem unmarked_of_dropWhile (h : ∀ c ∈ s.dropWhile Text.isDigit, isMark c = false) :
    ∀ c ∈ s, isMark c = false := by
  intro c hc
  rw [← List.takeWhile_append_dropWhile (p := Text.isDigit) (l := s), List.mem_append] at hc
  rcases hc with hc | hc
  · have := List.all_takeWhile (p := Text.isDigit) (l := s)
    exact isMark_of_isDigit (List.all_eq_true.1 this c hc)
  · exact h c hc

theorem unmarked_of_exponent? {e : Int} (h : Decimal.exponent? s = some e) : ∀ c ∈ s, isMark c = false := by
  have hdigits (ds : List Char) (hs : ¬ ((ds.isEmpty || !ds.all Text.isDigit) = true)) :
      ∀ c ∈ ds, isMark c = false := by
    simp only [Bool.or_eq_true, Bool.not_eq_true', not_or, Bool.not_eq_false, List.all_eq_true] at hs
    exact fun c hc => isMark_of_isDigit (hs.2 c hc)
  unfold Decimal.exponent? at h
  split at h
  next hsign =>
  split at h
  · cases h
  · next hs =>
    have hds := hdigits _ hs
    split at hsign <;> cases hsign
    · exact List.forall_mem_cons.2 ⟨by decide, hds⟩
    · exact List.forall_mem_cons.2 ⟨by decide, hds⟩
    · exact hds

theorem unmarked_of_read? {d : Decimal} (h : Decimal.read? s = some d) : ∀ c ∈ s, isMark c = false := by
  unfold Decimal.read? at h
  split at h
  next fraction rest hpair =>
  obtain ⟨-, -, h⟩ := Option.bind_eq_some_iff.1 h
  -- Behind the digits and the point stands nothing, or an exponent.
  have hrest : ∀ c ∈ rest, isMark c = false := by
    cases rest with
    | nil => exact List.forall_mem_nil _
    | cons c t =>
      dsimp only at h
      split at h
      · next hc =>
        obtain ⟨e, he, -⟩ := Option.bind_eq_some_iff.1 h
        refine List.forall_mem_cons.2 ⟨?_, unmarked_of_exponent? he⟩
        rcases hc with rfl | rfl <;> decide
      · cases h
  apply unmarked_of_dropWhile
  split at hpair
  · next hpoint =>
    cases hpair
    rw [hpoint]
    exact List.forall_mem_cons.2 ⟨by decide, unmarked_of_dropWhile hrest⟩
  · cases hpair
    exact hrest

theorem unmarked_of_specialNumber? {b : Bool} (h : specialNumber? b s = some n) :
    ∀ c ∈ s, isMark c = false := by
  have hname (name : String) (hletters : ∀ d ∈ name.toList, 0x61 ≤ d.toNat ∧ d.toNat ≤ 0x7A)
      (hs : s.map Char.toLower = name.toList) : ∀ c ∈ s, isMark c = false :=
    fun c hc => isMark_of_toLower (hletters c.toLower (hs ▸ List.mem_map_of_mem hc))
  unfold specialNumber? at h
  dsimp only at h
  split at h
  · next hs =>
    rcases hs with hs | hs
    · exact hname "inf" (forall_of_check (by decide)) hs
    · exact hname "infinity" (forall_of_check (by decide)) hs
  · split at h
    · next hs => exact hname "nan" (forall_of_check (by decide)) hs
    · cases h

theorem unmarked_of_number? (h : number? s = some n) : ∀ c ∈ s, isMark c = false := by
  unfold number? at h
  split at h
  next negative body hsign =>
  have hbody : ∀ c ∈ body, isMark c = false := by
    split at h
    · next hspecial => exact unmarked_of_specialNumber? hspecial
    · obtain ⟨d, hd, -⟩ := Option.map_eq_some_iff.1 h
      exact unmarked_of_read? hd
  split at hsign <;> cases hsign
  · exact List.forall_mem_cons.2 ⟨by decide, hbody⟩
  · exact List.forall_mem_cons.2 ⟨by decide, hbody⟩
  · exact hbody

/-- A word that is no number is not the text of one. -/
theorem ne_of_number? {word : List Char} (h : number? s = some n) (hw : number? word = none) : s ≠ word := by
  rintro rfl
  rw [h] at hw
  cases hw

/-! Paths and literals -/

theorem isBlank_of_unmarked (h : isMark c = false) : Text.isBlank c = false := by
  simp only [isMark, Bool.or_eq_false_iff] at h
  exact h.1

theorem trim_of_unmarked (h : ∀ c ∈ s, isMark c = false) : Text.trim s = s :=
  Text.trim_eq_self (fun c hc => isBlank_of_unmarked (h c (List.mem_of_head? hc)))
    (fun c hc => isBlank_of_unmarked (h c (List.mem_of_getLast? hc)))

theorem trim_blank_cons : Text.trim (' ' :: s) = Text.trim s := by
  have hb : Text.isBlank ' ' = true := by decide
  simp only [Text.trim, Text.trimStart, List.dropWhile_cons, hb, if_true]

namespace PathText
variable (p : PathText)

theorem closed : Closed (fun c => isMark c = false) p.chars := closed_of_unmarked p.unmarked

/-- What stands before an operator is trimmed to the path. -/
theorem trim_append_blank : Text.trim (p.chars ++ [' ']) = p.chars := by
  have hb : Text.isBlank ' ' = true := by decide
  have hstart (t : List Char) : Text.trimStart (p.chars ++ t) = p.chars ++ t := by
    refine Text.trimStart_eq_self fun c hc => isBlank_of_unmarked (p.unmarked c ?_)
    obtain ⟨d, rest, hp⟩ := List.exists_cons_of_ne_nil p.ne_nil
    rw [hp, List.cons_append, List.head?_cons, Option.some.injEq] at hc
    rw [hp, hc]
    exact List.mem_cons_self
  have hself : Text.trim (p.chars ++ []) = p.chars := by
    rw [List.append_nil]
    exact trim_of_unmarked p.unmarked
  rw [Text.trim, hstart] at hself ⊢
  rw [Text.trimEnd, List.reverse_append, List.reverse_singleton, List.singleton_append,
    List.dropWhile_cons, if_pos hb]
  rwa [List.append_nil] at hself

end PathText

namespace LiteralText
variable (l : LiteralText)

theorem closed : Closed (fun c => isMark c = false) l.chars := by
  cases l with
  | null => exact closed_of_unmarked (forall_of_check (by decide))
  | boolean b => cases b <;> exact closed_of_unmarked (forall_of_check (by decide))
  | number chars n reads => exact closed_of_unmarked (unmarked_of_number? reads)
  | quoted q t hq ht => exact .quoted hq ht .nil

theorem chars_ne_nil : l.chars ≠ [] := by
  cases l with
  | null => decide
  | boolean b => cases b <;> decide
  | number chars n reads => exact ne_of_number? reads (by decide)
  | quoted q t hq ht => exact List.cons_ne_nil _ _

theorem trim_chars : Text.trim l.chars = l.chars := by
  cases l with
  | null => exact trim_of_unmarked (forall_of_check (by decide))
  | boolean b => cases b <;> exact trim_of_unmarked (forall_of_check (by decide))
  | number chars n reads => exact trim_of_unmarked (unmarked_of_number? reads)
  | quoted q t hq ht =>
    have hblank : Text.isBlank q = false := by rcases hq with rfl | rfl <;> decide
    have hends (c : Char) (hc : c = q) : Text.isBlank c = false := hc ▸ hblank
    apply Text.trim_eq_self
    · exact fun c hc => hends c (Option.some.inj hc).symm
    · intro c hc
      rw [chars, ← List.cons_append, List.getLast?_concat] at hc
      exact hends c (Option.some.inj hc).symm

theorem ne_connective : l.chars ≠ "or".toList ∧ l.chars ≠ "and".toList := by
  cases l with
  | null => decide
  | boolean b => cases b <;> decide
  | number chars n reads => exact ⟨ne_of_number? reads (by decide), ne_of_number? reads (by decide)⟩
  | quoted q t hq ht => rcases hq with rfl | rfl <;> simp [chars]

/-- A literal is read as what it stands for, also with blanks around it. -/
theorem literal_of_trim (h : Text.trim s = l.chars) : literal s = .ok l.meaning := by
  unfold literal
  rw [h]
  cases l with
  | null => rfl
  | boolean b => cases b <;> rfl
  | number chars n reads =>
    have hnull : chars ≠ "null".toList := ne_of_number? reads (by decide)
    have htrue : chars ≠ "true".toList := ne_of_number? reads (by decide)
    have hfalse : chars ≠ "false".toList := ne_of_number? reads (by decide)
    have hquote : quotedInside? chars = none := by
      cases chars with
      | nil => rfl
      | cons q rest =>
        have hq := unmarked_of_number? reads q List.mem_cons_self
        have hno : ¬ (q = '\'' ∨ q = '"') := by rintro (rfl | rfl) <;> exact absurd hq (by decide)
        simp [quotedInside?, hno]
    simp only [LiteralText.chars, LiteralText.meaning, if_neg hnull, if_neg htrue, if_neg hfalse, hquote, reads]
  | quoted q t hq ht =>
    have hinside : quotedInside? (q :: (t ++ [q])) = some t := by simp [quotedInside?, hq]
    have hne (word : List Char) (hw : q ∉ word) : q :: (t ++ [q]) ≠ word := by
      rintro rfl
      exact hw List.mem_cons_self
    have hnull := hne "null".toList (by rcases hq with rfl | rfl <;> decide)
    have htrue := hne "true".toList (by rcases hq with rfl | rfl <;> decide)
    have hfalse := hne "false".toList (by rcases hq with rfl | rfl <;> decide)
    simp only [LiteralText.chars, LiteralText.meaning, if_neg hnull, if_neg htrue, if_neg hfalse, hinside]

end LiteralText

namespace Phrase

/-- The first word of a phrase. -/
def first : {b : Binding} → Phrase b → List Char
  | _, .or left _ => left.first
  | _, .noOr only | _, .noAnd only => only.first
  | _, .and left _ => left.first
  | _, .not _ => "not".toList
  | _, .parenthesized inner => '(' :: (inner.chars ++ [')'])
  | _, .always => "true".toList
  | _, .never => "false".toList
  | _, .comparison path _ _ => path.chars

/-- The words behind the first. -/
def others : {b : Binding} → Phrase b → List (List Char)
  | _, .or left right => left.others ++ "or".toList :: right.first :: right.others
  | _, .noOr only | _, .noAnd only => only.others
  | _, .and left right => left.others ++ "and".toList :: right.first :: right.others
  | _, .not inner => inner.first :: inner.others
  | _, .parenthesized _ | _, .always | _, .never => []
  | _, .comparison _ op right => [op.text.toList, right.chars]

theorem chars_eq {b : Binding} (p : Phrase b) : p.chars = p.first ++ spaced p.others := by
  induction p with
  | or left right ihl ihr => simp [chars, first, others, ihl, ihr, spaced]
  | noOr only ih => exact ih
  | and left right ihl ihr => simp [chars, first, others, ihl, ihr, spaced]
  | noAnd only ih => exact ih
  | not inner ih => simp [chars, first, others, ih, spaced]
  | parenthesized inner _ => simp [chars, first, others, spaced]
  | always => rfl
  | never => rfl
  | comparison path op right => simp [chars, first, others, spaced]

/-- Every word of a phrase is closed, and has blanks only inside quotes and parentheses. -/
theorem closed_words {b : Binding} (p : Phrase b) :
    Closed (· ≠ ' ') p.first ∧ ∀ w ∈ p.others, Closed (· ≠ ' ') w := by
  have hunmarked {w : List Char} (h : Closed (fun c => isMark c = false) w) : Closed (· ≠ ' ') w :=
    h.mono fun c hc => by rintro rfl; exact absurd hc (by decide)
  have hplain {w : List Char} (h : ∀ c ∈ w, isMark c = false) : Closed (· ≠ ' ') w :=
    hunmarked (closed_of_unmarked h)
  have hchain {l w f : List Char} {before after : List (List Char)}
      (hl : Closed (· ≠ ' ') l ∧ ∀ w ∈ before, Closed (· ≠ ' ') w) (hw : ∀ c ∈ w, isMark c = false)
      (hr : Closed (· ≠ ' ') f ∧ ∀ w ∈ after, Closed (· ≠ ' ') w) :
      Closed (· ≠ ' ') l ∧ ∀ v ∈ before ++ w :: f :: after, Closed (· ≠ ' ') v := by
    refine ⟨hl.1, List.forall_mem_append.2 ⟨hl.2, ?_⟩⟩
    exact List.forall_mem_cons.2 ⟨hplain hw, List.forall_mem_cons.2 hr⟩
  induction p with
  | or left right ihl ihr => exact hchain ihl (forall_of_check (by decide)) ihr
  | noOr only ih => exact ih
  | and left right ihl ihr => exact hchain ihl (forall_of_check (by decide)) ihr
  | noAnd only ih => exact ih
  | not inner ih =>
    have hnot : ∀ c ∈ "not".toList, isMark c = false := forall_of_check (by decide)
    exact ⟨hplain hnot, List.forall_mem_cons.2 ih⟩
  | parenthesized inner ih =>
    have hinner : Closed (fun _ => True) inner.chars := by
      rw [chars_eq]
      exact closed_of_words ih.1 ih.2
    exact ⟨.parens hinner .nil, by simp [others]⟩
  | always => exact ⟨hplain (forall_of_check (by decide)), by simp [others]⟩
  | never => exact ⟨hplain (forall_of_check (by decide)), by simp [others]⟩
  | comparison path op right =>
    have hop : Closed (· ≠ ' ') op.text.toList := by cases op <;> exact closed_of_plain (forall_of_check (by decide))
    exact ⟨hunmarked path.closed, by simp [others, hop, hunmarked right.closed]⟩

theorem closed_chars {b : Binding} (p : Phrase b) : Closed (fun _ => True) p.chars := by
  rw [chars_eq]
  exact closed_of_words p.closed_words.1 p.closed_words.2

theorem first_ne_connective {b : Binding} (p : Phrase b) :
    p.first ≠ "or".toList ∧ p.first ≠ "and".toList := by
  induction p with
  | or left _ ih _ => exact ih
  | noOr _ ih => exact ih
  | and left _ ih _ => exact ih
  | noAnd _ ih => exact ih
  | not _ _ => exact (by decide : "not".toList ≠ "or".toList ∧ "not".toList ≠ "and".toList)
  | parenthesized => simp [first]
  | always => decide
  | never => decide
  | comparison path _ _ =>
    have hpath := path.not_keyword
    constructor <;> rintro (h : path.chars = _) <;> exact hpath (h ▸ by decide)

/-- A phrase has no connective among its words that binds more loosely than it does. -/
theorem connective_not_mem_others {b : Binding} (p : Phrase b) :
    (b ≠ .disjunction → "or".toList ∉ p.others) ∧ (b = .unary → "and".toList ∉ p.others) := by
  induction p with
  | or => exact ⟨fun h => absurd rfl h, fun h => by cases h⟩
  | noOr => exact ⟨fun h => absurd rfl h, fun h => by cases h⟩
  | and left right ihl ihr =>
    refine ⟨fun h hmem => ?_, fun h => by cases h⟩
    rw [others, List.mem_append, List.mem_cons, List.mem_cons] at hmem
    rcases hmem with hmem | hmem | hmem | hmem
    · exact ihl.1 (by simp) hmem
    · exact absurd hmem (by decide)
    · exact right.first_ne_connective.1 hmem.symm
    · exact ihr.1 h hmem
  | noAnd _ ih => exact ⟨fun _ => ih.1 (by simp), fun h => by cases h⟩
  | not inner ih =>
    have hfirst := inner.first_ne_connective
    refine ⟨fun h hmem => ?_, fun h hmem => ?_⟩
    · exact (List.mem_cons.1 hmem).elim (fun he => hfirst.1 he.symm) (ih.1 h)
    · exact (List.mem_cons.1 hmem).elim (fun he => hfirst.2 he.symm) (ih.2 h)
  | parenthesized => simp [others]
  | always => simp [others]
  | never => simp [others]
  | comparison _ op right =>
    have hop : op.text.toList ≠ "or".toList ∧ op.text.toList ≠ "and".toList := by cases op <;> decide
    have hright := right.ne_connective
    constructor <;> simp only [others, List.mem_cons, List.not_mem_nil, or_false, not_or] <;> intro _
    · exact ⟨hop.1.symm, hright.1.symm⟩
    · exact ⟨hop.2.symm, hright.2.symm⟩

/-- The text of a phrase has no blanks at its ends. -/
theorem trim_chars {b : Binding} (p : Phrase b) : p.chars ≠ [] ∧ Text.trim p.chars = p.chars := by
  induction p with
  | or left right ihl ihr =>
    exact ⟨by simp [chars], Text.trim_append_eq_self ihl.1 ihr.1 ihl.2 ihr.2⟩
  | noOr only ih => exact ih
  | and left right ihl ihr =>
    exact ⟨by simp [chars], Text.trim_append_eq_self ihl.1 ihr.1 ihl.2 ihr.2⟩
  | noAnd only ih => exact ih
  | not inner ih =>
    have hnot : Text.trim "not".toList = "not".toList := by decide
    exact ⟨by simp [chars], Text.trim_append_eq_self (m := [' ']) (by decide) ih.1 hnot ih.2⟩
  | parenthesized inner _ =>
    have hopen : Text.trim ['('] = ['('] := by decide
    have hclose : Text.trim [')'] = [')'] := by decide
    exact ⟨by simp [chars], Text.trim_append_eq_self (by decide) (by decide) hopen hclose⟩
  | always => decide
  | never => decide
  | comparison path op right =>
    have hpath := trim_of_unmarked path.unmarked
    refine ⟨by simp [chars], ?_⟩
    have := Text.trim_append_eq_self (m := ' ' :: op.text.toList ++ [' ']) path.ne_nil right.chars_ne_nil hpath
      right.trim_chars
    simpa [chars] using this

/-- A text of several words is no constant, and no parentheses wrap it. -/
theorem composite {b : Binding} (p : Phrase b) (hp : p.others ≠ []) : Composite p.chars := by
  obtain ⟨w, words, h⟩ := List.exists_cons_of_ne_nil hp
  have hwords := p.closed_words
  have hblank : ' ' ∈ p.chars := by simp [chars_eq, h, spaced_cons]
  refine ⟨p.trim_chars.1, ?_, ?_, ?_⟩
  · rw [chars_eq, h, spaced_cons]
    exact unwrap_append hwords.1 (by decide)
  · intro he
    exact absurd (he ▸ hblank) (by decide)
  · intro he
    exact absurd (he ▸ hblank) (by decide)

/-- The text is cut at a connective that is none of the words in front. -/
theorem splitTop_connective {b b' c : Binding} {p : Phrase b} {left : Phrase b'} {right : Phrase c} {k : List Char}
    (hp : p.chars = left.chars ++ ' ' :: (k ++ ' ' :: right.chars)) (hk : ∀ c ∈ k, isMark c = false)
    (hn : k ∉ left.others) :
    splitTop (' ' :: (k ++ [' '])) 0 none p.chars = some (left.chars, right.chars) := by
  have hleft := left.closed_words
  have := splitTop_spaced (by simp) hk hleft.1 hleft.2 hn right.first right.others
  rw [hp, left.chars_eq, right.chars_eq]
  simpa [spaced] using this

theorem splitTop_connective_eq_none {b : Binding} (p : Phrase b) {k : List Char}
    (hk : ∀ c ∈ k, isMark c = false) (hn : k ∉ p.others) :
    splitTop (' ' :: (k ++ [' '])) 0 none p.chars = none := by
  have hwords := p.closed_words
  rw [chars_eq]
  exact splitTop_spaced_of_not_mem (by simp) hk hwords.1 hwords.2 hn

/-- A comparison does not begin with `not`: its path is a word of its own, and not that one. -/
theorem negated?_comparison (path : PathText) (op : CompareOp) (right : LiteralText) :
    negated? (comparison path op right).chars = none := by
  unfold negated?
  split
  · next rest h =>
    have hword := (comparison path op right).closed_words
    have hprefix : "not".toList ++ [' '] <+: path.chars ++ spaced [op.text.toList, right.chars] := by
      have hwords : (comparison path op right).chars = path.chars ++ spaced [op.text.toList, right.chars] :=
        chars_eq _
      rw [← hwords, h]
      exact ⟨rest, rfl⟩
    have he : path.chars = "not".toList := eq_keyword_of_starts hword.1 (by simp) (forall_of_check (by decide)) hprefix
    exact absurd (he ▸ by decide) path.not_keyword
  · rfl

/-- The path of a comparison holds nothing of an operator. -/
theorem splitTop_path (path : PathText) {c : Char} {needle rest : List Char} (hc : isMark c = true)
    (hb : c ≠ ' ') :
    splitTop (c :: needle) 0 none (path.chars ++ ' ' :: rest) =
      (splitTop (c :: needle) 0 none rest).map (fun p => (path.chars ++ ' ' :: p.1, p.2)) := by
  have hpath : Closed (· ≠ c) (path.chars ++ [' ']) :=
    (path.closed.mono fun d hd => by rintro rfl; rw [hc] at hd; cases hd).append
      (.plain (Ne.symm hb) (by decide) (by decide) (by decide) .nil)
  have hpass : splitTop (c :: needle) 0 none ((path.chars ++ [' ']) ++ rest) =
      (splitTop (c :: needle) 0 none rest).map (fun p => ((path.chars ++ [' ']) ++ p.1, p.2)) :=
    splitTop_closed hpath fun _ h => h rfl
  simpa using hpass

theorem splitTop_right (right : LiteralText) {c : Char} {needle : List Char} (hc : isMark c = true) :
    splitTop (c :: needle) 0 none right.chars = none := by
  have hright : Closed (· ≠ c) right.chars :=
    right.closed.mono fun d hd => by rintro rfl; rw [hc] at hd; cases hd
  have hpass : splitTop (c :: needle) 0 none (right.chars ++ []) =
      (splitTop (c :: needle) 0 none []).map (fun p => (right.chars ++ p.1, p.2)) :=
    splitTop_closed hright fun _ h => h rfl
  simpa [splitTop] using hpass

theorem comparison_chars (path : PathText) (op : CompareOp) (right : LiteralText) :
    Expression.comparison (comparison path op right).chars operators =
      .ok (.compare (String.ofList path.chars) op right.meaning) := by
  have hpath : path.chars.isEmpty = false ∧ path.chars.any Text.isBlank = false := by
    refine ⟨by simp [path.ne_nil], List.any_eq_false.2 fun c hc => ?_⟩
    simp [isBlank_of_unmarked (path.unmarked c hc)]
  have hleft := path.trim_append_blank
  have hlit : literal (' ' :: right.chars) = .ok right.meaning :=
    right.literal_of_trim (trim_blank_cons.trans right.trim_chars)
  cases op with
  | contains =>
    have hmem : ∀ w ∈ ([] : List (List Char)), Closed (· ≠ ' ') w := by simp
    have hword := splitTop_spaced (k := "contains".toList) (by simp) (forall_of_check (by decide))
      (comparison path .contains right).closed_words.1 hmem (by simp) right.chars []
    simp [spaced, first] at hword
    simp (disch := decide) [chars, CompareOp.text, operators, Expression.comparison, splitTop_path, splitTop,
      splitTop_right, hword, trim_of_unmarked path.unmarked, right.literal_of_trim right.trim_chars, hpath,
      Except.map]
  | _ =>
    simp (disch := decide) [chars, CompareOp.text, operators, Expression.comparison, splitTop_path, splitTop,
      splitTop_right, hleft, hlit, hpath, Except.map]

/-- The rules lead from the text of a phrase to what it stands for. -/
theorem reads_chars {b : Binding} (p : Phrase b) : Reads p.chars p.meaning := by
  have htrim {c : Binding} (q : Phrase c) : Text.trim q.chars = q.chars := q.trim_chars.2
  have hor : ∀ c ∈ "or".toList, isMark c = false := forall_of_check (by decide)
  have hand : ∀ c ∈ "and".toList, isMark c = false := forall_of_check (by decide)
  have hunary (q : Phrase .unary) : splitTop " or ".toList 0 none q.chars = none ∧
      splitTop " and ".toList 0 none q.chars = none :=
    ⟨q.splitTop_connective_eq_none hor (q.connective_not_mem_others.1 (by simp)),
      q.splitTop_connective_eq_none hand (q.connective_not_mem_others.2 rfl)⟩
  induction p with
  | or left right ihl ihr =>
    have hcut : splitTop " or ".toList 0 none (Phrase.or left right).chars = some (left.chars, right.chars) :=
      splitTop_connective (by simp [chars]) hor (left.connective_not_mem_others.1 (by simp))
    refine .or ?_ ?_ ihl ihr <;> rw [htrim]
    · exact composite _ (by simp [others])
    · exact hcut
  | noOr only ih => exact ih
  | and left right ihl ihr =>
    have hnone := (Phrase.and left right).splitTop_connective_eq_none hor
      ((Phrase.and left right).connective_not_mem_others.1 (by simp))
    have hcut : splitTop " and ".toList 0 none (Phrase.and left right).chars = some (left.chars, right.chars) :=
      splitTop_connective (by simp [chars]) hand (left.connective_not_mem_others.2 rfl)
    refine .and ?_ ?_ ?_ ihl ihr <;> rw [htrim]
    · exact composite _ (by simp [others])
    · exact hnone
    · exact hcut
  | noAnd only ih => exact ih
  | not inner ih =>
    obtain ⟨ho, ha⟩ := hunary (.not inner)
    have hnot : negated? (Phrase.not inner).chars = some inner.chars := rfl
    refine .not ?_ ?_ ?_ ?_ ih <;> rw [htrim]
    · exact composite _ (by simp [others])
    · exact ho
    · exact ha
    · exact hnot
  | parenthesized inner ih =>
    have hinner : Closed (fun _ => True) inner.chars := inner.closed_chars
    refine .parens ?_ ih
    rw [htrim]
    exact unwrap_parens hinner
  | always => exact .always (htrim .always)
  | never => exact .never (htrim .never)
  | comparison path op right =>
    obtain ⟨ho, ha⟩ := hunary (.comparison path op right)
    refine .comparison ?_ ?_ ?_ ?_ ?_ <;> rw [htrim]
    · exact composite _ (by simp [others])
    · exact ho
    · exact ha
    · exact negated?_comparison path op right
    · exact comparison_chars path op right

end Phrase

/-- The text of a phrase is read as the condition that the phrase stands for, whatever its texts in quotes
hold. -/
theorem read_text (p : Phrase .disjunction) : read p.text = .ok p.meaning := by
  rw [read, Phrase.text, String.toList_ofList]
  exact p.reads_chars.ofChars_eq

end Expression
end MessageFlow
