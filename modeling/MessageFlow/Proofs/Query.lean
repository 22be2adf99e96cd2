import MessageFlow.Json.Reader
import MessageFlow.Proofs.Except
import MessageFlow.Route.Uri

/-!
Reading queries. A query in the form `application/x-www-form-urlencoded` gives back the pairs that it was written
from, so an address in this encoding tells the parameters of its stage.
-/

namespace MessageFlow.Text
variable {b : UInt8} {n : Nat} {s t : String}

/-- The bytes that a part of a query spells: a plus sign is a space, a percent sign stands before the two
hexadecimal digits of a byte, and any other character is its UTF-8 bytes. A percent sign without its digits is
only a percent sign. -/
def formUnescape : List Char → List UInt8
  | [] => []
  | '+' :: rest => 0x20 :: formUnescape rest
  | '%' :: a :: b :: rest =>
    match Json.hexValue? a, Json.hexValue? b with
    | some high, some low => UInt8.ofNat (16 * high + low) :: formUnescape rest
    | _, _ => String.utf8EncodeChar '%' ++ formUnescape (a :: b :: rest)
  | c :: rest => String.utf8EncodeChar c ++ formUnescape rest

/-- The text that a part of a query spells, where its bytes are UTF-8. -/
def formText? (part : List Char) : Option String := String.fromUTF8? (formUnescape part).toByteArray

/-- The name and the value that a part between two ampersands spells; without an equals sign all of it is the
name. -/
def formPair? (part : List Char) : Option (String × String) := do
  let (name, value) := (cut '=' part).getD (part, [])
  return (← formText? name, ← formText? value)

/-- The pairs of a query, in their order. Nothing between two ampersands is no pair. -/
def formPairs? (query : String) : Option (List (String × String)) :=
  ((pieces '&' query.toList).filter (fun part => !part.isEmpty)).mapM formPair?

/-! Bytes and their characters -/

theorem toNat_ofNat_ascii (h : n < 128) : (Char.ofNat n).toNat = n := by
  have hv : n.isValidChar := Or.inl (by omega)
  rw [Char.ofNat, dif_pos hv]
  rfl

theorem utf8EncodeChar_ofNat (h : b.toNat < 128) : String.utf8EncodeChar (Char.ofNat b.toNat) = [b] := by
  have hval : (Char.ofNat b.toNat).val.toNat = b.toNat := toNat_ofNat_ascii h
  have hle : b.toNat ≤ 127 := by omega
  simp only [String.utf8EncodeChar, hval, if_pos hle, UInt8.ofNat_toNat]

theorem hexValue?_upperHexDigit (h : n < 16) : Json.hexValue? (upperHexDigit n) = some n := by
  have hall : ∀ n < 16, Json.hexValue? (upperHexDigit n) = some n := by decide
  exact hall n h

theorem upperHexDigit_ne (h : n < 16) : upperHexDigit n ≠ '&' ∧ upperHexDigit n ≠ '=' := by
  have hall : ∀ n < 16, upperHexDigit n ≠ '&' ∧ upperHexDigit n ≠ '=' := by decide
  exact hall n h

/-- The signs that a query is written with. -/
def formSigns : List Char := ['%', '+', '&', '=']

/-- A byte that stands for itself is an ASCII character and none of the signs. -/
theorem ofNat_of_isFormPlain (h : isFormPlain b = true) :
    b.toNat < 128 ∧ ∀ c ∈ formSigns, Char.ofNat b.toNat ≠ c := by
  simp only [isFormPlain, Bool.or_eq_true, Bool.and_eq_true, decide_eq_true_eq, beq_iff_eq,
    UInt8.le_iff_toNat_le, ← UInt8.toNat_inj] at h
  simp only [UInt8.reduceToNat] at h
  have hn : (Char.ofNat b.toNat).toNat = b.toNat := toNat_ofNat_ascii (by omega)
  constructor
  · omega
  · intro c hc he
    rw [he] at hn
    simp only [formSigns, List.mem_cons, List.not_mem_nil, or_false] at hc
    rcases hc with rfl | rfl | rfl | rfl <;> simp only [Char.reduceToNat] at hn <;> omega

/-- No byte is written with a separator. -/
theorem ne_of_mem_formByte {c : Char} (hc : c ∈ formByte b) : c ≠ '&' ∧ c ≠ '=' := by
  have hb : b.toNat < 256 := b.toNat_lt
  simp only [formByte] at hc
  split at hc
  · next hplain =>
    obtain ⟨-, hsigns⟩ := ofNat_of_isFormPlain hplain
    obtain rfl := List.mem_singleton.1 hc
    exact ⟨hsigns '&' (by decide), hsigns '=' (by decide)⟩
  · split at hc
    · obtain rfl := List.mem_singleton.1 hc
      decide
    · simp only [List.mem_cons, List.not_mem_nil, or_false] at hc
      rcases hc with rfl | rfl | rfl
      · decide
      · exact upperHexDigit_ne (by omega)
      · exact upperHexDigit_ne (by omega)

theorem formUnescape_cons_of_ne {c : Char} {rest : List Char} (hplus : c ≠ '+') (hpercent : c ≠ '%') :
    formUnescape (c :: rest) = String.utf8EncodeChar c ++ formUnescape rest :=
  formUnescape.eq_4 c rest hplus (fun _ _ _ h _ => hpercent h)

/-- What a byte is written as spells that byte, whatever stands behind. -/
theorem formUnescape_formByte (b : UInt8) (rest : List Char) :
    formUnescape (formByte b ++ rest) = b :: formUnescape rest := by
  have hb : b.toNat < 256 := b.toNat_lt
  simp only [formByte]
  split
  · next hplain =>
    obtain ⟨hascii, hsigns⟩ := ofNat_of_isFormPlain hplain
    rw [List.singleton_append, formUnescape_cons_of_ne (hsigns '+' (by decide)) (hsigns '%' (by decide)),
      utf8EncodeChar_ofNat hascii, List.singleton_append]
  · split
    · next hspace => simp [formUnescape, hspace]
    · have hhigh := hexValue?_upperHexDigit (n := b.toNat / 16) (by omega)
      have hlow := hexValue?_upperHexDigit (n := b.toNat % 16) (by omega)
      have hvalue : 16 * (b.toNat / 16) + b.toNat % 16 = b.toNat := by omega
      simp [formUnescape, hhigh, hlow, hvalue]

theorem formUnescape_formBytes (bs : List UInt8) : formUnescape (formBytes bs) = bs := by
  induction bs with
  | nil => rfl
  | cons b rest ih =>
    rw [formBytes, List.flatMap_cons, formUnescape_formByte]
    exact congrArg (b :: ·) ih

/-! Texts and their bytes -/

theorem toList_loop (bytes : ByteArray) (i : Nat) (acc : List UInt8) :
    ByteArray.toList.loop bytes i acc = acc.reverse ++ bytes.data.toList.drop i := by
  induction i, acc using ByteArray.toList.loop.induct bytes with
  | case1 i acc hlt ih =>
    have hi : i < bytes.data.toList.length := by simpa using hlt
    have hget : bytes.get! i = bytes.data.toList[i] := by
      simp only [ByteArray.get!, Array.getElem_toList]
      exact getElem!_pos bytes.data i (by simpa using hlt)
    rw [ByteArray.toList.loop, if_pos hlt, ih, List.drop_eq_getElem_cons hi, hget]
    simp
  | case2 i acc hge =>
    have hend : bytes.data.toList.length ≤ i := by simpa using hge
    rw [ByteArray.toList.loop, if_neg hge, List.drop_eq_nil_of_le hend, List.append_nil]

theorem toByteArray_toList (bytes : ByteArray) : bytes.toList.toByteArray = bytes := by
  have hlist : bytes.toList = bytes.data.toList := toList_loop bytes 0 []
  apply ByteArray.ext
  rw [List.data_toByteArray, hlist, Array.toArray_toList]

theorem fromUTF8?_toUTF8 (s : String) : String.fromUTF8? s.toUTF8 = some s := by
  rw [String.fromUTF8?, String.toUTF8_eq_toByteArray, dif_pos s.isValidUTF8]
  rfl

theorem formText?_formText (s : String) : formText? (formText s).toList = some s := by
  rw [formText?, formText, String.toList_ofList, formUnescape_formBytes, toByteArray_toList, fromUTF8?_toUTF8]

theorem ne_of_mem_formText {c : Char} (hc : c ∈ (formText s).toList) : c ≠ '&' ∧ c ≠ '=' := by
  rw [formText, String.toList_ofList, formBytes] at hc
  obtain ⟨b, -, hc⟩ := List.mem_flatMap.1 hc
  exact ne_of_mem_formByte hc

/-! Pairs and queries -/

theorem toList_formPair (p : String × String) :
    (formPair p).toList = (formText p.1).toList ++ '=' :: (formText p.2).toList := by
  simp [formPair]

theorem formPair?_formPair (p : String × String) : formPair? (formPair p).toList = some p := by
  have hname : '=' ∉ (formText p.1).toList := fun h => (ne_of_mem_formText h).2 rfl
  simp [formPair?, toList_formPair, cut_append hname, formText?_formText]

theorem not_mem_formPair (p : String × String) : '&' ∉ (formPair p).toList := by
  intro h
  rw [toList_formPair] at h
  rcases List.mem_append.1 h with h | h
  · exact (ne_of_mem_formText h).1 rfl
  · rcases List.mem_cons.1 h with h | h
    · exact absurd h (by decide)
    · exact (ne_of_mem_formText h).1 rfl

/-- The query falls into the parts that it was joined from. -/
theorem pieces_formQuery {pairs : List (String × String)} (hne : pairs ≠ []) :
    pieces '&' (formQuery pairs).toList = pairs.map (fun p => (formPair p).toList) := by
  have hparts : ∀ part ∈ pairs.map formPair, '&' ∉ part.toList := by
    intro part hpart
    obtain ⟨p, -, rfl⟩ := List.mem_map.1 hpart
    exact not_mem_formPair p
  have hsplit : split '&' (formQuery pairs) = pairs.map formPair := split_join (by simpa using hne) hparts
  have hlists := congrArg (List.map String.toList) hsplit
  simpa [split, Function.comp_def] using hlists

/-- Writing pairs as a query loses nothing. -/
theorem formPairs?_formQuery (pairs : List (String × String)) : formPairs? (formQuery pairs) = some pairs := by
  rcases List.eq_nil_or_concat pairs with rfl | ⟨_, _, hpairs⟩
  · rfl
  · have hne : pairs ≠ [] := by simp [hpairs]
    have hfull : ∀ part ∈ pairs.map (fun p => (formPair p).toList), (!part.isEmpty) = true := by
      intro part hpart
      obtain ⟨p, -, rfl⟩ := List.mem_map.1 hpart
      simp [toList_formPair]
    rw [formPairs?, pieces_formQuery hne, List.filter_eq_self.2 hfull, mapM_eq_some_iff, List.map_map]
    exact List.map_congr_left (fun p _ => formPair?_formPair p)

example : formPairs? "n=3&q=a%26b%3Dc%3F" = some [("n", "3"), ("q", "a&b=c?")] := by rfl

end MessageFlow.Text

namespace MessageFlow
variable {binding : String} {params other : Dict Json}

theorem isEmpty_iff_parameterPairs : params.isEmpty = true ↔ parameterPairs params = [] := by
  simp [Dict.isEmpty, parameterPairs, Dict.toList]

theorem parameterPairs_eq_iff :
    parameterPairs params = parameterPairs other ↔ params.map parameterText = other.map parameterText := by
  rw [Dict.ext_iff]
  rfl

/-- An address with parameters is longer than its binding. -/
theorem renderUri_ne_binding (h : ¬ params.isEmpty = true) : renderUri binding params .percent ≠ binding := by
  intro he
  have hlength := congrArg String.length he
  rw [renderUri, if_neg h, String.length_append, String.length_append] at hlength
  split at hlength
  · have : "&".length = 1 := rfl
    omega
  · have : "?".length = 1 := rfl
    omega

theorem renderUri_percent_eq_iff : renderUri binding params .percent = renderUri binding other .percent ↔
    parameterPairs params = parameterPairs other := by
  constructor
  · intro h
    by_cases hempty : params.isEmpty = true
    · have hother : other.isEmpty = true := by
        apply Decidable.byContradiction
        intro hne
        exact renderUri_ne_binding hne (h.symm.trans (if_pos hempty))
      rw [isEmpty_iff_parameterPairs.1 hempty, isEmpty_iff_parameterPairs.1 hother]
    · have hother : ¬ other.isEmpty = true := by
        intro hother
        exact renderUri_ne_binding hempty (h.trans (if_pos hother))
      rw [renderUri, renderUri, if_neg hempty, if_neg hother] at h
      have hquery : queryText params .percent = queryText other .percent := (String.append_right_inj _).1 h
      have hread := congrArg Text.formPairs? hquery
      simpa only [queryText, Text.formPairs?_formQuery, Option.some.injEq] using hread
  · intro h
    have hempty : params.isEmpty = other.isEmpty := by
      rw [Bool.eq_iff_iff, isEmpty_iff_parameterPairs, isEmpty_iff_parameterPairs, h]
    simp only [renderUri, queryText, hempty, h]

/-- An address in the percent encoding is the binding, and behind it a query that reads back as the texts of the
parameters in the order of their names, however these are made up of the signs that a query is written with.
So addresses on one binding are equal only where the parameters have the same texts. -/
theorem renderUri_percent (binding : String) (params : Dict Json) :
    (∃ query, Text.formPairs? query = some (params.toList.map (fun p => (p.1, parameterText p.2))) ∧
      renderUri binding params .percent = if params.isEmpty then binding
        else binding ++ (if '?' ∈ binding.toList then "&" else "?") ++ query) ∧
    ∀ other : Dict Json, renderUri binding params .percent = renderUri binding other .percent ↔
      params.map parameterText = other.map parameterText :=
  ⟨⟨queryText params .percent, Text.formPairs?_formQuery (parameterPairs params), rfl⟩,
    fun _ => renderUri_percent_eq_iff.trans parameterPairs_eq_iff⟩

end MessageFlow
