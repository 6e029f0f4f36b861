import Odirag.Foundations.Netloc
import Mathlib.Data.Char
import Mathlib.Data.List.Lex

/-!
# Reading a query that was written

`urlencode` writes a list of pairs so that `parse_qsl` reads the same pairs (`parseQsl_urlencode`).
The codec is a parameter: decoding has to give back what was encoded. Pairs that are in order stay in
order when they are sorted again (`sortPairs_filter_sortPairs`).
-/

namespace Odirag.Url

/-- Decoding gives back a text that was encoded. -/
def DecodesUtf8 (U : Tools) : Prop := ∀ t : Text, U.decodeUtf8 (t.flatMap String.utf8EncodeChar) = t

/-! ## Characters -/

/-- The characters that are written as they are. -/
def isUnreserved (c : Char) : Bool :=
  isAsciiAlpha c || isAsciiDigit c || c == '_' || c == '.' || c == '-' || c == '~'

/-- What is written for a character. -/
def quoteChar (c : Char) : Text :=
  if c = ' ' then ['+']
  else if isUnreserved c then [c]
  else (String.utf8EncodeChar c).flatMap percent

theorem quotePlus_eq (text : Text) : quotePlus text = text.flatMap quoteChar := rfl

theorem isUnreserved_bounds {c : Char} (h : isUnreserved c = true) :
    45 ≤ c.toNat ∧ c.toNat < 128 := by
  simp only [isUnreserved, Bool.or_eq_true, beq_iff_eq] at h
  rcases h with (((((halpha | hdigit) | rfl) | rfl) | rfl) | rfl)
  · have hbounds := isAsciiAlpha_bounds halpha
    omega
  · have hbounds := isAsciiDigit_bounds hdigit
    omega
  all_goals decide

theorem isUnreserved_lt {c : Char} (h : isUnreserved c = true) : c.toNat < 128 :=
  (isUnreserved_bounds h).2

theorem utf8EncodeChar_ascii {c : Char} (h : c.toNat < 128) :
    String.utf8EncodeChar c = [UInt8.ofNat c.toNat] := by
  have hsize : c.utf8Size = 1 := by
    rw [Char.utf8Size_eq_one_iff, UInt32.le_iff_toNat_le]
    have h127 : (127 : UInt32).toNat = 127 := rfl
    simp only [Char.toNat] at h
    omega
  rw [String.utf8EncodeChar_eq_singleton hsize]
  rfl

theorem hexValue_hexDigit : ∀ n < 16, hexValue (hexDigit n) = some n := by
  decide

/-- The escape of a byte is read as this byte. -/
theorem unquoteToBytes_percent (b : UInt8) (rest : Text) :
    unquoteToBytes (percent b ++ rest) = b :: unquoteToBytes rest := by
  have hb : b.toNat < 256 := b.toNat_lt
  have hhigh := hexValue_hexDigit (b.toNat / 16) (by omega)
  have hlow := hexValue_hexDigit (b.toNat % 16) (by omega)
  have hvalue : 16 * (b.toNat / 16) + b.toNat % 16 = b.toNat := by omega
  simp [percent, unquoteToBytes, hhigh, hlow, hvalue]

theorem unquoteToBytes_cons {c : Char} (h : c ≠ '%') (rest : Text) :
    unquoteToBytes (c :: rest) = UInt8.ofNat c.toNat :: unquoteToBytes rest := by
  simp [unquoteToBytes, h]

/-- What is written for a plus sign in a query is a space. -/
def plusToSpace (c : Char) : Char := if c = '+' then ' ' else c

theorem map_plusToSpace_percent (b : UInt8) : (percent b).map plusToSpace = percent b := by
  have hdigit : ∀ n < 16, plusToSpace (hexDigit n) = hexDigit n := by decide
  have hb : b.toNat < 256 := b.toNat_lt
  simp [percent, hdigit (b.toNat / 16) (by omega), hdigit (b.toNat % 16) (by omega)]
  decide

/-- What is written for a character is read as its bytes. -/
theorem unquoteToBytes_quoteChar (c : Char) (rest : Text) :
    unquoteToBytes ((quoteChar c).map plusToSpace ++ rest) =
      String.utf8EncodeChar c ++ unquoteToBytes rest := by
  unfold quoteChar
  split_ifs with hspace hplain
  · subst hspace
    have hbytes : String.utf8EncodeChar ' ' = [32] := utf8EncodeChar_ascii (by decide)
    have hread : unquoteToBytes (' ' :: rest) = 32 :: unquoteToBytes rest :=
      unquoteToBytes_cons (by decide) rest
    rw [hbytes]
    exact hread
  · have hplus : plusToSpace c = c := by
      refine if_neg ?_
      rintro rfl
      revert hplain
      decide
    have hpercent : c ≠ '%' := by
      rintro rfl
      revert hplain
      decide
    rw [utf8EncodeChar_ascii (isUnreserved_lt hplain)]
    simp [hplus, unquoteToBytes_cons hpercent]
  · induction String.utf8EncodeChar c with
    | nil => rfl
    | cons b bytes ih =>
        rw [List.flatMap_cons, List.map_append, map_plusToSpace_percent, List.append_assoc,
          unquoteToBytes_percent, ih]
        rfl

theorem unquoteToBytes_quotePlus (text : Text) :
    unquoteToBytes ((quotePlus text).map plusToSpace) = text.flatMap String.utf8EncodeChar := by
  induction text with
  | nil => rfl
  | cons c text ih =>
      rw [quotePlus_eq] at ih ⊢
      rw [List.flatMap_cons, List.map_append, unquoteToBytes_quoteChar, ih, List.flatMap_cons]

/-! ## Texts -/

theorem mem_percent {b : UInt8} {c : Char} (h : c ∈ percent b) :
    c = '%' ∨ isUnreserved c = true := by
  have hdigit : ∀ n < 16, isUnreserved (hexDigit n) = true := by decide
  have hb : b.toNat < 256 := b.toNat_lt
  simp only [percent, List.mem_cons, List.not_mem_nil, or_false] at h
  rcases h with rfl | rfl | rfl
  · exact .inl rfl
  · exact .inr (hdigit _ (by omega))
  · exact .inr (hdigit _ (by omega))

/-- What is written for a text: unreserved characters, plus signs and escapes. -/
theorem mem_quotePlus {text : Text} {c : Char} (h : c ∈ quotePlus text) :
    c = '+' ∨ c = '%' ∨ isUnreserved c = true := by
  rw [quotePlus_eq] at h
  obtain ⟨d, -, hd⟩ := List.mem_flatMap.mp h
  unfold quoteChar at hd
  split_ifs at hd with hspace hplain
  · exact .inl (List.mem_singleton.mp hd)
  · rw [List.mem_singleton.mp hd]
    exact .inr (.inr hplain)
  · obtain ⟨b, -, hb⟩ := List.mem_flatMap.mp hd
    exact .inr (mem_percent hb)

theorem unquoteToBytes_ascii {text : Text} (h : ∀ c ∈ text, c.toNat < 128) (hnone : '%' ∉ text) :
    unquoteToBytes text = text.flatMap String.utf8EncodeChar := by
  induction text with
  | nil => rfl
  | cons c text ih =>
      rw [unquoteToBytes_cons (fun hc => hnone (hc ▸ List.mem_cons_self)),
        ih (fun d hd => h d (List.mem_cons_of_mem _ hd))
          (fun hd => hnone (List.mem_cons_of_mem _ hd)),
        List.flatMap_cons, utf8EncodeChar_ascii (h c List.mem_cons_self)]
      rfl

theorem unquoteFrom_ascii (U : Tools) {run text : Text} (h : ∀ c ∈ text, c.toNat < 128) :
    unquoteFrom U run text = unquoteRun U (run ++ text) := by
  induction text generalizing run with
  | nil => simp [unquoteFrom]
  | cons c text ih =>
      rw [unquoteFrom, if_pos (h c List.mem_cons_self),
        ih fun d hd => h d (List.mem_cons_of_mem _ hd)]
      simp

/-- Reading an ASCII text decodes its bytes. -/
theorem unquote_ascii {U : Tools} (hU : DecodesUtf8 U) {text : Text}
    (h : ∀ c ∈ text, c.toNat < 128) : unquote U text = U.decodeUtf8 (unquoteToBytes text) := by
  unfold unquote
  split_ifs with hpercent
  · rw [unquoteFrom_ascii U h, List.nil_append, unquoteRun, if_neg]
    rintro rfl
    simp at hpercent
  · rw [unquoteToBytes_ascii h (by simpa using hpercent), hU]

/-- A text that is written as a form value is read back. -/
theorem unquotePlus_quotePlus {U : Tools} (hU : DecodesUtf8 U) (text : Text) :
    unquotePlus U (quotePlus text) = text := by
  have hascii : ∀ c ∈ (quotePlus text).map plusToSpace, c.toNat < 128 := by
    intro c hc
    obtain ⟨d, hd, rfl⟩ := List.mem_map.mp hc
    unfold plusToSpace
    split_ifs with hplus
    · decide
    · rcases mem_quotePlus hd with rfl | rfl | hplain
      · decide
      · decide
      · exact isUnreserved_lt hplain
  calc unquotePlus U (quotePlus text) = unquote U ((quotePlus text).map plusToSpace) := rfl
    _ = U.decodeUtf8 (unquoteToBytes ((quotePlus text).map plusToSpace)) := unquote_ascii hU hascii
    _ = text := by rw [unquoteToBytes_quotePlus, hU]

/-! ## Pairs -/

/-- A pair as it stands in a query. -/
def writePair (p : Text × Text) : Text := quotePlus p.1 ++ '=' :: quotePlus p.2

theorem urlencode_eq (pairs : List (Text × Text)) :
    urlencode pairs = List.intercalate ['&'] (pairs.map writePair) := rfl

theorem not_mem_quotePlus {text : Text} {c : Char} (hplus : c ≠ '+') (hpercent : c ≠ '%')
    (hplain : isUnreserved c = false) : c ∉ quotePlus text := by
  intro h
  rcases mem_quotePlus h with rfl | rfl | hc
  · exact hplus rfl
  · exact hpercent rfl
  · rw [hplain] at hc
    cases hc

theorem not_mem_writePair (p : Text × Text) : '&' ∉ writePair p := by
  have hpart : ∀ text, '&' ∉ quotePlus text := fun text =>
    not_mem_quotePlus (by decide) (by decide) (by decide)
  simp [writePair, hpart]

/-- A pair that is written is read back. -/
theorem readPair_writePair {U : Tools} (hU : DecodesUtf8 U) (p : Text × Text) :
    (unquotePlus U (partition '=' (writePair p)).1,
      unquotePlus U ((partition '=' (writePair p)).2.getD [])) = p := by
  have hname : '=' ∉ quotePlus p.1 := not_mem_quotePlus (by decide) (by decide) (by decide)
  rw [writePair, partition_append hname]
  simp [unquotePlus_quotePlus hU]

/-- A query that is written is read back. -/
theorem parseQsl_urlencode {U : Tools} (hU : DecodesUtf8 U) (pairs : List (Text × Text)) :
    parseQsl U (urlencode pairs) = pairs := by
  have hread : ∀ ps : List (Text × Text), (ps.map writePair).filterMap (fun part =>
      if part = [] then none
      else some (unquotePlus U (partition '=' part).1,
        unquotePlus U ((partition '=' part).2.getD []))) = ps := by
    intro ps
    induction ps with
    | nil => rfl
    | cons p ps ih =>
        have hne : writePair p ≠ [] := by simp [writePair]
        rw [List.map_cons, List.filterMap_cons, if_neg hne, readPair_writePair hU, ih]
  rw [parseQsl, urlencode_eq]
  cases pairs with
  | nil => rfl
  | cons p ps =>
      rw [List.splitOn_intercalate '&' _ (by simp)]
      · exact hread (p :: ps)
      · intro part hpart
        obtain ⟨q, -, rfl⟩ := List.mem_map.mp hpart
        exact not_mem_writePair q

/-- What a query is written with. -/
def isQueryChar (c : Char) : Bool :=
  isUnreserved c || c == '+' || c == '%' || c == '=' || c == '&'

/-- A query is written with visible ASCII characters. -/
theorem isQueryChar_bounds {c : Char} (h : isQueryChar c = true) :
    36 ≤ c.toNat ∧ c.toNat < 128 := by
  simp only [isQueryChar, Bool.or_eq_true, beq_iff_eq] at h
  rcases h with (((h | rfl) | rfl) | rfl) | rfl
  · obtain ⟨hlow, hhigh⟩ := isUnreserved_bounds h
    exact ⟨by omega, hhigh⟩
  all_goals decide

theorem isQueryChar_of_mem_writePair {p : Text × Text} {c : Char} (h : c ∈ writePair p) :
    isQueryChar c = true := by
  have hpart : ∀ text, c ∈ quotePlus text → isQueryChar c = true := by
    intro text hc
    rcases mem_quotePlus hc with rfl | rfl | hplain
    · decide
    · decide
    · simp [isQueryChar, hplain]
  simp only [writePair, List.mem_append, List.mem_cons] at h
  rcases h with h | rfl | h
  · exact hpart _ h
  · decide
  · exact hpart _ h

theorem isQueryChar_of_mem_urlencode {pairs : List (Text × Text)} {c : Char}
    (h : c ∈ urlencode pairs) : isQueryChar c = true := by
  rw [urlencode_eq] at h
  induction pairs with
  | nil => cases h
  | cons p ps ih =>
      cases ps with
      | nil => exact isQueryChar_of_mem_writePair (by simpa using h)
      | cons q ps =>
          rw [List.map_cons, List.map_cons, List.intercalate_cons_cons, List.append_assoc,
            List.mem_append] at h
          rcases h with h | h
          · exact isQueryChar_of_mem_writePair h
          · rcases List.mem_append.mp h with h | h
            · obtain rfl : c = '&' := by simpa using h
              decide
            · exact ih h

/-- Nothing is written exactly for no pairs. -/
theorem urlencode_eq_nil {pairs : List (Text × Text)} : urlencode pairs = [] ↔ pairs = [] := by
  cases pairs with
  | nil => simp [urlencode, List.intercalate]
  | cons p ps =>
      have hne : writePair p ≠ [] := by simp [writePair]
      cases ps with
      | nil => simp [urlencode_eq, hne]
      | cons q ps => simp [urlencode_eq, List.intercalate_cons_cons, hne]

/-- Different pairs are written differently. -/
theorem urlencode_inj {U : Tools} (hU : DecodesUtf8 U) {pairs pairs' : List (Text × Text)} :
    urlencode pairs = urlencode pairs' ↔ pairs = pairs' := by
  refine ⟨fun h => ?_, fun h => h ▸ rfl⟩
  rw [← parseQsl_urlencode hU pairs, h, parseQsl_urlencode hU pairs']

/-! ## The order of pairs -/

theorem leText_iff {s t : Text} : leText s t = true ↔ s ≤ t := by
  rw [← not_lt]
  induction s generalizing t with
  | nil => simp [leText]
  | cons a s ih =>
      cases t with
      | nil => simp [leText]
      | cons b t =>
          rw [leText, List.cons_lt_cons_iff]
          split_ifs with h
          · simp [h, ih]
          · simp [h, Ne.symm h, lt_iff_le_and_ne]

theorem lePair_iff {x y : Text × Text} :
    lePair x y = true ↔ x.1 < y.1 ∨ x.1 = y.1 ∧ x.2 ≤ y.2 := by
  unfold lePair
  split_ifs with h
  · simp [h, leText_iff]
  · simp [h, leText_iff, lt_iff_le_and_ne]

instance : Std.Total fun x y => lePair x y = true where
  total x y := by
    rw [lePair_iff, lePair_iff]
    rcases lt_trichotomy x.1 y.1 with h | h | h
    · exact .inl (.inl h)
    · rcases le_total x.2 y.2 with h' | h'
      · exact .inl (.inr ⟨h, h'⟩)
      · exact .inr (.inr ⟨h.symm, h'⟩)
    · exact .inr (.inl h)

instance : IsTrans (Text × Text) fun x y => lePair x y = true where
  trans x y z hxy hyz := by
    rw [lePair_iff] at *
    rcases hxy with hxy | ⟨hxy, hxy'⟩
    · rcases hyz with hyz | ⟨hyz, -⟩
      · exact .inl (hxy.trans hyz)
      · exact .inl (hyz ▸ hxy)
    · rw [hxy]
      rcases hyz with hyz | ⟨hyz, hyz'⟩
      · exact .inl hyz
      · exact .inr ⟨hyz, hxy'.trans hyz'⟩

/-- Taking pairs out and sorting the others changes nothing exactly if none is taken out and they are
in order. -/
theorem sortPairs_filter_eq_self {p : Text × Text → Bool} {pairs : List (Text × Text)} :
    sortPairs (pairs.filter p) = pairs ↔
      (∀ q ∈ pairs, p q = true) ∧ pairs.Pairwise fun x y => lePair x y = true := by
  constructor
  · intro h
    constructor
    · intro q hq
      rw [← h] at hq
      exact (List.mem_filter.mp ((List.mem_insertionSort _).mp hq)).2
    · rw [← h]
      exact List.pairwise_insertionSort _ _
  · rintro ⟨hkept, hsorted⟩
    rw [List.filter_eq_self.mpr hkept]
    exact hsorted.insertionSort_eq

/-- Sorting again changes nothing, whatever is taken out before. -/
theorem sortPairs_filter_sortPairs (p : Text × Text → Bool) (pairs : List (Text × Text)) :
    sortPairs ((sortPairs (pairs.filter p)).filter p) = sortPairs (pairs.filter p) :=
  sortPairs_filter_eq_self.mpr ⟨fun _ hq => (List.mem_filter.mp ((List.mem_insertionSort _).mp hq)).2,
    List.pairwise_insertionSort _ _⟩

end Odirag.Url
