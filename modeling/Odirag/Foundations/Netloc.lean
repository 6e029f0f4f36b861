import Odirag.Foundations.Url

/-!
# The netloc of a URL that was put together

Splitting a text that was written with a scheme and a netloc gives these two back, whatever follows
them (`urlsplit_located`). So a URL can be rewritten behind its netloc, and its host stays
(`urlsplit_urlunsplit`).
-/

namespace Odirag.Url

/-! ## Code points -/

theorem isAsciiUpper_bounds {c : Char} (h : ('A' ≤ c && c ≤ 'Z') = true) :
    65 ≤ c.toNat ∧ c.toNat ≤ 90 := by
  simp only [Bool.and_eq_true, decide_eq_true_eq] at h
  exact h

theorem isAsciiDigit_bounds {c : Char} (h : isAsciiDigit c = true) :
    48 ≤ c.toNat ∧ c.toNat ≤ 57 := by
  simp only [isAsciiDigit, Bool.and_eq_true, decide_eq_true_eq] at h
  exact h

theorem isAsciiAlpha_bounds {c : Char} (h : isAsciiAlpha c = true) :
    65 ≤ c.toNat ∧ c.toNat ≤ 90 ∨ 97 ≤ c.toNat ∧ c.toNat ≤ 122 := by
  rcases (Bool.or_eq_true _ _).mp h with hlower | hupper
  · simp only [Bool.and_eq_true, decide_eq_true_eq] at hlower
    exact .inr hlower
  · exact .inl (isAsciiUpper_bounds hupper)

/-! ## Separators -/

section Partition

variable {c d : Char} {text before after : Text}

theorem all_ne_of_not_mem (h : c ∉ text) : ∀ d ∈ text, (d != c) = true := by
  intro d hd
  rw [bne_iff_ne]
  rintro rfl
  exact h hd

theorem partition_append (h : c ∉ before) :
    partition c (before ++ c :: after) = (before, some after) := by
  simp [partition, List.takeWhile_append_of_pos (all_ne_of_not_mem h),
    List.dropWhile_append_of_pos (all_ne_of_not_mem h)]

theorem partition_of_not_mem (h : c ∉ text) : partition c text = (text, none) := by
  simp [partition, List.takeWhile_eq_self_iff.mpr (all_ne_of_not_mem h),
    List.dropWhile_eq_nil_iff.mpr (all_ne_of_not_mem h)]

theorem not_mem_partition_fst (c : Char) (text : Text) : c ∉ (partition c text).1 := by
  intro h
  simpa using List.mem_takeWhile_imp h

theorem mem_of_mem_partition_fst (h : d ∈ (partition c text).1) : d ∈ text :=
  List.takeWhile_subset _ h

theorem head?_partition_fst (h : d ∈ (partition c text).1.head?) : d ∈ text.head? ∧ d ≠ c := by
  cases text with
  | nil => simp [partition] at h
  | cons e text =>
      by_cases he : e = c
      · simp [partition, he] at h
      · have hd : e = d := by simpa [partition, List.takeWhile_cons, he] using h
        exact ⟨by simp [hd], hd ▸ he⟩

/-- A text with a separator is what stands before it, the separator and what stands after it. -/
theorem eq_of_partition (h : partition c text = (before, some after)) :
    text = before ++ c :: after := by
  have hsplit := List.takeWhile_append_dropWhile (p := (· != c)) (l := text)
  obtain ⟨rfl, htail⟩ := Prod.mk.inj h
  cases hdrop : text.dropWhile (· != c) with
  | nil => simp [hdrop] at htail
  | cons d rest =>
      have hd : d = c := by
        have hhead := List.head?_dropWhile_not (· != c) text
        simpa [hdrop] using hhead
      have hrest : rest = after := by simpa [hdrop] using htail
      rw [hdrop, hd, hrest] at hsplit
      exact hsplit.symm

theorem partition_of_mem (h : c ∈ text) : ∃ before after, partition c text = (before, some after) := by
  have hdrop : text.dropWhile (· != c) ≠ [] := by
    rw [Ne, List.dropWhile_eq_nil_iff]
    exact fun hall => by simpa using hall c h
  obtain ⟨d, rest, heq⟩ := List.exists_cons_of_ne_nil hdrop
  exact ⟨text.takeWhile (· != c), rest, by simp [partition, heq]⟩

theorem rpartition_of_not_mem (h : c ∉ text) : rpartition c text = (none, text) := by
  simp [rpartition, partition_of_not_mem (mt List.mem_reverse.mp h)]

/-- A text in front of which nothing is cut off does not have the separator. -/
theorem not_mem_of_rpartition (h : (rpartition c text).1 = none) : c ∉ text := by
  intro hmem
  obtain ⟨before, after, heq⟩ := partition_of_mem (List.mem_reverse.mpr hmem)
  simp [rpartition, heq] at h

end Partition

/-! ## Schemes and netlocs -/

/-- The characters of a scheme. -/
def isSchemeChar (c : Char) : Bool :=
  isAsciiAlpha c || isAsciiDigit c || c == '+' || c == '-' || c == '.'

/-- What splitting returns as a scheme: nothing, or a scheme in lower case. -/
def SchemeText (scheme : Text) : Prop :=
  scheme = [] ∨ scheme.head?.any isAsciiAlpha ∧ scheme.all isSchemeChar ∧
    scheme.map lowerAscii = scheme

instance (scheme : Text) : Decidable (SchemeText scheme) :=
  inferInstanceAs (Decidable (_ ∨ _ ∧ _ ∧ _))

/-- The characters that end a netloc. -/
def endsNetloc (c : Char) : Bool := c == '/' || c == '?' || c == '#'

/-- The characters that are taken out of a URL. -/
def isLineControl (c : Char) : Bool := c == '\t' || c == '\r' || c == '\n'

/-- What splitting returns as a netloc. -/
def NetlocText (netloc : Text) : Prop :=
  ∀ c ∈ netloc, endsNetloc c = false ∧ isLineControl c = false

/-- The checks that a netloc passes. -/
def accepts (U : Tools) (netloc : Text) : Bool :=
  netloc.any (· == '[') == netloc.any (· == ']') &&
    (!netloc.any (· == '[') || U.bracketedNetloc netloc) && checkNetloc U netloc

/-- A scheme, a netloc and what follows it. -/
def located (scheme netloc rest : Text) : Text :=
  (if scheme = [] then [] else scheme ++ [':']) ++ '/' :: '/' :: (netloc ++ rest)

/-- Splitting looks at the netloc and cuts what follows it. -/
theorem urlsplit_eq (U : Tools) {url stripped rest netloc scheme last : Text}
    (hstripped : ((url.dropWhile fun c => c.toNat ≤ 0x20).filter fun c =>
      !(c == '\t' || c == '\r' || c == '\n')) = stripped)
    (hscheme : splitScheme stripped = (scheme, rest)) (hnetloc : splitNetloc rest = (netloc, last)) :
    urlsplit U url =
      if accepts U netloc then
        some ⟨scheme, netloc, (partition '?' (partition '#' last).1).1,
          ((partition '?' (partition '#' last).1).2).getD [], ((partition '#' last).2).getD []⟩
      else none := by
  have hchecks : ∀ (opens closes bracketed checked : Bool) (r : SplitResult),
      (if (opens != closes) = true then none
        else if (opens && !bracketed) = true then none
        else if checked = true then some r else none) =
      if (opens == closes && (!opens || bracketed) && checked) = true then some r else none := by
    intro opens closes bracketed checked r
    cases opens <;> cases closes <;> cases bracketed <;> rfl
  simp only [urlsplit, hstripped, hscheme, hnetloc]
  exact hchecks _ _ _ _ _

/-! ## Taking apart what was put together -/

theorem ne_colon_of_isSchemeChar {c : Char} (h : isSchemeChar c = true) : c ≠ ':' := by
  rintro rfl
  revert h
  decide

theorem not_isLineControl_of_isSchemeChar {c : Char} (h : isSchemeChar c = true) :
    isLineControl c = false := by
  rw [Bool.eq_false_iff]
  intro hc
  simp only [isLineControl, Bool.or_eq_true, beq_iff_eq] at hc
  rcases hc with (rfl | rfl) | rfl <;> revert h <;> decide

/-- The scheme in front of two slashes. -/
theorem splitScheme_located {scheme netloc rest : Text} (h : SchemeText scheme) :
    splitScheme (located scheme netloc rest) = (scheme, '/' :: '/' :: (netloc ++ rest)) := by
  rcases h with rfl | ⟨hhead, hall, hlower⟩
  · have hslash : ∀ before after, partition ':' ('/' :: '/' :: (netloc ++ rest)) = (before, after) →
        before.head?.any isAsciiAlpha = false := by
      rintro before after heq
      obtain ⟨rfl, -⟩ := Prod.mk.inj heq
      simp; decide
    simp only [located, if_true, List.nil_append, splitScheme]
    split
    · next before rest heq => simp [hslash _ _ heq]
    · rfl
  · have hne : scheme ≠ [] := by
      rintro rfl
      simp at hhead
    have hcolon : ':' ∉ scheme := fun hmem =>
      ne_colon_of_isSchemeChar (List.all_eq_true.mp hall _ hmem) rfl
    have hall' : scheme.all (fun c => isAsciiAlpha c || isAsciiDigit c || c == '+' || c == '-' ||
      c == '.') = true := hall
    simp [located, hne, splitScheme, partition_append hcolon, hhead, hall', hlower]

/-- The netloc behind two slashes. -/
theorem splitNetloc_slashes {netloc rest : Text} (hnetloc : NetlocText netloc)
    (hrest : ∀ c ∈ rest.head?, endsNetloc c = true) :
    splitNetloc ('/' :: '/' :: (netloc ++ rest)) = (netloc, rest) := by
  have hpos : ∀ c ∈ netloc, (!endsNetloc c) = true := fun c hc => by simp [(hnetloc c hc).1]
  change ((netloc ++ rest).takeWhile (fun c => !endsNetloc c),
    (netloc ++ rest).dropWhile (fun c => !endsNetloc c)) = _
  rw [List.takeWhile_append_of_pos hpos, List.dropWhile_append_of_pos hpos]
  cases rest with
  | nil => simp
  | cons c rest => simp [hrest c (by simp)]

/-- Nothing is cut off in front of a scheme and a netloc, and only what follows them is cleaned. -/
theorem clean_located {scheme netloc rest : Text} (hscheme : SchemeText scheme)
    (hnetloc : NetlocText netloc) :
    ((located scheme netloc rest).dropWhile fun c => c.toNat ≤ 0x20).filter
      (fun c => !(c == '\t' || c == '\r' || c == '\n')) =
        located scheme netloc (rest.filter fun c => !isLineControl c) := by
  change ((located scheme netloc rest).dropWhile fun c => c.toNat ≤ 0x20).filter
    (fun c => !isLineControl c) = _
  have hslash : isLineControl '/' = false := by decide
  have hcolon : isLineControl ':' = false := by decide
  have hkeep : netloc.filter (fun c => !isLineControl c) = netloc :=
    List.filter_eq_self.mpr fun c hc => by simp [(hnetloc c hc).2]
  rcases hscheme with rfl | ⟨hhead, hall, -⟩
  · simp [located, hslash, hkeep]
  · cases scheme with
    | nil => simp at hhead
    | cons c cs =>
        have halpha : isAsciiAlpha c = true := by simpa using hhead
        have hlow : ¬ c.toNat ≤ 0x20 := fun hle => by
          have hbounds := isAsciiAlpha_bounds halpha
          omega
        have hscheme : (c :: cs).filter (fun c => !isLineControl c) = c :: cs :=
          List.filter_eq_self.mpr fun d hd => by
            simp [not_isLineControl_of_isSchemeChar (List.all_eq_true.mp hall d hd)]
        have hloc : located (c :: cs) netloc rest =
            (c :: cs) ++ ':' :: '/' :: '/' :: (netloc ++ rest) := by
          simp [located]
        rw [hloc, List.cons_append, List.dropWhile_cons_of_neg (by simpa using hlow),
          ← List.cons_append, List.filter_append, hscheme]
        simp [located, hslash, hcolon, hkeep]

/-- Splitting finds the scheme and the netloc that a URL was written with. -/
theorem urlsplit_located (U : Tools) {scheme netloc rest : Text} (hscheme : SchemeText scheme)
    (hnetloc : NetlocText netloc) (hrest : ∀ c ∈ rest.head?, endsNetloc c = true) :
    ∃ path query fragment, urlsplit U (located scheme netloc rest) =
      if accepts U netloc then some ⟨scheme, netloc, path, query, fragment⟩ else none := by
  have hrest' : ∀ c ∈ (rest.filter fun c => !isLineControl c).head?, endsNetloc c = true := by
    cases rest with
    | nil => simp
    | cons c rest =>
        have hc : endsNetloc c = true := hrest c (by simp)
        have hkeep : isLineControl c = false := by
          rw [Bool.eq_false_iff]
          intro hcontrol
          simp only [isLineControl, Bool.or_eq_true, beq_iff_eq] at hcontrol
          rcases hcontrol with (rfl | rfl) | rfl <;> revert hc <;> decide
        simpa [hkeep] using hc
  exact ⟨_, _, _, urlsplit_eq U (clean_located hscheme hnetloc) (splitScheme_located hscheme)
    (splitNetloc_slashes hnetloc hrest')⟩

/-- What stands behind a path: nothing, or a question mark and the query. -/
def queryPart (query : Text) : Text := if query = [] then [] else '?' :: query

/-- The characters that are read as part of a path. -/
def isPathChar (c : Char) : Bool := !(c == '?' || c == '#' || isLineControl c)

/-- Splitting finds all parts that a URL was written with. -/
theorem urlsplit_path (U : Tools) {scheme netloc path query : Text} (hscheme : SchemeText scheme)
    (hnetloc : NetlocText netloc) (hslash : path.head? = some '/')
    (hpath : ∀ c ∈ path, isPathChar c = true)
    (hquery : ∀ c ∈ query, c ≠ '#' ∧ isLineControl c = false) :
    urlsplit U (located scheme netloc (path ++ queryPart query)) =
      if accepts U netloc then some ⟨scheme, netloc, path, query, []⟩ else none := by
  have hends : ∀ c ∈ (path ++ queryPart query).head?, endsNetloc c = true := by
    simp [List.head?_append, hslash, endsNetloc]
  have hsafe : ∀ c ∈ path, c ≠ '?' ∧ c ≠ '#' ∧ isLineControl c = false := by
    intro c hc
    simpa [isPathChar, and_assoc] using hpath c hc
  -- Nothing of the URL is dropped, and the marks that end its parts stand where they were written.
  have hkeep : (path ++ queryPart query).filter (fun c => !isLineControl c) =
      path ++ queryPart query := by
    refine List.filter_eq_self.mpr fun c hc => ?_
    rcases List.mem_append.mp hc with hc | hc
    · simp [(hsafe c hc).2.2]
    · unfold queryPart at hc
      split_ifs at hc
      · cases hc
      · rcases List.mem_cons.mp hc with rfl | hc
        · decide
        · simp [(hquery c hc).2]
  have hhash : '#' ∉ path ++ queryPart query := by
    rw [List.mem_append]
    rintro (hc | hc)
    · exact (hsafe _ hc).2.1 rfl
    · unfold queryPart at hc
      split_ifs at hc
      · cases hc
      · rcases List.mem_cons.mp hc with heq | hc
        · cases heq
        · exact (hquery _ hc).1 rfl
  have hmark : '?' ∉ path := fun hc => (hsafe _ hc).1 rfl
  rw [urlsplit_eq U (clean_located hscheme hnetloc) (splitScheme_located hscheme)
    (splitNetloc_slashes hnetloc (by rwa [hkeep])), hkeep, partition_of_not_mem hhash]
  by_cases hempty : query = []
  · simp [queryPart, hempty, partition_of_not_mem hmark]
  · simp [queryPart, hempty, partition_append hmark]

/-! ## What splitting returns -/

/-- A letter in upper case becomes one in lower case, and nothing else changes. -/
theorem lowerAscii_cases (c : Char) :
    lowerAscii c = c ∨
      isAsciiAlpha (lowerAscii c) = true ∧ lowerAscii (lowerAscii c) = lowerAscii c := by
  have hletters : ∀ n < 91, 65 ≤ n → isAsciiAlpha (Char.ofNat (n + 32)) = true ∧
      lowerAscii (Char.ofNat (n + 32)) = Char.ofNat (n + 32) := by
    decide
  by_cases h : ('A' ≤ c && c ≤ 'Z') = true
  · have hlower : lowerAscii c = Char.ofNat (c.toNat + 32) := if_pos h
    obtain ⟨hlow, hhigh⟩ := isAsciiUpper_bounds h
    rw [hlower]
    exact .inr (hletters c.toNat (by omega) hlow)
  · exact .inl (if_neg h)

theorem isAsciiAlpha_lowerAscii {c : Char} (h : isAsciiAlpha c = true) :
    isAsciiAlpha (lowerAscii c) = true := by
  rcases lowerAscii_cases c with hsame | ⟨halpha, -⟩
  · rwa [hsame]
  · exact halpha

theorem isSchemeChar_lowerAscii {c : Char} (h : isSchemeChar c = true) :
    isSchemeChar (lowerAscii c) = true := by
  rcases lowerAscii_cases c with hsame | ⟨halpha, -⟩
  · rwa [hsame]
  · simp [isSchemeChar, halpha]

theorem lowerAscii_lowerAscii (c : Char) : lowerAscii (lowerAscii c) = lowerAscii c := by
  rcases lowerAscii_cases c with hsame | ⟨-, hidem⟩
  · rw [hsame, hsame]
  · exact hidem

theorem schemeText_splitScheme (url : Text) : SchemeText (splitScheme url).1 := by
  unfold splitScheme
  split
  · next before rest heq =>
      split_ifs with h
      · obtain ⟨hhead, hall⟩ := Bool.and_eq_true_iff.mp h
        refine .inr ⟨?_, ?_, ?_⟩
        · cases before with
          | nil => simp at hhead
          | cons c before => simpa using isAsciiAlpha_lowerAscii (by simpa using hhead)
        · simp only [List.all_map, List.all_eq_true]
          exact fun c hc => isSchemeChar_lowerAscii (List.all_eq_true.mp hall c hc)
        · simp [lowerAscii_lowerAscii]
      · exact .inl rfl
  · exact .inl rfl

theorem mem_of_mem_splitScheme {url : Text} {c : Char} (h : c ∈ (splitScheme url).2) : c ∈ url := by
  unfold splitScheme at h
  split at h
  · next before rest heq =>
      split_ifs at h
      · rw [eq_of_partition heq]
        exact List.mem_append_right _ (List.mem_cons_of_mem _ h)
      · exact h
  · exact h

/-- The netloc has none of the characters that end it, and the rest begins with one. -/
theorem splitNetloc_eq {url netloc rest : Text} (h : splitNetloc url = (netloc, rest)) :
    (∀ c ∈ netloc, c ∈ url ∧ endsNetloc c = false) ∧
      (netloc ≠ [] → ∀ c ∈ rest.head?, endsNetloc c = true) := by
  unfold splitNetloc at h
  split at h
  · next text =>
      obtain ⟨rfl, rfl⟩ := Prod.mk.inj h
      refine ⟨fun c hc => ⟨?_, ?_⟩, fun _ c hc => ?_⟩
      · exact List.mem_cons_of_mem _ (List.mem_cons_of_mem _ (List.takeWhile_subset _ hc))
      · simpa [endsNetloc] using List.mem_takeWhile_imp hc
      · have hhead := List.head?_dropWhile_not (fun c => !endsNetloc c) text
        change (text.dropWhile fun c => !endsNetloc c).head? = some c at hc
        simpa [hc] using hhead
  · obtain ⟨rfl, rfl⟩ := Prod.mk.inj h
    simp

theorem mem_of_mem_splitNetloc {url : Text} {c : Char} (h : c ∈ (splitNetloc url).2) : c ∈ url := by
  unfold splitNetloc at h
  split at h
  · exact List.mem_cons_of_mem _ (List.mem_cons_of_mem _ (List.dropWhile_subset _ h))
  · exact h

/-- What a split URL is made of. -/
theorem urlsplit_some {U : Tools} {url : Text} {r : SplitResult} (h : urlsplit U url = some r) :
    SchemeText r.scheme ∧ NetlocText r.netloc ∧ accepts U r.netloc = true ∧
      (r.netloc ≠ [] → ∀ c ∈ r.path.head?, c = '/') := by
  obtain ⟨stripped, hstripped⟩ : ∃ stripped, ((url.dropWhile fun c => c.toNat ≤ 0x20).filter
    fun c => !(c == '\t' || c == '\r' || c == '\n')) = stripped := ⟨_, rfl⟩
  have hclean : ∀ c ∈ stripped, isLineControl c = false := by
    intro c hc
    rw [← hstripped] at hc
    simpa [isLineControl] using (List.mem_filter.mp hc).2
  obtain ⟨⟨scheme, rest⟩, hscheme⟩ : ∃ parts, splitScheme stripped = parts := ⟨_, rfl⟩
  obtain ⟨⟨netloc, last⟩, hnetloc⟩ : ∃ parts, splitNetloc rest = parts := ⟨_, rfl⟩
  rw [urlsplit_eq U hstripped hscheme hnetloc] at h
  split_ifs at h with haccepts
  cases h
  obtain ⟨htext, hlast⟩ := splitNetloc_eq hnetloc
  have hrest : ∀ c ∈ rest, c ∈ stripped := fun c hc =>
    mem_of_mem_splitScheme (by rw [hscheme]; exact hc)
  refine ⟨?_, fun c hc => ⟨(htext c hc).2, hclean c (hrest c (htext c hc).1)⟩, haccepts,
    fun hne c hc => ?_⟩
  · rw [show scheme = (splitScheme stripped).1 by rw [hscheme]]
    exact schemeText_splitScheme stripped
  · obtain ⟨hpath, hquery⟩ := head?_partition_fst hc
    obtain ⟨hbefore, hfragment⟩ := head?_partition_fst hpath
    have hends := hlast hne c hbefore
    simpa [endsNetloc, hquery, hfragment] using hends

/-- The characters of the path of a split URL. -/
theorem isPathChar_of_urlsplit {U : Tools} {url : Text} {r : SplitResult}
    (h : urlsplit U url = some r) : ∀ c ∈ r.path, isPathChar c = true := by
  obtain ⟨stripped, hstripped⟩ : ∃ stripped, ((url.dropWhile fun c => c.toNat ≤ 0x20).filter
    fun c => !(c == '\t' || c == '\r' || c == '\n')) = stripped := ⟨_, rfl⟩
  obtain ⟨⟨scheme, rest⟩, hscheme⟩ : ∃ parts, splitScheme stripped = parts := ⟨_, rfl⟩
  obtain ⟨⟨netloc, last⟩, hnetloc⟩ : ∃ parts, splitNetloc rest = parts := ⟨_, rfl⟩
  rw [urlsplit_eq U hstripped hscheme hnetloc] at h
  split_ifs at h
  cases h
  intro c hc
  have hbefore := mem_of_mem_partition_fst hc
  have hclean : isLineControl c = false := by
    have hmem : c ∈ rest := mem_of_mem_splitNetloc (by
      rw [hnetloc]
      exact mem_of_mem_partition_fst hbefore)
    have hmem' : c ∈ stripped := mem_of_mem_splitScheme (by
      rw [hscheme]
      exact hmem)
    rw [← hstripped] at hmem'
    simpa [isLineControl] using (List.mem_filter.mp hmem').2
  have hquery : c ≠ '?' := by
    rintro rfl
    exact not_mem_partition_fst '?' _ hc
  have hhash : c ≠ '#' := by
    rintro rfl
    exact not_mem_partition_fst '#' _ hbefore
  simp [isPathChar, hclean, hquery, hhash]

/-! ## Rewriting behind the netloc -/

/-- Putting a URL together writes its scheme and its netloc, and a slash in front of a path. -/
theorem urlunsplit_eq_located {netloc : Text} (h : netloc ≠ []) (scheme path query fragment : Text) :
    ∃ rest, urlunsplit ⟨scheme, netloc, path, query, fragment⟩ = located scheme netloc rest ∧
      (∀ c ∈ rest.head?, endsNetloc c = true) ∧ (path ≠ [] → rest.head? = some '/') := by
  obtain ⟨path', hpath'⟩ : ∃ path',
      (if path ≠ [] ∧ path.head? ≠ some '/' then '/' :: path else path) = path' := ⟨_, rfl⟩
  have hhead : path' = [] ∧ path = [] ∨ path'.head? = some '/' := by
    subst hpath'
    split_ifs with hslash
    · simp
    · rw [not_and, not_not] at hslash
      by_cases hempty : path = []
      · simp [hempty]
      · exact .inr (hslash hempty)
  refine ⟨path' ++ (if query ≠ [] then '?' :: query else []) ++
    (if fragment ≠ [] then '#' :: fragment else []), ?_, ?_, ?_⟩
  · simp only [urlunsplit, hpath', if_pos (Or.inl h)]
    by_cases hscheme : scheme = [] <;> by_cases hquery : query = [] <;>
      by_cases hfragment : fragment = [] <;> simp [located, hscheme, hquery, hfragment]
  · rcases hhead with ⟨rfl, -⟩ | hhead
    · by_cases hquery : query = [] <;> by_cases hfragment : fragment = [] <;>
        simp [hquery, hfragment, endsNetloc]
    · simp [List.head?_append, hhead, endsNetloc]
  · rcases hhead with ⟨-, rfl⟩ | hhead
    · simp
    · simp [List.head?_append, hhead]

/-- Putting a URL together that has a netloc and a path. -/
theorem urlunsplit_path {netloc path : Text} (h : netloc ≠ []) (hslash : path.head? = some '/')
    (scheme query : Text) :
    urlunsplit ⟨scheme, netloc, path, query, []⟩ =
      located scheme netloc (path ++ queryPart query) := by
  by_cases hscheme : scheme = [] <;> by_cases hquery : query = [] <;>
    simp [urlunsplit, located, queryPart, h, hslash, hscheme, hquery]

/-- A URL that is rewritten behind its netloc keeps its scheme and its netloc. -/
theorem urlsplit_urlunsplit {U : Tools} {url : Text} {r : SplitResult} (h : urlsplit U url = some r)
    (hne : r.netloc ≠ []) (path query fragment : Text) :
    ∃ r', urlsplit U (urlunsplit ⟨r.scheme, r.netloc, path, query, fragment⟩) = some r' ∧
      r'.scheme = r.scheme ∧ r'.netloc = r.netloc := by
  obtain ⟨hscheme, hnetloc, haccepts, -⟩ := urlsplit_some h
  obtain ⟨rest, hurl, hrest, -⟩ := urlunsplit_eq_located hne r.scheme path query fragment
  obtain ⟨path', query', fragment', hsplit⟩ := urlsplit_located U hscheme hnetloc hrest
  rw [haccepts, if_pos rfl] at hsplit
  refine ⟨⟨r.scheme, r.netloc, path', query', fragment'⟩, ?_, rfl, rfl⟩
  rw [hurl, hsplit]

/-! ## The host of a netloc -/

namespace SplitResult

variable {r : SplitResult}

/-- A netloc with a bracket: the host is what the brackets enclose. -/
theorem hostinfo_bracketed {before bracketed : Text} (hat : '@' ∉ r.netloc)
    (h : partition '[' r.netloc = (before, some bracketed)) :
    r.hostinfo = ((partition ']' bracketed).1,
      (partition ':' ((partition ']' bracketed).2.getD [])).2.getD []) := by
  unfold hostinfo
  simp only [rpartition_of_not_mem hat, h]

/-- A netloc without a bracket: the host is what stands before the port. -/
theorem hostinfo_plain (hat : '@' ∉ r.netloc) (h : '[' ∉ r.netloc) :
    r.hostinfo = ((partition ':' r.netloc).1, (partition ':' r.netloc).2.getD []) := by
  unfold hostinfo
  simp only [rpartition_of_not_mem hat, partition_of_not_mem h]

/-- The host is read off the netloc. -/
theorem hostname_congr (U : Tools) {r' : SplitResult} (h : r'.netloc = r.netloc) :
    r'.hostname U = r.hostname U := by
  have hinfo : r'.hostinfo = r.hostinfo := by
    unfold hostinfo
    rw [h]
  unfold hostname
  rw [hinfo]

end SplitResult

/-- Without a netloc there is no host. -/
theorem hostname_of_netloc_nil (U : Tools) {r : SplitResult} (h : r.netloc = []) :
    r.hostname U = none := by
  have hinfo : r.hostinfo.1 = [] := by
    rw [SplitResult.hostinfo_plain (by simp [h]) (by simp [h]), h]
    rfl
  simp [SplitResult.hostname, hinfo]

/-- The brackets of a netloc come in pairs. -/
theorem bracket_of_accepts {U : Tools} {netloc : Text} (h : accepts U netloc = true) :
    '[' ∈ netloc ↔ ']' ∈ netloc := by
  simp only [accepts, Bool.and_eq_true, beq_iff_eq] at h
  have hany : ∀ c : Char, netloc.any (· == c) = true ↔ c ∈ netloc := by simp
  rw [← hany, ← hany, h.1.1]

end Odirag.Url
