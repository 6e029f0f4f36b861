import Odirag.Foundations.Netloc

/-!
# What stands around a URL

Control characters and spaces in front of a URL are not read, and a text behind it becomes part of
what the URL ends in: the fragment, the query, the path or the netloc (`urlsplit_append`).
-/

namespace Odirag.Url

section

variable {c : Char} {text after : Text}

/-- A text behind the separator belongs to what follows it. -/
theorem partition_append_mem (h : c ∈ text) (w : Text) :
    partition c (text ++ w) =
      ((partition c text).1, some ((partition c text).2.getD [] ++ w)) := by
  obtain ⟨before, after, hparts⟩ := partition_of_mem h
  have hbefore : c ∉ before := by
    have hnot := not_mem_partition_fst c text
    rwa [hparts] at hnot
  rw [hparts, eq_of_partition hparts, List.append_assoc, List.cons_append,
    partition_append hbefore]
  rfl

/-- Without the separator everything stands before it. -/
theorem partition_append_not_mem (h : c ∉ text) {w : Text} (hw : c ∉ w) :
    partition c (text ++ w) = (text ++ w, none) :=
  partition_of_not_mem fun hmem => (List.mem_append.mp hmem).elim h hw

end

/-! ## The text that is read -/

/-- What `urlsplit` reads of a text. -/
def clean (url : Text) : Text :=
  (url.dropWhile fun c => c.toNat ≤ 0x20).filter fun c => !isLineControl c

/-- The marks that are always read. -/
theorem mem_clean {url : Text} {c : Char} (hhigh : ¬ c.toNat ≤ 0x20)
    (hcontrol : isLineControl c = false) : c ∈ clean url ↔ c ∈ url := by
  rw [clean, List.mem_filter]
  constructor
  · exact fun h => List.dropWhile_subset _ h.1
  · intro h
    refine ⟨?_, by simp [hcontrol]⟩
    rw [← List.takeWhile_append_dropWhile (p := fun c : Char => decide (c.toNat ≤ 0x20)) (l := url),
      List.mem_append] at h
    rcases h with h | h
    · exact absurd (by simpa using List.mem_takeWhile_imp h) hhigh
    · exact h

/-- Text in front that is not read. -/
theorem clean_lead {lead : Text} (h : ∀ c ∈ lead, c.toNat ≤ 0x20) (url : Text) :
    clean (lead ++ url) = clean url := by
  rw [clean, List.dropWhile_append_of_pos fun c hc => decide_eq_true (h c hc)]
  rfl

/-- Text behind a URL. -/
theorem clean_append {url : Text} (h : clean url ≠ []) (w : Text) :
    clean (url ++ w) = clean url ++ w.filter fun c => !isLineControl c := by
  have hne : (url.dropWhile fun c => c.toNat ≤ 0x20) ≠ [] := fun hnil => h (by simp [clean, hnil])
  rw [clean, List.dropWhile_append, if_neg (by simpa [List.isEmpty_iff] using hne),
    List.filter_append]
  rfl

/-- The first character of a text that is read. -/
theorem head?_clean {url : Text} {c : Char} (hhigh : ¬ c.toNat ≤ 0x20) (rest : Text)
    (h : (url.dropWhile fun c => c.toNat ≤ 0x20) = c :: rest) : (clean url).head? = some c := by
  have hcontrol : isLineControl c = false := by
    rw [Bool.eq_false_iff]
    intro hc
    simp only [isLineControl, Bool.or_eq_true, beq_iff_eq] at hc
    rcases hc with (rfl | rfl) | rfl <;> exact hhigh (by decide)
  rw [clean, h, List.filter_cons_of_pos (by simp [hcontrol])]
  rfl

/-- Only what is read of a text matters. -/
theorem urlsplit_congr (U : Tools) {url url' : Text} (h : clean url = clean url') :
    urlsplit U url = urlsplit U url' := by
  obtain ⟨⟨scheme, rest⟩, hscheme⟩ : ∃ parts, splitScheme (clean url) = parts := ⟨_, rfl⟩
  obtain ⟨⟨netloc, last⟩, hnetloc⟩ : ∃ parts, splitNetloc rest = parts := ⟨_, rfl⟩
  rw [urlsplit_eq U rfl hscheme hnetloc, urlsplit_eq U h.symm hscheme hnetloc]

/-- A text that is not read from a letter on has no scheme. -/
theorem scheme_of_clean {U : Tools} {url : Text} {r : SplitResult} (h : urlsplit U url = some r)
    (hhead : ∀ c ∈ (clean url).head?, isAsciiAlpha c = false) : r.scheme = [] := by
  have hscheme : splitScheme (clean url) = ([], clean url) := by
    unfold splitScheme
    split
    · next before rest hparts =>
        have hbefore : before.head?.any isAsciiAlpha = false := by
          rw [Option.any_eq_false_iff_get]
          intro hsome
          refine hhead _ (head?_partition_fst (c := ':') ?_).1
          rw [hparts]
          exact Option.some_get hsome |>.symm
        simp [hbefore]
    · rfl
  obtain ⟨⟨netloc, last⟩, hnetloc⟩ : ∃ parts, splitNetloc (clean url) = parts := ⟨_, rfl⟩
  rw [urlsplit_eq U rfl hscheme hnetloc] at h
  split_ifs at h
  cases h
  rfl

/-! ## A URL with a scheme and a netloc -/

/-- The scheme as it is written, the netloc and the rest of a text that is read. -/
structure Shaped (scheme netloc last text : Text) : Prop where
  letters : scheme.all isSchemeChar = true
  letter : scheme.head?.any isAsciiAlpha = true
  netloc_text : NetlocText netloc
  ends : ∀ c ∈ last.head?, endsNetloc c = true
  eq : text = scheme ++ ':' :: '/' :: '/' :: (netloc ++ last)

namespace Shaped

variable {scheme netloc last text : Text}

/-- Reading a text of this shape. -/
theorem urlsplit (U : Tools) {url : Text} (h : Shaped scheme netloc last (clean url)) :
    Url.urlsplit U url =
      if accepts U netloc then
        some ⟨scheme.map lowerAscii, netloc, (partition '?' (partition '#' last).1).1,
          ((partition '?' (partition '#' last).1).2).getD [], ((partition '#' last).2).getD []⟩
      else none := by
  have hcolon : ':' ∉ scheme := fun hmem =>
    ne_colon_of_isSchemeChar (List.all_eq_true.mp h.letters _ hmem) rfl
  have hall : scheme.all (fun c => isAsciiAlpha c || isAsciiDigit c || c == '+' || c == '-' ||
    c == '.') = true := h.letters
  have hscheme : splitScheme (clean url) =
      (scheme.map lowerAscii, '/' :: '/' :: (netloc ++ last)) := by
    rw [h.eq]
    simp [splitScheme, partition_append hcolon, h.letter, hall]
  exact urlsplit_eq U rfl hscheme (splitNetloc_slashes h.netloc_text h.ends)

/-- The marks of the rest are those of the text. -/
theorem mem_last (h : Shaped scheme netloc last text) {c : Char} (hc : c = '#' ∨ c = '?') :
    c ∈ last ↔ c ∈ text := by
  have hscheme : c ∉ scheme := by
    intro hmem
    have hletter := List.all_eq_true.mp h.letters c hmem
    rcases hc with rfl | rfl <;> revert hletter <;> decide
  have hnetloc : c ∉ netloc := by
    intro hmem
    have hends := (h.netloc_text c hmem).1
    rcases hc with rfl | rfl <;> revert hends <;> decide
  have hmarks : c ≠ ':' ∧ c ≠ '/' := by
    rcases hc with rfl | rfl <;> decide
  rw [h.eq]
  simp [hscheme, hnetloc, hmarks]

end Shaped

/-- A URL with a scheme and a netloc has this shape. -/
theorem exists_shaped {U : Tools} {url : Text} {r : SplitResult} (h : urlsplit U url = some r)
    (hscheme : r.scheme ≠ []) (hnetloc : r.netloc ≠ []) :
    ∃ scheme last, Shaped scheme r.netloc last (clean url) := by
  obtain ⟨⟨scheme, rest⟩, hparts⟩ : ∃ parts, splitScheme (clean url) = parts := ⟨_, rfl⟩
  obtain ⟨⟨netloc, last⟩, hlocation⟩ : ∃ parts, splitNetloc rest = parts := ⟨_, rfl⟩
  have htext : NetlocText r.netloc := (urlsplit_some h).2.1
  rw [urlsplit_eq U rfl hparts hlocation] at h
  split_ifs at h
  cases h
  dsimp only at hscheme hnetloc htext ⊢
  obtain ⟨-, hends⟩ := splitNetloc_eq hlocation
  have hrest : rest = '/' :: '/' :: (netloc ++ last) := by
    unfold splitNetloc at hlocation
    split at hlocation
    · obtain ⟨rfl, rfl⟩ := Prod.mk.inj hlocation
      rw [List.takeWhile_append_dropWhile]
    · exact absurd (Prod.mk.inj hlocation).1.symm hnetloc
  unfold splitScheme at hparts
  split at hparts
  · next before behind hcut =>
      split_ifs at hparts with hletters
      · obtain ⟨hletter, hall⟩ := Bool.and_eq_true_iff.mp hletters
        refine ⟨before, last, hall, hletter, htext, hends hnetloc, ?_⟩
        rw [eq_of_partition hcut, (Prod.mk.inj hparts).2, hrest]
      · exact absurd (Prod.mk.inj hparts).1.symm hscheme
  · exact absurd (Prod.mk.inj hparts).1.symm hscheme

/-- Text in front that is not read. -/
theorem urlsplit_lead (U : Tools) {lead : Text} (h : ∀ c ∈ lead, c.toNat ≤ 0x20) (url : Text) :
    urlsplit U (lead ++ url) = urlsplit U url :=
  urlsplit_congr U (clean_lead h url)

/-- **Text behind a URL.** It is read as the end of the last part of the URL. -/
theorem urlsplit_append {U : Tools} {url : Text} {r : SplitResult} (h : urlsplit U url = some r)
    (hscheme : r.scheme ≠ []) (hnetloc : r.netloc ≠ []) {w : Text}
    (hw : ∀ c ∈ w, endsNetloc c = false ∧ isLineControl c = false) :
    urlsplit U (url ++ w) =
      if '#' ∈ url then some { r with fragment := r.fragment ++ w }
      else if '?' ∈ url then some { r with query := r.query ++ w }
      else if r.path ≠ [] then some { r with path := r.path ++ w }
      else if accepts U (r.netloc ++ w) then some { r with netloc := r.netloc ++ w }
      else none := by
  obtain ⟨scheme, last, hshape⟩ := exists_shaped h hscheme hnetloc
  have haccepts : accepts U r.netloc = true := (urlsplit_some h).2.2.1
  have hmem : ∀ c, c = '#' ∨ c = '?' → (c ∈ url ↔ c ∈ last) := by
    intro c hc
    rw [hshape.mem_last hc]
    refine (mem_clean ?_ ?_).symm <;> rcases hc with rfl | rfl <;> decide
  have hclean : clean (url ++ w) = clean url ++ w := by
    rw [clean_append (by simp [hshape.eq]), List.filter_eq_self.mpr]
    exact fun c hc => by simp [(hw c hc).2]
  have hhash : '#' ∉ w := fun hc => by simpa [endsNetloc] using (hw _ hc).1
  have hmark : '?' ∉ w := fun hc => by simpa [endsNetloc] using (hw _ hc).1
  have hread := hshape.urlsplit U
  rw [haccepts, if_pos rfl, h, Option.some_inj] at hread
  have hparts : r.scheme = scheme.map lowerAscii ∧
      r.path = (partition '?' (partition '#' last).1).1 ∧
      r.query = ((partition '?' (partition '#' last).1).2).getD [] ∧
      r.fragment = ((partition '#' last).2).getD [] := by
    rw [hread]
    exact ⟨rfl, rfl, rfl, rfl⟩
  obtain ⟨hscheme', hpath, hquery, hfragment⟩ := hparts
  simp only [hmem '#' (.inl rfl), hmem '?' (.inr rfl)]
  by_cases hlast : last = []
  · -- The URL ends in its netloc.
    have hshape' : Shaped scheme (r.netloc ++ w) [] (clean (url ++ w)) := by
      refine { hshape with
        netloc_text := fun c hc => ?_
        ends := by simp
        eq := by rw [hclean, hshape.eq, hlast]; simp }
      exact (List.mem_append.mp hc).elim (hshape.netloc_text c) (hw c)
    rw [hshape'.urlsplit U, hscheme', hpath, hquery, hfragment, hlast]
    simp [partition]
  · have hshape' : Shaped scheme r.netloc (last ++ w) (clean (url ++ w)) := by
      refine { hshape with
        ends := fun c hc => hshape.ends c ?_
        eq := by rw [hclean, hshape.eq]; simp }
      rwa [List.head?_append_of_ne_nil _ hlast] at hc
    rw [hshape'.urlsplit U, haccepts, if_pos rfl, hscheme', hpath, hquery, hfragment]
    by_cases hhash' : '#' ∈ last
    · rw [if_pos hhash', partition_append_mem hhash']
      rfl
    · rw [if_neg hhash', partition_append_not_mem hhash' hhash, partition_of_not_mem hhash']
      by_cases hmark' : '?' ∈ last
      · rw [if_pos hmark', partition_append_mem hmark']
        rfl
      · rw [if_neg hmark', partition_append_not_mem hmark' hmark, partition_of_not_mem hmark',
          if_pos hlast]

/-! ## The end of a netloc -/

/-- A text behind a netloc is ignored, or belongs to the host or to the port. -/
theorem SplitResult.hostinfo_append (r : SplitResult) {w : Text}
    (hw : ∀ c ∈ w, c ≠ '@' ∧ c ≠ '[' ∧ c ≠ ']' ∧ c ≠ ':') (hat : '@' ∉ r.netloc) :
    { r with netloc := r.netloc ++ w }.hostinfo = r.hostinfo ∨
      { r with netloc := r.netloc ++ w }.hostinfo = (r.hostinfo.1 ++ w, r.hostinfo.2) ∨
      { r with netloc := r.netloc ++ w }.hostinfo = (r.hostinfo.1, r.hostinfo.2 ++ w) := by
  have hat' : '@' ∉ r.netloc ++ w := fun h =>
    (List.mem_append.mp h).elim hat fun hc => (hw _ hc).1 rfl
  have hcolon : ':' ∉ w := fun h => (hw _ h).2.2.2 rfl
  have hclose : ']' ∉ w := fun h => (hw _ h).2.2.1 rfl
  have hopen : '[' ∉ w := fun h => (hw _ h).2.1 rfl
  by_cases hbracket : '[' ∈ r.netloc
  · obtain ⟨before, bracketed, hparts⟩ := partition_of_mem hbracket
    have hparts' : partition '[' (r.netloc ++ w) = (before, some (bracketed ++ w)) := by
      rw [partition_append_mem hbracket, hparts]
      rfl
    rw [hostinfo_bracketed hat hparts, hostinfo_bracketed (by exact hat') hparts']
    by_cases hend : ']' ∈ bracketed
    · rw [partition_append_mem hend]
      simp only [Option.getD_some]
      by_cases hport : ':' ∈ (partition ']' bracketed).2.getD []
      · rw [partition_append_mem hport]
        exact .inr (.inr rfl)
      · rw [partition_append_not_mem hport hcolon, partition_of_not_mem hport]
        exact .inl rfl
    · rw [partition_append_not_mem hend hclose, partition_of_not_mem hend]
      exact .inr (.inl rfl)
  · have hbracket' : '[' ∉ r.netloc ++ w := fun h => (List.mem_append.mp h).elim hbracket hopen
    rw [hostinfo_plain hat hbracket, hostinfo_plain (by exact hat') hbracket']
    by_cases hport : ':' ∈ r.netloc
    · rw [partition_append_mem hport]
      exact .inr (.inr rfl)
    · rw [partition_append_not_mem hport hcolon, partition_of_not_mem hport]
      exact .inr (.inl rfl)

/-! ## What was put together -/

/-- The netloc and what follows it are determined by the text. -/
theorem located_inj {scheme netloc netloc' rest rest' : Text} (hslash : '/' ∉ netloc)
    (hslash' : '/' ∉ netloc') :
    located scheme netloc ('/' :: rest) = located scheme netloc' ('/' :: rest') ↔
      netloc = netloc' ∧ rest = rest' := by
  constructor
  · intro h
    have htexts : netloc ++ '/' :: rest = netloc' ++ '/' :: rest' := by simpa [located] using h
    have hparts := congrArg (partition '/') htexts
    rw [partition_append hslash, partition_append hslash'] at hparts
    exact ⟨(Prod.mk.inj hparts).1, Option.some_inj.mp (Prod.mk.inj hparts).2⟩
  · rintro ⟨rfl, rfl⟩
    rfl

/-- The path and the query are determined by the text. -/
theorem append_queryPart_inj {path path' query query' : Text} (hmark : '?' ∉ path)
    (hmark' : '?' ∉ path') :
    path ++ queryPart query = path' ++ queryPart query' ↔ path = path' ∧ query = query' := by
  have hparts : ∀ {path : Text}, '?' ∉ path → ∀ query,
      partition '?' (path ++ queryPart query) = (path, if query = [] then none else some query) := by
    intro path hmark query
    unfold queryPart
    split_ifs with hempty
    · rw [List.append_nil, partition_of_not_mem hmark]
    · rw [partition_append hmark]
  constructor
  · intro h
    have hsplit := congrArg (partition '?') h
    rw [hparts hmark, hparts hmark'] at hsplit
    obtain ⟨hpath, hquery⟩ := Prod.mk.inj hsplit
    refine ⟨hpath, ?_⟩
    split_ifs at hquery with hempty hempty'
    · rw [hempty, hempty']
    · exact Option.some_inj.mp hquery
  · rintro ⟨rfl, rfl⟩
    rfl

end Odirag.Url
