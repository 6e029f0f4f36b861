import Odirag.Chunking.Lossless

/-!
# How long chunks are

Reference: `backend/app/chunking/heading.py`.

A chunk is checked against the maximum before a part is added to it, but not when it begins with the
overlap of the chunk before it. So the bound holds exactly if every chunk fits when it begins
(`chunk_bound_iff`). It need not: a part that is cut behind a punctuation mark is one character longer
than the limit, and the limit leaves no room for the overlap when this is nearly the maximum.
`chunk_bound` says of the configuration and the text what keeps both from happening: a piece of a
paragraph can begin at a few places only, and no sign may stand right behind the limit of one of them.
-/

namespace Odirag.Chunking

open Documents (isSpace)

namespace ChunkingConfig

variable (config : ChunkingConfig)

/-- The chunk that begins with this part fits, if one begins. -/
def Fits (current part : Text) : Prop :=
  if current = [] then part.length ≤ config.maxChars
  else if config.shouldFlush current part then
    (config.overlap current).length + (if config.overlap current = [] then 0 else 2) + part.length ≤
      config.maxChars
  else True

instance (current part : Text) : Decidable (config.Fits current part) :=
  inferInstanceAs (Decidable (ite _ _ _))

/-- Every chunk that begins with one of these parts fits. -/
def FitsFrom (current : Text) : List Text → Prop
  | [] => True
  | part :: rest => config.Fits current part ∧ FitsFrom (config.addPart ⟨[], current⟩ part).current rest

variable {config} {current part : Text}

/-- How long a new chunk is. -/
theorem length_overlap_part (hcurrent : Tight current) (hpart : Tight part) :
    (strip (config.overlap current ++ '\n' :: '\n' :: part)).length =
      (config.overlap current).length + (if config.overlap current = [] then 0 else 2) +
        part.length := by
  rcases config.tight_overlap hcurrent with hempty | htight
  · have hstrip : strip ('\n' :: '\n' :: part) = part := by
      have hdrop : strip ('\n' :: '\n' :: part) = strip part := rfl
      rw [hdrop]
      exact hpart.stripBy_eq
    simp [hempty, hstrip]
  · obtain ⟨hnew, -⟩ := candidate_tight htight hpart
    rw [candidate, if_neg htight.ne_nil] at hnew
    rw [hnew, if_neg htight.ne_nil, List.length_append, List.length_cons, List.length_cons]
    omega

theorem length_candidate_le (h : config.shouldFlush current part = false) :
    (candidate current part).length ≤ config.maxChars := by
  simp only [shouldFlush, Bool.or_eq_false_iff, decide_eq_false_iff_not, not_lt] at h
  exact h.1

/-- The packed chunks are short enough exactly if the ones so far are and each new one fits. -/
theorem foldl_addPart_bound {parts : List Text} (hparts : ∀ part ∈ parts, Tight part) {s : Packing}
    (hs : s.current = [] ∨ Tight s.current) :
    (∀ piece ∈ (parts.foldl config.addPart s).pieces, piece.length ≤ config.maxChars) ↔
      (∀ piece ∈ s.pieces, piece.length ≤ config.maxChars) ∧ config.FitsFrom s.current parts := by
  induction parts generalizing s with
  | nil => simp [FitsFrom]
  | cons part parts ih =>
      have hpart : Tight part := hparts part List.mem_cons_self
      have hrest : ∀ p ∈ parts, Tight p := fun p hp => hparts p (List.mem_cons_of_mem _ hp)
      rw [List.foldl_cons, FitsFrom]
      by_cases hempty : s.current = []
      · have hstep : config.addPart s part = ⟨s.chunks, part⟩ := by
          simp [addPart, flushes, hempty, candidate]
        have hstep' : (config.addPart ⟨[], s.current⟩ part).current = part := by
          simp [addPart, flushes, hempty, candidate]
        rw [hstep, hstep', ih hrest (.inr hpart), pieces_of_ne_nil hpart.ne_nil, Packing.pieces,
          if_pos hempty, Fits, if_pos hempty]
        simp only [List.mem_append, List.mem_singleton, or_imp, forall_and, forall_eq]
        exact and_assoc
      · have hcurrent := hs.resolve_left hempty
        cases hflush : config.shouldFlush s.current part with
        -- The current chunk is closed, and the next one begins with the overlap.
        | true =>
            obtain ⟨-, -, -, htight⟩ := config.strip_overlap hcurrent hpart
            have hflushes : config.flushes s.current part = true := by
              simp [flushes, hempty, hflush]
            have hstep : config.addPart s part = ⟨s.chunks ++ [s.current],
                strip (config.overlap s.current ++ '\n' :: '\n' :: part)⟩ := if_pos hflushes
            have hstep' : (config.addPart ⟨[], s.current⟩ part).current =
                strip (config.overlap s.current ++ '\n' :: '\n' :: part) := by
              simp only [addPart, if_pos hflushes]
            rw [hstep, hstep', ih hrest (.inr htight), pieces_of_ne_nil htight.ne_nil,
              pieces_of_ne_nil hempty, Fits, if_neg hempty, if_pos hflush]
            simp only [List.mem_append, List.mem_singleton, or_imp, forall_and, forall_eq,
              length_overlap_part hcurrent hpart]
            exact and_assoc
        -- The current chunk goes on, so it was short enough itself.
        | false =>
            obtain ⟨hnew, htight⟩ := candidate_tight hcurrent hpart
            have hstep : config.addPart s part = ⟨s.chunks, candidate s.current part⟩ := by
              simp [addPart, flushes, hflush]
            have hstep' : (config.addPart ⟨[], s.current⟩ part).current =
                candidate s.current part := by
              simp [addPart, flushes, hflush]
            have hcandidate := length_candidate_le hflush
            have hshort : s.current.length ≤ config.maxChars := by
              rw [hnew, List.length_append] at hcandidate
              omega
            rw [hstep, hstep', ih hrest (.inr htight), pieces_of_ne_nil htight.ne_nil,
              pieces_of_ne_nil hempty, Fits, if_neg hempty, if_neg (by simp [hflush]), true_and]
            simp only [List.mem_append, List.mem_singleton, or_imp, forall_and, forall_eq,
              hcandidate, hshort]

/-- The chunks of a section are short enough exactly if each of them fits when it begins. -/
theorem splitBody_bound_iff (config : ChunkingConfig) (body : Text) :
    (∀ piece ∈ config.splitBody body, piece.length ≤ config.maxChars) ↔
      config.FitsFrom [] (config.parts body) := by
  rcases (config.parts_spec body).2 with hempty | htight
  · have hstep : config.addPart ⟨[], []⟩ [] = ⟨[], []⟩ := rfl
    simp [splitBody, hempty, hstep, FitsFrom, Fits]
  · have hpieces : config.splitBody body =
        ((config.parts body).foldl config.addPart ⟨[], []⟩).pieces := rfl
    rw [hpieces, foldl_addPart_bound htight (.inl rfl)]
    simp [Packing.pieces]

end ChunkingConfig

namespace HeadingAwareChunker

/-- **The bound.** No draft is longer than the maximum exactly if, in every section, each chunk fits
when it begins. -/
theorem chunk_bound_iff (chunker : HeadingAwareChunker) (text : Text) :
    (∀ draft ∈ chunker.chunk text, draft.charCount ≤ chunker.config.maxChars) ↔
      ∀ s ∈ chunker.sections (strip (replaceReturns text)),
        chunker.config.FitsFrom [] (chunker.config.parts s.text) := by
  simp only [← ChunkingConfig.splitBody_bound_iff]
  unfold chunk
  simp only
  split_ifs with hempty
  -- Without text there is one section, with an empty body and no chunk.
  · rw [hempty]
    have hsections : chunker.sections [] = [⟨[], none, []⟩] := rfl
    have hpieces : chunker.config.splitBody (Section.text ⟨[], none, []⟩) = [] := by
      have hpiece := (ChunkingConfig.splitBody_spec chunker.config []).inside
      have htight := (ChunkingConfig.splitBody_spec chunker.config []).tight
      refine List.eq_nil_iff_forall_not_mem.mpr fun piece hmem => (htight piece hmem).ink_ne_nil ?_
      exact List.infix_nil.mp (hpiece piece hmem)
    simp [hsections, hpieces]
  · have hraw : ∀ entry ∈ chunker.rawChunks (chunker.sections (strip (replaceReturns text))),
        Tight entry.1 := by
      intro entry hentry
      obtain ⟨s, -, hentry⟩ := List.mem_flatMap.mp hentry
      obtain ⟨piece, hpiece, rfl⟩ := List.mem_map.mp hentry
      exact (ChunkingConfig.splitBody_spec chunker.config s.text).tight piece hpiece
    rw [chunk_of_tight hraw]
    constructor
    · intro h s hs piece hpiece
      have hmem : (piece, s) ∈ chunker.rawChunks (chunker.sections (strip (replaceReturns text))) :=
        List.mem_flatMap.mpr ⟨s, hs, List.mem_map.mpr ⟨piece, hpiece, rfl⟩⟩
      obtain ⟨i, hi, heq⟩ := List.getElem_of_mem hmem
      have hentry : ((piece, s), i) ∈
          (chunker.rawChunks (chunker.sections (strip (replaceReturns text)))).zipIdx :=
        List.mk_mem_zipIdx_iff_getElem?.mpr (by rw [List.getElem?_eq_getElem hi, heq])
      exact h _ (List.mem_map_of_mem hentry)
    · intro h draft hdraft
      obtain ⟨entry, hentry, rfl⟩ := List.mem_map.mp hdraft
      obtain ⟨s, hs, hin⟩ := List.mem_flatMap.mp (List.fst_mem_of_mem_zipIdx hentry)
      obtain ⟨piece, hpiece, heq⟩ := List.mem_map.mp hin
      have hlength := h s hs piece hpiece
      rwa [← heq]

end HeadingAwareChunker

/-! ## When chunks fit -/

namespace ChunkingConfig

variable {config : ChunkingConfig} {current part : Text}

theorem length_overlap_le (current : Text) :
    (config.overlap current).length ≤ config.overlapChars := by
  unfold overlap
  split_ifs
  · exact Nat.zero_le _
  · refine (List.dropWhile_suffix _).length_le.trans ?_
    rw [List.length_drop]
    omega

theorem pieceLimit_eq (config : ChunkingConfig) : (config.pieceLimit : ℕ) =
    max 1 (config.maxChars - config.overlapChars - if config.overlapChars = 0 then 0 else 2) := rfl

/-- A part within the limit fits where the limit leaves room for the overlap. -/
theorem fits_of_le (hroom : config.overlapChars = 0 ∨ config.overlapChars + 2 < config.maxChars)
    (hpart : part.length ≤ config.pieceLimit) : config.Fits current part := by
  have hmin := config.min_pos
  have hle := config.min_le
  have htarget := config.target_le
  rw [pieceLimit_eq] at hpart
  unfold Fits
  split_ifs with hempty hflush hoverlap
  · omega
  · rw [hoverlap, List.length_nil]
    omega
  · have hlength := config.length_overlap_le current
    have hpos : 0 < (config.overlap current).length := List.length_pos_of_ne_nil hoverlap
    have hne : config.overlapChars ≠ 0 := by omega
    rw [if_neg hne] at hpart
    omega

theorem fitsFrom_of_le (hroom : config.overlapChars = 0 ∨ config.overlapChars + 2 < config.maxChars)
    {parts : List Text} (hparts : ∀ part ∈ parts, part.length ≤ config.pieceLimit) :
    config.FitsFrom current parts := by
  induction parts generalizing current with
  | nil => trivial
  | cons part parts ih =>
      exact ⟨fits_of_le hroom (hparts part List.mem_cons_self),
        ih fun p hp => hparts p (List.mem_cons_of_mem _ hp)⟩

end ChunkingConfig

/-! ## How long parts are -/

theorem rfind_lt (text : Text) (c : Char) (start : ℕ) : rfind text c start < text.length := by
  unfold rfind
  split
  · omega
  · next i hlast =>
      have hmem := List.mem_of_mem_filter (List.mem_of_getLast? hlast)
      exact_mod_cast List.mem_range.mp hmem

/-- The last separator of the window is at most at the limit. -/
theorem boundary_le (limit : ℕ) (remaining : Text) : boundary limit remaining ≤ limit := by
  unfold boundary
  generalize separators = found
  have hstart : (-1 : ℤ) ≤ limit := by omega
  induction found using List.reverseRecOn with
  | nil => exact hstart
  | append_singleton found separator ih =>
      rw [List.foldl_append, List.foldl_cons, List.foldl_nil]
      have hlast := rfind_lt (remaining.take (limit + 1)) separator (minimumBoundary limit)
      have hwindow : (remaining.take (limit + 1)).length ≤ limit + 1 := List.length_take_le _ _
      dsimp only
      split_ifs
      · omega
      · exact ih

theorem cutAt_le (limit : ℕ) (remaining : Text) : cutAt limit remaining ≤ limit + 1 := by
  have hboundary := boundary_le limit remaining
  unfold cutAt
  split_ifs <;> omega

/-- A piece is at most one character longer than the limit. -/
theorem length_fallbackFrom_le (limit : {n : ℕ // 0 < n}) (remaining : Text) :
    ∀ piece ∈ fallbackFrom limit remaining, piece.length ≤ limit + 1 := by
  fun_induction fallbackFrom limit remaining with
  | case1 remaining hlong piece ih =>
      intro p hp
      rcases List.mem_append.mp hp with hp | hp
      · split_ifs at hp with hempty
        · cases hp
        · rw [List.mem_singleton.mp hp]
          calc piece.length ≤ (remaining.take (cutAt limit remaining)).length :=
                Text.length_stripBy_le _
            _ ≤ cutAt limit remaining := List.length_take_le _ _
            _ ≤ limit + 1 := cutAt_le _ _
      · exact ih p hp
  | case2 hshort => simp
  | case3 remaining hshort hne =>
      intro p hp
      rw [List.mem_singleton.mp hp]
      omega

/-- A part is at most one character longer than the limit. -/
theorem ChunkingConfig.length_parts_le (config : ChunkingConfig) (body : Text) :
    ∀ part ∈ config.parts body, part.length ≤ config.pieceLimit + 1 := by
  intro part hpart
  obtain ⟨paragraph, -, hin⟩ := List.mem_flatMap.mp hpart
  unfold ChunkingConfig.hardSplit at hin
  split_ifs at hin with hshort
  · rw [List.mem_singleton.mp hin]
    omega
  · exact length_fallbackFrom_le _ _ part hin

/-! ## Where pieces begin -/

theorem rfind_spec (text : Text) (c : Char) (start : ℕ) :
    rfind text c start = -1 ∨
      ∃ i : ℕ, rfind text c start = i ∧ start ≤ i ∧ text[i]? = some c := by
  unfold rfind
  split
  · exact .inl rfl
  · next i hlast =>
      have hmem := List.mem_filter.mp (List.mem_of_getLast? hlast)
      exact .inr ⟨i, rfl, by simpa using hmem.2⟩

/-- It is the last place. -/
theorem le_rfind {text : Text} {c : Char} {start i : ℕ} (hstart : start ≤ i)
    (hi : text[i]? = some c) : (i : ℤ) ≤ rfind text c start := by
  have hmem : i ∈ (List.range text.length).filter fun i => start ≤ i ∧ text[i]? = some c := by
    refine List.mem_filter.mpr ⟨List.mem_range.mpr ?_, by simp [hstart, hi]⟩
    exact (List.getElem?_eq_some_iff.mp hi).1
  have hsorted : ((List.range text.length).filter fun i => start ≤ i ∧ text[i]? = some c).Pairwise
      (· < ·) := List.pairwise_lt_range.filter _
  unfold rfind
  split
  · next hnone => exact absurd (List.getLast?_eq_none_iff.mp hnone) (List.ne_nil_of_mem hmem)
  · next last hlast =>
      obtain ⟨front, heq⟩ := List.getLast?_eq_some_iff.mp hlast
      rw [heq] at hmem hsorted
      rcases List.mem_append.mp hmem with hfront | hlast
      · have hlt := (List.pairwise_append.mp hsorted).2.2 i hfront last (List.mem_singleton_self _)
        omega
      · rw [List.mem_singleton.mp hlast]

/-- The boundary is a separator, and the last one of the window. -/
theorem boundary_spec (limit : ℕ) (remaining : Text) :
    (boundary limit remaining = -1 ∨ ∃ i : ℕ, boundary limit remaining = i ∧
        ∃ separator ∈ separators, remaining[i]? = some separator) ∧
      ∀ i, minimumBoundary limit ≤ i → i ≤ limit → ∀ separator ∈ separators,
        remaining[i]? = some separator → (i : ℤ) ≤ boundary limit remaining := by
  unfold boundary
  generalize separators = found
  induction found using List.reverseRecOn with
  | nil => simp
  | append_singleton found separator ih =>
      obtain ⟨hplace, hlast⟩ := ih
      rw [List.foldl_append, List.foldl_cons, List.foldl_nil]
      dsimp only
      constructor
      · split_ifs with hbetter
        · rcases rfind_spec (remaining.take (limit + 1)) separator (minimumBoundary limit) with
            hnone | ⟨i, hi, -, hfound⟩
          · exact .inl hnone
          · have hmem : remaining[i]? = some separator := by
              rw [List.getElem?_take] at hfound
              split_ifs at hfound
              exact hfound
            exact .inr ⟨i, hi, separator, by simp, hmem⟩
        · rcases hplace with hnone | ⟨i, hi, other, hother, hfound⟩
          · exact .inl hnone
          · exact .inr ⟨i, hi, other, List.mem_append_left _ hother, hfound⟩
      · intro i hmin hmax other hother hfound
        rcases List.mem_append.mp hother with hother | hother
        · have hle := hlast i hmin hmax other hother hfound
          split_ifs with hbetter
          · exact hle.trans (le_of_lt hbetter)
          · exact hle
        · obtain rfl := List.mem_singleton.mp hother
          have hwindow : (remaining.take (limit + 1))[i]? = some other := by
            rw [List.getElem?_take_of_lt (by omega), hfound]
          have hle := le_rfind hmin hwindow
          split_ifs with hbetter
          · exact hle
          · exact hle.trans (not_lt.mp hbetter)

/-- The separators that are signs; the others are blank. -/
def signs : List Char := str "。！？；;，,"

theorem sign_or_blank : ∀ separator ∈ separators, separator ∈ signs ∨ isSpace separator = true := by
  decide

theorem signs_subset {sign : Char} (h : sign ∈ signs) : sign ∈ separators := by
  have hall : ∀ sign ∈ signs, sign ∈ separators := by decide
  exact hall sign h

theorem not_blank_of_sign : ∀ sign ∈ signs, isSpace sign = false := by decide

/-- Behind this text a piece of a paragraph can begin: at the beginning of the paragraph, behind a
separator, or behind so many characters without one that the paragraph is cut there. -/
def CanBegin (limit : ℕ) (before : Text) : Prop :=
  before = [] ∨ ∃ front stretch blanks, before = front ++ stretch ++ blanks ∧
    (∀ c ∈ blanks, isSpace c = true) ∧
    ((∃ separator ∈ separators, stretch = [separator]) ∨
      stretch.length = limit - minimumBoundary limit ∧ ∀ c ∈ stretch, c ∉ separators)

/-- Where a piece can begin, no sign stands right behind the limit. -/
def NoSignBehind (limit : ℕ) (paragraph : Text) : Prop :=
  ∀ before rest, paragraph = before ++ rest → CanBegin limit before →
    ∀ sign ∈ signs, rest[limit]? ≠ some sign

/-- A paragraph within the limit is not cut. -/
theorem noSignBehind_of_length_le {limit : ℕ} {paragraph : Text} (h : paragraph.length ≤ limit) :
    NoSignBehind limit paragraph := by
  intro before rest heq _ sign _ hbehind
  have hlt := (List.getElem?_eq_some_iff.mp hbehind).1
  rw [heq, List.length_append] at h
  omega

theorem minimumBoundary_le {limit : ℕ} (h : 0 < limit) : minimumBoundary limit ≤ limit := by
  unfold minimumBoundary
  omega

/-- What is cut off ends in a separator, or has none behind the least boundary. -/
theorem canBegin_cut {limit : ℕ} (hpos : 0 < limit) {before remaining blanks : Text}
    (hlong : limit < remaining.length) (hblanks : ∀ c ∈ blanks, isSpace c = true) :
    CanBegin limit (before ++ remaining.take (cutAt limit remaining) ++ blanks) := by
  obtain ⟨hplace, hlast⟩ := boundary_spec limit remaining
  unfold cutAt
  split_ifs with hfound
  · obtain ⟨i, hi, separator, hseparator, hchar⟩ := hplace.resolve_left (by omega)
    refine .inr ⟨before ++ remaining.take i, [separator], blanks, ?_, hblanks,
      .inl ⟨separator, hseparator, rfl⟩⟩
    rw [hi, Int.toNat_natCast, List.take_add_one, hchar]
    simp
  · have hmin := minimumBoundary_le hpos
    refine .inr ⟨before ++ remaining.take (minimumBoundary limit),
      (remaining.take limit).drop (minimumBoundary limit), blanks, ?_, hblanks, .inr ⟨?_, ?_⟩⟩
    · have htake : remaining.take limit = remaining.take (minimumBoundary limit) ++
          (remaining.take limit).drop (minimumBoundary limit) := by
        conv_lhs => rw [← List.take_append_drop (minimumBoundary limit) (remaining.take limit),
          List.take_take, Nat.min_eq_left hmin]
      conv_lhs => rw [htake]
      simp
    · rw [List.length_drop, List.length_take, Nat.min_eq_left (by omega)]
    · intro c hc hseparator
      obtain ⟨k, hk, hchar⟩ := List.getElem_of_mem hc
      rw [List.length_drop, List.length_take, Nat.min_eq_left (by omega)] at hk
      have hplace : remaining[minimumBoundary limit + k]? = some c := by
        rw [← hchar, List.getElem_drop, List.getElem_take]
        exact List.getElem?_eq_getElem _
      have hle := hlast _ (Nat.le_add_right _ k) (by omega) c hseparator hplace
      omega

/-- A piece that begins at such a place is within the limit if no sign stands right behind it. -/
theorem length_piece_le {limit : ℕ} {remaining : Text} (hlong : limit < remaining.length)
    (hsigns : ∀ sign ∈ signs, remaining[limit]? ≠ some sign) :
    (strip (remaining.take (cutAt limit remaining))).length ≤ limit := by
  have hstrip (text : Text) : (strip text).length ≤ text.length := Text.length_stripBy_le text
  by_cases hcut : cutAt limit remaining ≤ limit
  · exact (hstrip _).trans ((List.length_take_le _ _).trans hcut)
  -- The cut is behind a separator at the limit, which is blank.
  · have hle := cutAt_le limit remaining
    have heq : cutAt limit remaining = limit + 1 := by omega
    obtain ⟨i, hi, separator, hseparator, hchar⟩ := (boundary_spec limit remaining).1.resolve_left (by
      intro hnone
      rw [cutAt, hnone, if_neg (by omega)] at heq
      omega)
    have hi' : i = limit := by
      unfold cutAt at heq
      rw [hi] at heq
      split_ifs at heq <;> omega
    subst hi'
    have hblank : isSpace separator = true :=
      (sign_or_blank separator hseparator).resolve_left fun hsign => hsigns separator hsign hchar
    have htake : remaining.take (i + 1) = remaining.take i ++ [separator] := by
      rw [List.take_add_one, hchar]
      rfl
    have hsame : strip (remaining.take i ++ [separator]) = strip (remaining.take i) :=
      Text.stripBy_append_blank _ hblank
    rw [heq, htake, hsame]
    exact (hstrip _).trans (List.length_take_le _ _)

/-- What is left of a text behind a cut, without the blanks in front of it. -/
theorem strip_drop {remaining : Text} (htight : Tight remaining) (n : ℕ) :
    strip (remaining.drop n) = (remaining.drop n).dropWhile isSpace := by
  by_cases hnil : (remaining.drop n).dropWhile isSpace = []
  · rw [hnil]
    exact Text.stripBy_eq_nil.mpr (Text.ink_eq_nil.mpr (List.dropWhile_eq_nil_iff.mp hnil))
  · have hsuffix : (remaining.drop n).dropWhile isSpace <:+ remaining :=
      (List.dropWhile_suffix _).trans (List.drop_suffix _ _)
    obtain ⟨front, hfront⟩ := hsuffix
    have hlast : ∀ c ∈ ((remaining.drop n).dropWhile isSpace).reverse.head?, isSpace c = false := by
      intro c hc
      rw [List.head?_reverse] at hc
      refine htight.last c ?_
      rwa [← hfront, List.getLast?_append_of_ne_nil _ hnil]
    have hdrop := Text.dropWhile_eq_self hlast
    rw [strip, Text.stripBy, hdrop, List.reverse_reverse]

/-- The pieces are within the limit if no sign stands right behind the limit of one. -/
theorem length_fallbackFrom_le_limit (limit : {n : ℕ // 0 < n}) {paragraph : Text}
    (hsigns : NoSignBehind limit paragraph) (remaining before : Text)
    (heq : paragraph = before ++ remaining)
    (hbegin : remaining = [] ∨ Tight remaining ∧ CanBegin limit before) :
    ∀ piece ∈ fallbackFrom limit remaining, piece.length ≤ limit := by
  fun_induction fallbackFrom limit remaining generalizing before with
  | case1 remaining hlong piece ih =>
      obtain ⟨htight, hbegin⟩ := hbegin.resolve_left (by
        rintro rfl
        simp at hlong)
      have hpiece : piece.length ≤ limit :=
        length_piece_le hlong fun sign hsign => hsigns before remaining heq hbegin sign hsign
      have hrest := strip_drop htight (cutAt limit remaining)
      let blanks := (remaining.drop (cutAt limit remaining)).takeWhile isSpace
      have hnext := ih (before ++ remaining.take (cutAt limit remaining) ++ blanks) (by
          rw [heq, hrest, List.append_assoc, List.takeWhile_append_dropWhile, List.append_assoc,
            List.take_append_drop]) (by
          by_cases hnil : strip (remaining.drop (cutAt limit remaining)) = []
          · exact .inl hnil
          · exact .inr ⟨Text.tight_stripBy hnil,
              canBegin_cut limit.2 hlong fun c hc => List.mem_takeWhile_imp hc⟩)
      intro p hp
      rcases List.mem_append.mp hp with hp | hp
      · split_ifs at hp with hempty
        · cases hp
        · rwa [List.mem_singleton.mp hp]
      · exact hnext p hp
  | case2 hshort => simp
  | case3 remaining hshort hne =>
      intro p hp
      rw [List.mem_singleton.mp hp]
      omega

/-! ## Short sections -/

/-- Together the pieces are no longer than the text. -/
theorem sum_length_fallbackFrom_le (limit : {n : ℕ // 0 < n}) (remaining : Text) :
    ((fallbackFrom limit remaining).map List.length).sum ≤ remaining.length := by
  fun_induction fallbackFrom limit remaining with
  | case1 remaining hlong piece ih =>
      have hpiece : piece.length ≤ (remaining.take (cutAt limit remaining)).length :=
        Text.length_stripBy_le _
      have hrest : (strip (remaining.drop (cutAt limit remaining))).length ≤
          (remaining.drop (cutAt limit remaining)).length := Text.length_stripBy_le _
      rw [List.length_take] at hpiece
      rw [List.length_drop] at hrest
      rw [List.map_append, List.sum_append]
      split_ifs
      · rw [List.map_nil, List.sum_nil]
        omega
      · rw [List.map_singleton, List.sum_singleton]
        omega
  | case2 hshort => simp
  | case3 remaining hshort hne => simp

/-- Together the paragraphs are no longer than the text. -/
theorem sum_length_paragraphs_le (body : Text) :
    ((ChunkingConfig.paragraphs body).map List.length).sum ≤ body.length := by
  have hstrip (text : Text) : (strip text).length ≤ text.length := Text.length_stripBy_le text
  unfold ChunkingConfig.paragraphs
  dsimp only
  split_ifs
  · simpa using hstrip body
  · refine le_trans ?_ (Regex.sum_length_split_le ChunkingConfig.blankLine body)
    induction ChunkingConfig.blankLine.split body with
    | nil => simp
    | cons part rest ih =>
        have hpart := hstrip part
        rw [List.map_cons, List.filter_cons, List.map_cons, List.sum_cons]
        split_ifs
        · rw [List.map_cons, List.sum_cons]
          omega
        · omega

namespace ChunkingConfig

variable {config : ChunkingConfig}

/-- Together the parts are no longer than the text. -/
theorem sum_length_parts_le (config : ChunkingConfig) (body : Text) :
    ((config.parts body).map List.length).sum ≤ body.length := by
  refine le_trans ?_ (sum_length_paragraphs_le body)
  unfold parts
  induction paragraphs body with
  | nil => simp
  | cons paragraph rest ih =>
      have hsplit : ((config.hardSplit paragraph).map List.length).sum ≤ paragraph.length := by
        unfold hardSplit
        split_ifs
        · simp
        · exact (sum_length_fallbackFrom_le _ _).trans (Text.length_stripBy_le _)
      rw [List.flatMap_cons, List.map_append, List.sum_append, List.map_cons, List.sum_cons]
      omega

/-- Parts that fit into one chunk of the target length are packed into one. -/
theorem fitsFrom_of_total {parts : List Text} (hparts : ∀ part ∈ parts, Tight part) {current : Text}
    (hcurrent : current = [] ∨ Tight current)
    (htotal : current.length + (parts.map fun part => part.length + 2).sum ≤
      config.targetChars + if current = [] then 2 else 0) : config.FitsFrom current parts := by
  induction parts generalizing current with
  | nil => trivial
  | cons part parts ih =>
      have hpart : Tight part := hparts part List.mem_cons_self
      have hrest : ∀ p ∈ parts, Tight p := fun p hp => hparts p (List.mem_cons_of_mem _ hp)
      have htarget := config.target_le
      rw [List.map_cons, List.sum_cons] at htotal
      by_cases hempty : current = []
      · rw [if_pos hempty] at htotal
        have hstep : (config.addPart ⟨[], current⟩ part).current = part := by
          simp [addPart, flushes, hempty, candidate]
        refine ⟨by rw [Fits, if_pos hempty]; omega, ?_⟩
        rw [hstep]
        refine ih hrest (.inr hpart) ?_
        rw [if_neg hpart.ne_nil]
        omega
      · obtain ⟨hnew, htight⟩ := candidate_tight (hcurrent.resolve_left hempty) hpart
        have hlength : (candidate current part).length = current.length + 2 + part.length := by
          rw [hnew, List.length_append, List.length_cons, List.length_cons]
          omega
        rw [if_neg hempty] at htotal
        have hflush : config.shouldFlush current part = false := by
          simp only [shouldFlush, Bool.or_eq_false_iff, Bool.and_eq_false_iff, decide_eq_false_iff_not]
          omega
        have hstep : (config.addPart ⟨[], current⟩ part).current = candidate current part := by
          simp [addPart, flushes, hflush]
        refine ⟨by rw [Fits, if_neg hempty, if_neg (by simp [hflush])]; trivial, ?_⟩
        rw [hstep]
        refine ih hrest (.inr htight) ?_
        rw [if_neg htight.ne_nil, hlength]
        omega

/-- A text is packed into one chunk if it is so short that blank lines between all its characters
would not fill the target. -/
theorem fitsFrom_of_short {body : Text} (hshort : 3 * body.length ≤ config.targetChars + 2) :
    config.FitsFrom [] (config.parts body) := by
  rcases (config.parts_spec body).2 with hempty | htight
  · rw [hempty]
    exact ⟨by simp [Fits], trivial⟩
  · refine fitsFrom_of_total htight (.inl rfl) ?_
    have hsum := config.sum_length_parts_le body
    have hspaced : ((config.parts body).map fun part => part.length + 2).sum ≤
        3 * ((config.parts body).map List.length).sum := by
      generalize config.parts body = parts at htight
      induction parts with
      | nil => simp
      | cons part rest ih =>
          have hpos := List.length_pos_iff.mpr (htight part List.mem_cons_self).ne_nil
          have hrest := ih fun p hp => htight p (List.mem_cons_of_mem _ hp)
          simp only [List.map_cons, List.sum_cons]
          omega
    rw [List.length_nil, if_pos rfl]
    omega

/-- The configuration leaves room for the overlap in front of a part. -/
def HasRoom (config : ChunkingConfig) : Prop :=
  config.overlapChars = 0 ∨ config.overlapChars + 2 < config.maxChars

/-- What keeps the chunks of a section short enough: it makes one chunk, or there is room for the overlap
and no part is cut behind a sign at the limit. -/
def KeepsBound (config : ChunkingConfig) (body : Text) : Prop :=
  3 * body.length ≤ config.targetChars + 2 ∨
    config.HasRoom ∧ ∀ paragraph ∈ paragraphs body, NoSignBehind config.pieceLimit paragraph

/-- The parts are within the limit if no sign stands right behind the limit of one. -/
theorem length_parts_le_limit {body : Text}
    (hsigns : ∀ paragraph ∈ paragraphs body, NoSignBehind config.pieceLimit paragraph) :
    ∀ part ∈ config.parts body, part.length ≤ config.pieceLimit := by
  intro part hpart
  obtain ⟨paragraph, hparagraph, hin⟩ := List.mem_flatMap.mp hpart
  unfold hardSplit at hin
  split_ifs at hin with hshort
  · rw [List.mem_singleton.mp hin]
    exact hshort
  · have htight : Tight paragraph := by
      rcases (paragraphs_spec body).2 with hempty | htight
      · rw [hempty, List.mem_singleton] at hparagraph
        subst hparagraph
        simp at hshort
      · exact htight paragraph hparagraph
    have hstrip : strip paragraph = paragraph := htight.stripBy_eq
    rw [separatorFallback, hstrip] at hin
    exact length_fallbackFrom_le_limit _ (hsigns paragraph hparagraph) paragraph [] rfl
      (.inr ⟨htight, .inl rfl⟩) part hin

theorem fitsFrom_of_keepsBound {body : Text} (h : config.KeepsBound body) :
    config.FitsFrom [] (config.parts body) := by
  rcases h with hshort | ⟨hroom, hsigns⟩
  · exact fitsFrom_of_short hshort
  · exact fitsFrom_of_le hroom (length_parts_le_limit hsigns)

theorem tight_addPart {current part : Text} (hcurrent : current = [] ∨ Tight current)
    (hpart : Tight part) : Tight (config.addPart ⟨[], current⟩ part).current := by
  by_cases hempty : current = []
  · have hstep : (config.addPart ⟨[], current⟩ part).current = part := by
      simp [addPart, flushes, hempty, candidate]
    rwa [hstep]
  · have htight := hcurrent.resolve_left hempty
    unfold addPart
    split_ifs
    · exact (config.strip_overlap htight hpart).choose_spec.2.2
    · exact (candidate_tight htight hpart).2

/-- No part that is longer than the maximum ever fits. -/
theorem length_le_of_fitsFrom {parts : List Text} (hparts : ∀ part ∈ parts, Tight part) {current : Text}
    (hcurrent : current = [] ∨ Tight current) (h : config.FitsFrom current parts) :
    ∀ part ∈ parts, part.length ≤ config.maxChars := by
  induction parts generalizing current with
  | nil => simp
  | cons part parts ih =>
      have hpart : Tight part := hparts part List.mem_cons_self
      obtain ⟨hfits, hrest⟩ := h
      have hnext : Tight (config.addPart ⟨[], current⟩ part).current := tight_addPart hcurrent hpart
      intro p hp
      rcases List.mem_cons.mp hp with rfl | hp
      · unfold Fits at hfits
        split_ifs at hfits with hempty hflush hoverlap
        · exact hfits
        · omega
        · omega
        · obtain ⟨hnew, -⟩ := candidate_tight (hcurrent.resolve_left hempty) hpart
          have hle := length_candidate_le (Bool.eq_false_iff.mpr hflush)
          rw [hnew, List.length_append, List.length_cons, List.length_cons] at hle
          omega
      · exact ih (fun q hq => hparts q (List.mem_cons_of_mem _ hq)) (.inr hnext) hrest p hp

/-- Without overlap a paragraph with a sign behind its first characters makes a part that is too long. -/
theorem not_fitsFrom_of_sign (hoverlap : config.overlapChars = 0) {body paragraph : Text}
    (hparagraph : paragraph ∈ paragraphs body) {sign : Char} (hsign : sign ∈ signs)
    (hbehind : paragraph[config.maxChars]? = some sign) :
    ¬ config.FitsFrom [] (config.parts body) := by
  have hmin := config.min_pos
  have hle := config.min_le
  have htarget := config.target_le
  have hlimit : (config.pieceLimit : ℕ) = config.maxChars := by
    rw [pieceLimit_eq, hoverlap, if_pos rfl]
    omega
  have hlong : config.maxChars < paragraph.length := (List.getElem?_eq_some_iff.mp hbehind).1
  have htight : ∀ p ∈ paragraphs body, Tight p := by
    rcases (paragraphs_spec body).2 with hempty | htight
    · rw [hempty, List.mem_singleton] at hparagraph
      subst hparagraph
      cases hbehind
    · exact htight
  have hparts : ∀ part ∈ config.parts body, Tight part := by
    intro part hpart
    obtain ⟨p, hp, hin⟩ := List.mem_flatMap.mp hpart
    exact (config.hardSplit_spec (htight p hp)).2 part hin
  -- The sign is the last separator of the first window, and the cut is behind it.
  have hboundary : boundary config.pieceLimit paragraph = config.maxChars := by
    have hlast := (boundary_spec config.pieceLimit paragraph).2 config.maxChars
      (hlimit ▸ minimumBoundary_le config.pieceLimit.2) hlimit.ge sign (signs_subset hsign) hbehind
    have hwindow := boundary_le config.pieceLimit paragraph
    omega
  have hcut : cutAt config.pieceLimit paragraph = config.maxChars + 1 := by
    have hminimum := minimumBoundary_le config.pieceLimit.2
    unfold cutAt
    rw [hboundary, if_pos (by omega)]
    omega
  have htake : paragraph.take (config.maxChars + 1) = paragraph.take config.maxChars ++ [sign] := by
    rw [List.take_add_one, hbehind]
    rfl
  have hpiece : Tight (paragraph.take (config.maxChars + 1)) := by
    refine ⟨by simp [htake], fun c hc => (htight paragraph hparagraph).head c ?_, fun c hc => ?_⟩
    · rwa [List.head?_take, if_neg (Nat.succ_ne_zero _)] at hc
    · rw [htake, List.getLast?_concat] at hc
      obtain rfl : sign = c := by simpa using hc
      exact not_blank_of_sign sign hsign
  have hstrip : strip (paragraph.take (config.maxChars + 1)) =
      paragraph.take (config.maxChars + 1) := hpiece.stripBy_eq
  have hmem : paragraph.take (config.maxChars + 1) ∈ config.parts body := by
    refine List.mem_flatMap.mpr ⟨paragraph, hparagraph, ?_⟩
    have hsame : strip paragraph = paragraph := (htight paragraph hparagraph).stripBy_eq
    rw [hardSplit, if_neg (by omega), separatorFallback, hsame, fallbackFrom, if_pos (by omega), hcut,
      hstrip]
    dsimp only
    rw [if_neg hpiece.ne_nil]
    exact List.mem_append_left _ (List.mem_singleton_self _)
  intro hfits
  have hbound := length_le_of_fitsFrom hparts (.inl rfl) hfits _ hmem
  rw [List.length_take, Nat.min_eq_left hlong] at hbound
  omega

end ChunkingConfig

namespace HeadingAwareChunker

variable (chunker : HeadingAwareChunker)

/-- The text of the section with these lines. -/
def blockText (block : List Text) : Text :=
  Section.text ⟨[], chunker.blockTitle block, chunker.blockBody block⟩

/-- The texts of the sections are those that the headings give. -/
theorem map_text_sections {text : Text} (hne : splitlines text ≠ []) :
    (chunker.sections text).map Section.text =
      (chunker.blocks (splitlines text)).map chunker.blockText := by
  have htext : Section.text = (fun p : Option Text × Text => Section.text ⟨[], p.1, p.2⟩) ∘
      fun s : Section => (s.title, s.body) := rfl
  rw [htext, ← List.map_map, chunker.map_sections hne, List.map_map]
  rfl

/-- What the chunks of the text need to fit, said of the sections that the headings give. -/
theorem chunk_bound_iff_blocks (text : Text) :
    (∀ draft ∈ chunker.chunk text, draft.charCount ≤ chunker.config.maxChars) ↔
      ∀ block ∈ chunker.blocks (lines text),
        chunker.config.FitsFrom [] (chunker.config.parts (chunker.blockText block)) := by
  by_cases hempty : strip (replaceReturns text) = []
  · have hnone : lines text = [] := by
      rw [lines, hempty]
      rfl
    simp [chunk, hempty, hnone, blocks]
  · rw [chunk_bound_iff]
    have htexts := chunker.map_text_sections (lines_ne_nil hempty)
    constructor
    · intro h block hblock
      have hmem := List.mem_map_of_mem (f := chunker.blockText) hblock
      rw [lines, ← htexts] at hmem
      obtain ⟨s, hs, heq⟩ := List.mem_map.mp hmem
      rw [← heq]
      exact h s hs
    · intro h s hs
      have hmem := List.mem_map_of_mem (f := Section.text) hs
      rw [htexts] at hmem
      obtain ⟨block, hblock, heq⟩ := List.mem_map.mp hmem
      rw [← heq]
      exact h block hblock

/-- Chunks with room for an overlap of three characters. -/
def threeOverlap : HeadingAwareChunker where
  config := { targetChars := 10, minChars := 1, maxChars := 10, overlapChars := 3 }
  isDigit := Char.isDigit

/-- Chunks without overlap. -/
def tenCharacters : HeadingAwareChunker where
  config := { targetChars := 10, minChars := 1, maxChars := 10, overlapChars := 0 }
  isDigit := Char.isDigit

end HeadingAwareChunker

end Odirag.Chunking
