import Mathlib.Data.List.Chain
import Odirag.Foundations.Ink

/-!
# Replacing runs and splitting at gaps

Each longest run of a class of characters becomes one character of the class (`sub_plus`), which
changes nothing in a text whose runs are already such (`Collapsed.sub_eq`). Texts that are joined with
two separators fall into the same texts when they are split at two separators with any blanks between
them (`split_gap`), if no text begins or ends with a blank or has one after a separator.
-/

namespace Odirag.Regex

open Text (Tight)

/-! ## Runs -/

/-- Every run of the class becomes one `x`; `within` says that a run has begun. -/
def collapse (p : Char → Bool) (x : Char) (within : Bool) : Text → Text
  | [] => []
  | c :: text =>
      if p c then
        if within then collapse p x true text else x :: collapse p x true text
      else c :: collapse p x false text

/-- Every run of the class is one `x`. -/
structure Collapsed (p : Char → Bool) (x : Char) (text : Text) : Prop where
  only : ∀ c ∈ text, p c = true → c = x
  apart : text.IsChain fun c d => p c = true → p d = false

variable {p : Char → Bool} {x : Char}

/-- A run is matched as a whole. -/
theorem matchAt_plus_pos (n pos : ℕ) {c : Char} (hc : p c = true) (text : Text) :
    ∃ m, matchAt (plus (char p)) n pos (c :: text) = some m ∧
      m.text.length - 1 = (text.takeWhile p).length := by
  refine ⟨⟨pos, (c :: text).take ((c :: text).length - (text.dropWhile p).length), []⟩, ?_, ?_⟩
  · rw [matchAt, head?_run_plus_char n hc]
    rfl
  · have hlength : (text.takeWhile p).length + (text.dropWhile p).length = text.length := by
      rw [← List.length_append, List.takeWhile_append_dropWhile]
    rw [List.length_take, List.length_cons]
    omega

theorem matchAt_plus_neg (n pos : ℕ) {c : Char} (hc : p c = false) (text : Text) :
    matchAt (plus (char p)) n pos (c :: text) = none := by
  have hrun : run n (plus (char p)) ⟨c :: text, []⟩ = [] := by
    show (times (run n (char p)) 1 ⟨c :: text, []⟩).flatMap _ = []
    rw [times, run_char_neg n hc]
    rfl
  rw [matchAt, hrun]
  rfl

/-- Outside a run nothing is skipped, and within one its rest is. -/
theorem subFrom_plus (n pos : ℕ) (text : Text) :
    subFrom (plus (char p)) n [x] 0 pos text = collapse p x false text ∧
      subFrom (plus (char p)) n [x] (text.takeWhile p).length pos text = collapse p x true text := by
  induction text generalizing pos with
  | nil => exact ⟨rfl, rfl⟩
  | cons c text ih =>
      obtain ⟨houtside, hwithin⟩ := ih (pos + 1)
      by_cases hc : p c = true
      · obtain ⟨m, hm, hlength⟩ := matchAt_plus_pos n pos hc text
        constructor
        · rw [subFrom, hm]
          dsimp only
          rw [hlength, hwithin, collapse, if_pos hc]
          rfl
        · rw [List.takeWhile_cons_of_pos hc, List.length_cons, subFrom, hwithin, collapse, if_pos hc,
            if_pos rfl]
      · have hnone := matchAt_plus_neg n pos (Bool.eq_false_iff.mpr hc) text
        have hstep : ∀ within, c :: collapse p x false text = collapse p x within (c :: text) := by
          intro within
          rw [collapse, if_neg hc]
        rw [List.takeWhile_cons_of_neg hc, List.length_nil, subFrom, hnone]
        dsimp only
        rw [houtside]
        exact ⟨hstep false, hstep true⟩

theorem sub_plus (text : Text) : sub (plus (char p)) [x] text = collapse p x false text :=
  (subFrom_plus _ _ text).1

/-- Only characters of the class go or come. -/
theorem ink_collapse (hx : p x = true) (within : Bool) (text : Text) :
    Text.ink p (collapse p x within text) = Text.ink p text := by
  induction text generalizing within with
  | nil => rfl
  | cons c text ih =>
      rw [collapse]
      by_cases hc : p c = true
      · rw [if_pos hc, Text.ink_cons_of_blank hc]
        cases within with
        | true => exact ih true
        | false => exact (Text.ink_cons_of_blank hx _).trans (ih true)
      · rw [if_neg hc, Text.ink_cons, ih false, ← Text.ink_cons]

theorem ink_sub_plus (hx : p x = true) (text : Text) :
    Text.ink p (sub (plus (char p)) [x] text) = Text.ink p text := by
  rw [sub_plus]
  exact ink_collapse hx false text

theorem collapsed_collapse (hx : p x = true) (within : Bool) (text : Text) :
    Collapsed p x (collapse p x within text) ∧
      (within = true → ∀ c ∈ (collapse p x within text).head?, p c = false) := by
  induction text generalizing within with
  | nil => exact ⟨⟨by simp [collapse], .nil⟩, by simp [collapse]⟩
  | cons c text ih =>
      rw [collapse]
      by_cases hc : p c = true
      · obtain ⟨hrest, hhead⟩ := ih true
        rw [if_pos hc]
        cases within with
        | true => exact ⟨hrest, hhead⟩
        | false =>
            refine ⟨⟨fun d hd hp => ?_, hrest.apart.cons fun d hd _ => hhead rfl d hd⟩, by simp⟩
            rcases List.mem_cons.mp hd with rfl | hd
            · rfl
            · exact hrest.only d hd hp
      · obtain ⟨hrest, -⟩ := ih false
        rw [if_neg hc]
        refine ⟨⟨fun d hd hp => ?_, hrest.apart.cons fun d _ hp => absurd hp hc⟩, fun _ d hd => ?_⟩
        · rcases List.mem_cons.mp hd with rfl | hd
          · exact absurd hp hc
          · exact hrest.only d hd hp
        · obtain rfl : c = d := by simpa using hd
          exact Bool.eq_false_iff.mpr hc

/-- A part of such a text is one. -/
theorem Collapsed.part {a b c : Text} (h : Collapsed p x (a ++ b ++ c)) : Collapsed p x b :=
  ⟨fun d hd => h.only d (List.mem_append_left _ (List.mem_append_right _ hd)),
    h.apart.left_of_append.right_of_append⟩

theorem Collapsed.collapse_eq {text : Text} (h : Collapsed p x text) (within : Bool)
    (hwithin : within = true → ∀ c ∈ text.head?, p c = false) : collapse p x within text = text := by
  induction text generalizing within with
  | nil => rfl
  | cons c text ih =>
      have hrest : Collapsed p x text :=
        ⟨fun d hd => h.only d (List.mem_cons_of_mem c hd), h.apart.tail⟩
      rw [collapse]
      by_cases hc : p c = true
      · have hoff : within = false := by
          cases within with
          | false => rfl
          | true => rw [hwithin rfl c (by simp)] at hc; cases hc
        rw [if_pos hc, hoff, if_neg Bool.false_ne_true,
          ih hrest true fun _ d hd => (List.isChain_cons.mp h.apart).1 d hd hc,
          h.only c List.mem_cons_self hc]
      · rw [if_neg hc, ih hrest false (by simp)]

/-- Nothing is replaced in a text whose runs are collapsed. -/
theorem Collapsed.sub_eq {text : Text} (h : Collapsed p x text) :
    sub (plus (char p)) [x] text = text := by
  rw [sub_plus]
  exact h.collapse_eq false (by simp)

/-- What stripping leaves is a part of the text. -/
theorem stripBy_part (blank : Char → Bool) (text : Text) :
    ∃ a c, text = a ++ Text.stripBy blank text ++ c := by
  obtain ⟨a, ha⟩ := List.dropWhile_suffix (l := text) blank
  obtain ⟨c, hc⟩ := List.dropWhile_suffix (l := (text.dropWhile blank).reverse) blank
  refine ⟨a, c.reverse, ?_⟩
  rw [Text.stripBy, List.append_assoc, ← List.reverse_append, hc, List.reverse_reverse, ha]

/-- Collapsing and stripping once more changes nothing. -/
theorem stripBy_sub_stripBy (blank : Char → Bool) (hx : p x = true) (text : Text) :
    Text.stripBy blank (sub (plus (char p)) [x] (Text.stripBy blank (sub (plus (char p)) [x] text))) =
      Text.stripBy blank (sub (plus (char p)) [x] text) := by
  obtain ⟨a, c, hpart⟩ := stripBy_part blank (sub (plus (char p)) [x] text)
  have hcollapsed : Collapsed p x (sub (plus (char p)) [x] text) := by
    rw [sub_plus]
    exact (collapsed_collapse hx false text).1
  have hinner : Collapsed p x (Text.stripBy blank (sub (plus (char p)) [x] text)) := by
    rw [hpart] at hcollapsed
    exact hcollapsed.part
  rw [hinner.sub_eq]
  by_cases hnil : Text.stripBy blank (sub (plus (char p)) [x] text) = []
  · rw [hnil]
    rfl
  · exact (Text.tight_stripBy hnil).stripBy_eq

/-! ## The runs of a class -/

theorem matchAt_plus_text (n pos : ℕ) {c : Char} (hc : p c = true) (text : Text) :
    ∃ m, matchAt (plus (char p)) n pos (c :: text) = some m ∧ m.text = c :: text.takeWhile p := by
  refine ⟨⟨pos, (c :: text).take ((c :: text).length - (text.dropWhile p).length), []⟩, ?_, ?_⟩
  · rw [matchAt, head?_run_plus_char n hc]
    rfl
  · have hlength : (text.takeWhile p).length + (text.dropWhile p).length = text.length := by
      rw [← List.length_append, List.takeWhile_append_dropWhile]
    have htake : (c :: text).length - (text.dropWhile p).length = (text.takeWhile p).length + 1 := by
      rw [List.length_cons]
      omega
    dsimp only
    rw [htake, List.take_succ_cons, ← List.prefix_iff_eq_take.mp (List.takeWhile_prefix p)]

/-- Outside a run all its characters are still to come, and within one those after it. -/
theorem flatten_finditerFrom_plus (n pos : ℕ) (text : Text) :
    ((finditerFrom (plus (char p)) n 0 pos text).map Match.text).flatten = text.filter p ∧
      ((finditerFrom (plus (char p)) n (text.takeWhile p).length pos text).map Match.text).flatten =
        (text.dropWhile p).filter p := by
  induction text generalizing pos with
  | nil => exact ⟨rfl, rfl⟩
  | cons c text ih =>
      obtain ⟨houtside, hwithin⟩ := ih (pos + 1)
      by_cases hc : p c = true
      · obtain ⟨m, hm, htext⟩ := matchAt_plus_text n pos hc text
        have hrun : (text.takeWhile p).filter p = text.takeWhile p :=
          List.filter_eq_self.mpr fun d hd => List.mem_takeWhile_imp hd
        constructor
        · rw [finditerFrom, hm]
          dsimp only
          rw [htext, List.length_cons, Nat.add_sub_cancel, List.map_cons, List.flatten_cons, htext,
            hwithin, List.filter_cons_of_pos hc, List.cons_append]
          calc c :: (text.takeWhile p ++ (text.dropWhile p).filter p)
              = c :: (text.takeWhile p ++ text.dropWhile p).filter p := by
                rw [List.filter_append, hrun]
            _ = c :: text.filter p := by rw [List.takeWhile_append_dropWhile]
        · rw [List.takeWhile_cons_of_pos hc, List.length_cons, finditerFrom, hwithin,
            List.dropWhile_cons_of_pos hc]
      · have hnone := matchAt_plus_neg n pos (Bool.eq_false_iff.mpr hc) text
        rw [List.takeWhile_cons_of_neg hc, List.length_nil, List.dropWhile_cons_of_neg hc,
          finditerFrom, hnone, List.filter_cons_of_neg hc]
        exact ⟨houtside, houtside⟩

/-- Joined again, the longest runs of a class are the characters of the class. -/
theorem flatten_findall_plus (text : Text) :
    (findall (plus (char p)) text).flatten = text.filter p :=
  (flatten_finditerFrom_plus _ _ text).1

/-! ## Gaps -/

/-- Two separators with any characters of the class between them. -/
def gap (p : Char → Bool) (x : Char) : Regex := seq (chars [x]) (seq (star (char p)) (chars [x]))

theorem mem_lang_gap {w : Text} :
    w ∈ lang (gap p x) ↔ ∃ blanks, (∀ c ∈ blanks, p c = true) ∧ w = x :: (blanks ++ [x]) := by
  constructor
  · intro hw
    obtain ⟨first, hfirst, rest, hrest, rfl⟩ := Language.mem_mul.mp hw
    obtain ⟨blanks, hblanks, last, hlast, rfl⟩ := Language.mem_mul.mp hrest
    rw [mem_lang_chars.mp hfirst, mem_lang_chars.mp hlast]
    exact ⟨blanks, Text.mem_lang_star_char.mp hblanks, rfl⟩
  · rintro ⟨blanks, hblanks, rfl⟩
    have htail : blanks ++ [x] ∈ lang (seq (star (char p)) (chars [x])) :=
      Language.append_mem_mul (Text.mem_lang_star_char.mpr hblanks) (mem_lang_chars.mpr rfl)
    exact @Language.append_mem_mul _ _ _ [x] _ (mem_lang_chars.mpr rfl) htail

theorem plain_gap : plain (gap p x) = true := rfl

/-- The text at a match of a gap. -/
theorem matchAt_gap {n pos : ℕ} {text : Text} {m : Match}
    (h : matchAt (gap p x) n pos text = some m) :
    ∃ blanks rest, (∀ c ∈ blanks, p c = true) ∧ m.text = x :: (blanks ++ [x]) ∧
      text = x :: (blanks ++ x :: rest) := by
  obtain ⟨blanks, hblanks, hmatched⟩ := mem_lang_gap.mp (mem_lang_of_matchAt plain_gap h)
  obtain ⟨-, rest, hrest⟩ := matchAt_consumes h
  refine ⟨blanks, rest, hblanks, hmatched, ?_⟩
  rw [← hrest, hmatched]
  simp

theorem matchAt_gap_of_ne (n pos : ℕ) {c : Char} (hc : c ≠ x) (text : Text) :
    matchAt (gap p x) n pos (c :: text) = none := by
  rw [Option.eq_none_iff_forall_ne_some]
  intro m hm
  obtain ⟨blanks, rest, -, -, htext⟩ := matchAt_gap hm
  exact hc (List.cons.inj htext).1

/-- No gap begins at a separator that no blank follows. -/
theorem matchAt_gap_single (hx : p x = true) (n pos : ℕ) {text : Text}
    (hnext : ∀ c ∈ text.head?, p c = false) : matchAt (gap p x) n pos (x :: text) = none := by
  rw [Option.eq_none_iff_forall_ne_some]
  intro m hm
  obtain ⟨blanks, rest, hblanks, -, htext⟩ := matchAt_gap hm
  rw [(List.cons.inj htext).2] at hnext
  cases blanks with
  | nil =>
      have hfalse : p x = false := hnext x rfl
      rw [hx] at hfalse
      cases hfalse
  | cons c blanks =>
      have hfalse : p c = false := hnext c rfl
      rw [hblanks c List.mem_cons_self] at hfalse
      cases hfalse

/-- At two separators that no blank follows the gap is these two. -/
theorem matchAt_gap_double (hx : p x = true) (n pos : ℕ) {text : Text}
    (hnext : ∀ c ∈ text.head?, p c = false) :
    ∃ m, matchAt (gap p x) n pos (x :: x :: text) = some m ∧ m.text = [x, x] := by
  have hsome : (matchAt (gap p x) n pos (x :: x :: text)).isSome = true := by
    rw [matchAt_isSome]
    obtain ⟨c', hc', -⟩ := (consumes_run n plain_gap ⟨x :: x :: text, []⟩ text).mpr
      ⟨[x, x], mem_lang_gap.mpr ⟨[], by simp, rfl⟩, rfl⟩
    exact ⟨c', hc'⟩
  obtain ⟨m, hm⟩ := Option.isSome_iff_exists.mp hsome
  refine ⟨m, hm, ?_⟩
  obtain ⟨blanks, rest, hblanks, hmatched, htext⟩ := matchAt_gap hm
  have hrest : x :: text = blanks ++ x :: rest := (List.cons.inj htext).2
  -- More blanks would be blanks of the text that follows.
  cases blanks with
  | nil => exact hmatched
  | cons c blanks =>
      rw [(List.cons.inj hrest).2] at hnext
      cases blanks with
      | nil =>
          have hfalse : p x = false := hnext x rfl
          rw [hx] at hfalse
          cases hfalse
      | cons d blanks =>
          have hfalse : p d = false := hnext d rfl
          rw [hblanks d (by simp)] at hfalse
          cases hfalse

/-- A text without a gap: no blank at either end and none after a separator. -/
structure Solid (p : Char → Bool) (x : Char) (text : Text) : Prop where
  tight : Tight p text
  inner : text.IsChain fun c d => c = x → p d = false

/-- Such texts with a separator between them. -/
theorem Solid.join {a b : Text} (ha : Solid p x a) (hb : Solid p x b) (hx : p x = true) :
    Solid p x (a ++ x :: b) := by
  have hjoin := ha.tight.join hb.tight [x]
  rw [List.append_assoc] at hjoin
  refine ⟨hjoin, ha.inner.append (hb.inner.cons fun d hd _ => hb.tight.head d hd) ?_⟩
  intro c hc d hd hcx
  have hblank : p c = false := ha.tight.last c hc
  rw [hcx, hx] at hblank
  cases hblank

/-- The part that is read grows by such a text. -/
theorem splitFrom_solid (hx : p x = true) (n pos : ℕ) (part rest : Text) {text : Text}
    (hinner : text.IsChain fun c d => c = x → p d = false)
    (hlast : ∀ c ∈ text.getLast?, p c = false) :
    splitFrom (gap p x) n part 0 pos (text ++ rest) =
      splitFrom (gap p x) n (text.reverse ++ part) 0 (pos + text.length) rest := by
  induction text generalizing part pos with
  | nil => rfl
  | cons c text ih =>
      have hnone : matchAt (gap p x) n pos (c :: (text ++ rest)) = none := by
        by_cases hc : c = x
        · subst hc
          cases text with
          | nil =>
              have hfalse : p c = false := hlast c rfl
              rw [hx] at hfalse
              cases hfalse
          | cons d text =>
              refine matchAt_gap_single hx n pos fun e he => ?_
              obtain rfl : d = e := by simpa using he
              exact (List.isChain_cons.mp hinner).1 d rfl rfl
        · exact matchAt_gap_of_ne n pos hc _
      have hlater : ∀ d ∈ text.getLast?, p d = false := by
        intro d hd
        refine hlast d ?_
        rw [List.getLast?_cons, Option.mem_def.mp hd]
        rfl
      rw [List.cons_append, splitFrom, hnone]
      dsimp only
      rw [ih (pos + 1) (c :: part) hinner.tail hlater, List.reverse_cons, List.append_assoc,
        List.length_cons, show pos + 1 + text.length = pos + (text.length + 1) by omega]
      rfl

/-- The texts between the gaps, and at the end what is no gap: nothing, or one separator. -/
theorem splitFrom_gap (hx : p x = true) (n pos : ℕ) {text tail : Text} {texts : List Text}
    (hsolid : ∀ t ∈ text :: texts, Solid p x t) (htail : tail = [] ∨ tail = [x]) :
    (splitFrom (gap p x) n [] 0 pos (List.intercalate [x, x] (text :: texts) ++ tail)).map
      (Text.stripBy p) = text :: texts := by
  induction texts generalizing text pos with
  | nil =>
      have htext := hsolid text List.mem_cons_self
      rw [List.intercalate_singleton, splitFrom_solid hx n pos [] tail htext.inner htext.tight.last,
        List.append_nil]
      rcases htail with rfl | rfl
      · rw [splitFrom, List.reverse_reverse, List.map_singleton, htext.tight.stripBy_eq]
      · rw [splitFrom, matchAt_gap_single hx _ _ (by simp)]
        dsimp only
        rw [splitFrom, List.reverse_cons, List.reverse_reverse, List.map_singleton,
          htext.tight.stripBy_append_blank hx]
  | cons next texts ih =>
      have htext := hsolid text List.mem_cons_self
      have hnext := hsolid next (by simp)
      have hhead : ∀ c ∈ (List.intercalate [x, x] (next :: texts) ++ tail).head?, p c = false := by
        intro c hc
        refine hnext.tight.head c ?_
        obtain ⟨more, hmore⟩ : ∃ more, List.intercalate [x, x] (next :: texts) = next ++ more := by
          cases texts with
          | nil => exact ⟨[], by simp⟩
          | cons u texts => exact ⟨_, by rw [List.intercalate_cons_cons, List.append_assoc]⟩
        rwa [hmore, List.append_assoc, List.head?_append_of_ne_nil _ hnext.tight.ne_nil] at hc
      obtain ⟨m, hm, hmatched⟩ := matchAt_gap_double hx n (pos + text.length) hhead
      have hlater : (splitFrom (gap p x) n [] 0 (pos + text.length + 1 + 1)
          (List.intercalate [x, x] (next :: texts) ++ tail)).map (Text.stripBy p) = next :: texts :=
        ih (pos + text.length + 1 + 1) fun t ht => hsolid t (List.mem_cons_of_mem _ ht)
      rw [List.intercalate_cons_cons, List.append_assoc, List.append_assoc,
        splitFrom_solid hx n pos [] _ htext.inner htext.tight.last, List.append_nil,
        List.cons_append, List.singleton_append, splitFrom, hm]
      dsimp only
      rw [hmatched, List.map_cons, List.reverse_reverse, htext.tight.stripBy_eq,
        show [x, x].length - 1 = 0 + 1 from rfl, splitFrom, hlater]

/-- Splitting at the gaps gives back the texts that were joined with two separators. -/
theorem split_gap (hx : p x = true) {text tail : Text} {texts : List Text}
    (hsolid : ∀ t ∈ text :: texts, Solid p x t) (htail : tail = [] ∨ tail = [x]) :
    (split (gap p x) (List.intercalate [x, x] (text :: texts) ++ tail)).map (Text.stripBy p) =
      text :: texts :=
  splitFrom_gap hx _ 0 hsolid htail

end Odirag.Regex
