import Odirag.Foundations.Regex

/-!
# What is left of a text without its blanks

Stripping, joining with blanks, splitting at blanks and replacing blanks by blanks move no other
character. Which characters are blank is a parameter.
-/

namespace Odirag.Text

/-- The characters of a text that are not blank. -/
def ink (blank : Char → Bool) (text : Text) : Text := text.filter fun c => !blank c

variable {blank : Char → Bool}

@[simp] theorem ink_nil : ink blank [] = [] := rfl

@[simp] theorem ink_append (a b : Text) : ink blank (a ++ b) = ink blank a ++ ink blank b :=
  List.filter_append ..

theorem ink_cons (c : Char) (text : Text) : ink blank (c :: text) = ink blank [c] ++ ink blank text :=
  ink_append [c] text

theorem ink_eq_nil {text : Text} : ink blank text = [] ↔ ∀ c ∈ text, blank c = true := by
  simp [ink, List.filter_eq_nil_iff]

theorem ink_cons_of_blank {c : Char} (h : blank c = true) (text : Text) :
    ink blank (c :: text) = ink blank text := by
  simp [ink, h]

/-! ## Stripping -/

theorem ink_dropWhile (text : Text) : ink blank (text.dropWhile blank) = ink blank text := by
  induction text with
  | nil => rfl
  | cons c text ih =>
      by_cases h : blank c = true
      · rw [List.dropWhile_cons_of_pos h, ih, ink_cons_of_blank h]
      · rw [List.dropWhile_cons_of_neg h]

theorem ink_reverse (text : Text) : ink blank text.reverse = (ink blank text).reverse :=
  List.filter_reverse

theorem ink_stripBy (text : Text) : ink blank (stripBy blank text) = ink blank text := by
  rw [stripBy, ink_reverse, ink_dropWhile, ink_reverse, ink_dropWhile, List.reverse_reverse]

/-- A stripped text is empty exactly if it had blanks only. -/
theorem stripBy_eq_nil {text : Text} : stripBy blank text = [] ↔ ink blank text = [] := by
  constructor
  · intro h
    rw [← ink_stripBy, h, ink_nil]
  · intro h
    have hdrop : text.dropWhile blank = [] :=
      List.dropWhile_eq_nil_iff.mpr fun c hc => ink_eq_nil.mp h c hc
    simp [stripBy, hdrop]

theorem length_stripBy_le (text : Text) : (stripBy blank text).length ≤ text.length := by
  have hinner := (List.dropWhile_suffix (l := (text.dropWhile blank).reverse) blank).length_le
  have houter := (List.dropWhile_suffix (l := text) blank).length_le
  rw [stripBy, List.length_reverse]
  rw [List.length_reverse] at hinner
  omega

/-- A text is what is stripped in front, the rest and what is stripped behind. -/
theorem eq_stripBy (text : Text) :
    text = text.takeWhile blank ++ (stripBy blank text ++
      ((text.dropWhile blank).reverse.takeWhile blank).reverse) := by
  have hbehind := List.takeWhile_append_dropWhile (p := blank) (l := (text.dropWhile blank).reverse)
  rw [stripBy, ← List.reverse_append, hbehind, List.reverse_reverse,
    List.takeWhile_append_dropWhile]

/-! ## Stripped texts -/

/-- A text that begins and ends with a character that is not blank. -/
structure Tight (blank : Char → Bool) (text : Text) : Prop where
  ne_nil : text ≠ []
  head : ∀ c ∈ text.head?, blank c = false
  last : ∀ c ∈ text.getLast?, blank c = false

theorem dropWhile_eq_self {text : Text} (h : ∀ c ∈ text.head?, blank c = false) :
    text.dropWhile blank = text := by
  cases text with
  | nil => rfl
  | cons c text =>
      have hc : blank c = false := h c (by simp)
      rw [List.dropWhile_cons_of_neg (by simp [hc])]

/-- Nothing is stripped from such a text. -/
theorem Tight.stripBy_eq {text : Text} (h : Tight blank text) : stripBy blank text = text := by
  rw [stripBy, dropWhile_eq_self h.head, dropWhile_eq_self, List.reverse_reverse]
  rw [List.head?_reverse]
  exact h.last

/-- A blank after such a text is stripped. -/
theorem Tight.stripBy_append_blank {text : Text} (h : Tight blank text) {c : Char}
    (hc : blank c = true) : stripBy blank (text ++ [c]) = text := by
  have hhead : ∀ d ∈ (text ++ [c]).head?, blank d = false := by
    rw [List.head?_append_of_ne_nil _ h.ne_nil]
    exact h.head
  have hlast : ∀ d ∈ text.reverse.head?, blank d = false := by
    rw [List.head?_reverse]
    exact h.last
  rw [stripBy, dropWhile_eq_self hhead, List.reverse_append, List.reverse_singleton,
    List.singleton_append, List.dropWhile_cons_of_pos hc, dropWhile_eq_self hlast,
    List.reverse_reverse]

theorem head?_dropWhile (text : Text) : ∀ c ∈ (text.dropWhile blank).head?, blank c = false := by
  intro c hc
  have hhead := List.head?_dropWhile_not blank text
  rw [Option.mem_def.mp hc] at hhead
  simpa using hhead

/-- What stripping leaves. -/
theorem tight_stripBy {text : Text} (h : stripBy blank text ≠ []) :
    Tight blank (stripBy blank text) := by
  refine ⟨h, fun c hc => ?_, fun c hc => ?_⟩
  · have hfront : stripBy blank text <+: text.dropWhile blank := by
      have hsuffix := List.dropWhile_suffix (l := (text.dropWhile blank).reverse) blank
      simpa [stripBy] using List.reverse_prefix.mpr hsuffix
    obtain ⟨rest, hrest⟩ := hfront
    refine head?_dropWhile text c ?_
    rwa [← hrest, List.head?_append_of_ne_nil _ h]
  · rw [stripBy, List.getLast?_reverse] at hc
    exact head?_dropWhile _ c hc

/-- Blanks around such a text are stripped. -/
theorem Tight.stripBy_around {text before after : Text} (h : Tight blank text)
    (hbefore : ∀ c ∈ before, blank c = true) (hafter : ∀ c ∈ after, blank c = true) :
    stripBy blank (before ++ text ++ after) = text := by
  have hhead : ∀ c ∈ (text ++ after).head?, blank c = false := by
    rw [List.head?_append_of_ne_nil _ h.ne_nil]
    exact h.head
  have hlast : ∀ c ∈ text.reverse.head?, blank c = false := by
    rw [List.head?_reverse]
    exact h.last
  rw [stripBy, List.append_assoc, List.dropWhile_append_of_pos hbefore, dropWhile_eq_self hhead,
    List.reverse_append, List.dropWhile_append_of_pos fun c hc => hafter c (List.mem_reverse.mp hc),
    dropWhile_eq_self hlast, List.reverse_reverse]

/-- A blank at the end of any text is stripped. -/
theorem stripBy_append_blank (text : Text) {c : Char} (hc : blank c = true) :
    stripBy blank (text ++ [c]) = stripBy blank text := by
  rw [stripBy, stripBy, List.dropWhile_append]
  split_ifs with hempty
  · rw [List.isEmpty_iff.mp hempty, List.dropWhile_cons_of_pos hc]
    rfl
  · rw [List.reverse_append, List.reverse_singleton, List.singleton_append,
      List.dropWhile_cons_of_pos hc]

/-- Two such texts with anything between them. -/
theorem Tight.join {a b : Text} (ha : Tight blank a) (hb : Tight blank b) (between : Text) :
    Tight blank (a ++ between ++ b) := by
  refine ⟨by simp [ha.ne_nil], fun c hc => ha.head c ?_, fun c hc => hb.last c ?_⟩
  · rwa [List.append_assoc, List.head?_append_of_ne_nil _ ha.ne_nil] at hc
  · rwa [List.getLast?_append_of_ne_nil _ hb.ne_nil] at hc

theorem Tight.ink_ne_nil {text : Text} (h : Tight blank text) : ink blank text ≠ [] := by
  rw [Ne, ← stripBy_eq_nil, h.stripBy_eq]
  exact h.ne_nil

/-! ## Joining and splitting -/

theorem ink_intercalate {separator : Text} (h : ∀ c ∈ separator, blank c = true)
    (texts : List Text) :
    ink blank (List.intercalate separator texts) = texts.flatMap (ink blank) := by
  induction texts with
  | nil => rfl
  | cons text texts ih =>
      cases texts with
      | nil => simp
      | cons next texts =>
          rw [List.intercalate_cons_cons, ink_append, ink_append, ink_eq_nil.mpr h, List.append_nil,
            ih]
          rfl

theorem ink_joinLines (h : blank '\n' = true) (texts : List Text) :
    ink blank (joinLines texts) = texts.flatMap (ink blank) :=
  ink_intercalate (by simpa using h) texts

theorem ink_splitOnP {p : Char → Bool} (h : ∀ c, p c = true → blank c = true) (text : Text) :
    (text.splitOnP p).flatMap (ink blank) = ink blank text := by
  induction text with
  | nil => simp
  | cons c text ih =>
      rw [List.splitOnP_cons_eq_if_modifyHead]
      split_ifs with hc
      · rw [List.flatMap_cons, ink_nil, List.nil_append, ih, ink_cons_of_blank (h c hc)]
      · obtain ⟨first, rest, heq⟩ := List.exists_cons_of_ne_nil (List.splitOnP_ne_nil p text)
        rw [heq] at ih ⊢
        simp only [List.modifyHead_cons, List.flatMap_cons] at ih ⊢
        rw [ink_cons, ink_cons c text, List.append_assoc, ih]

theorem ink_replaceFrom {old new : Text} (hold : ∀ c ∈ old, blank c = true)
    (hnew : ∀ c ∈ new, blank c = true) (hne : old ≠ []) (skip : ℕ) (text : Text) :
    ink blank (replaceFrom old new skip text) = ink blank (text.drop skip) := by
  induction text generalizing skip with
  | nil => simp [replaceFrom]
  | cons c text ih =>
      cases skip with
      | succ skip => rw [replaceFrom, ih, List.drop_succ_cons]
      | zero =>
          rw [replaceFrom, List.drop_zero]
          split_ifs with hfront
          · obtain ⟨rest, hrest⟩ := List.isPrefixOf_iff_prefix.mp hfront
            have hdrop : text.drop (old.length - 1) = rest := by
              have hpos : old.length - 1 + 1 = old.length :=
                Nat.sub_add_cancel (List.length_pos_iff.mpr hne)
              rw [← List.drop_succ_cons (a := c), hpos, ← hrest, List.drop_left]
            rw [ink_append, ink_eq_nil.mpr hnew, ih, hdrop, ← hrest, ink_append,
              ink_eq_nil.mpr hold]
          · rw [ink_cons, ih, List.drop_zero, ← ink_cons]

theorem ink_replace {old new : Text} (hold : ∀ c ∈ old, blank c = true)
    (hnew : ∀ c ∈ new, blank c = true) (hne : old ≠ []) (text : Text) :
    ink blank (replace text old new) = ink blank text := by
  rw [replace, ink_replaceFrom hold hnew hne, List.drop_zero]

/-! ## Regular expressions -/

open Regex

/-- The expression matches blanks only, and at least one. -/
def MatchesBlanks (blank : Char → Bool) (r : Regex) : Prop :=
  plain r = true ∧ ∀ w ∈ lang r, w ≠ [] ∧ ∀ c ∈ w, blank c = true

theorem mem_lang_star_char {p : Char → Bool} {w : Text} :
    w ∈ lang (star (char p)) ↔ ∀ c ∈ w, p c = true := by
  change w ∈ letters p ^ 0 * KStar.kstar (letters p) ↔ _
  rw [pow_zero, one_mul]
  exact mem_kstar_letters

/-- Blanks between two characters that are blank. -/
theorem matchesBlanks_between {p : Char → Bool} (h : ∀ c, p c = true → blank c = true)
    {first last : Char} (hfirst : blank first = true) (hlast : blank last = true) :
    MatchesBlanks blank (seq (chars [first]) (seq (star (char p)) (chars [last]))) := by
  refine ⟨rfl, fun w hw => ?_⟩
  obtain ⟨v, hv, rest, hrest, rfl⟩ := Language.mem_mul.mp hw
  obtain ⟨blanks, hblanks, u, hu, rfl⟩ := Language.mem_mul.mp hrest
  rw [mem_lang_chars.mp hv, mem_lang_chars.mp hu]
  refine ⟨by simp, fun d hd => ?_⟩
  simp only [List.cons_append, List.nil_append, List.mem_cons, List.mem_append, List.not_mem_nil,
    or_false] at hd
  rcases hd with rfl | hd | rfl
  · exact hfirst
  · exact h d (mem_lang_star_char.mp hblanks d hd)
  · exact hlast

variable {r : Regex}

/-- A match of blanks at the front of a text. -/
theorem MatchesBlanks.matchAt (hr : MatchesBlanks blank r) {n pos : ℕ} {c : Char} {text : Text}
    {m : Match} (h : matchAt r n pos (c :: text) = some m) :
    ink blank (c :: text) = ink blank (text.drop (m.text.length - 1)) := by
  obtain ⟨hne, hblank⟩ := hr.2 m.text (mem_lang_of_matchAt hr.1 h)
  obtain ⟨-, rest, hrest⟩ := matchAt_consumes h
  have hpos : m.text.length - 1 + 1 = m.text.length :=
    Nat.sub_add_cancel (List.length_pos_iff.mpr hne)
  rw [← List.drop_succ_cons (a := c), hpos, ← hrest, List.drop_left, ink_append,
    ink_eq_nil.mpr hblank, List.nil_append]

theorem ink_splitFrom (hr : MatchesBlanks blank r) (n : ℕ) (part : Text) (skip pos : ℕ)
    (text : Text) : (splitFrom r n part skip pos text).flatMap (ink blank) =
      ink blank part.reverse ++ ink blank (text.drop skip) := by
  induction text generalizing part skip pos with
  | nil => simp [splitFrom]
  | cons c text ih =>
      cases skip with
      | succ skip => rw [splitFrom, ih, List.drop_succ_cons]
      | zero =>
          rw [splitFrom]
          split
          · next m hm =>
              rw [List.flatMap_cons, ih, List.drop_zero, hr.matchAt hm]
              rfl
          · rw [ih, List.reverse_cons, ink_append, List.append_assoc, ← ink_append]
            rfl

/-- Splitting at blanks loses blanks only. -/
theorem ink_split (hr : MatchesBlanks blank r) (text : Text) :
    (split r text).flatMap (ink blank) = ink blank text := by
  simp [split, ink_splitFrom hr]

end Odirag.Text
