import Mathlib.Algebra.BigOperators.Group.List.Basic
import Mathlib.Algebra.GroupWithZero.Nat
import Mathlib.Computability.Language
import Odirag.Foundations.Text

/-!
# Backtracking regular expressions

A matcher tries the alternatives of an expression in order of preference, so what it returns is the
list of all ways to match, the preferred one first. `search`, `finditer`, `sub` and `split` take the
first way at the leftmost position, as the regular expressions of a scripting language do.

An expression without assertions has a language. `exists_mem_run` says that the ways to match are
the words of that language, and `search_isSome_iff` that a search succeeds exactly on the texts in
which a word of it occurs. Preference decides which word is found, never whether one is.
-/

namespace Odirag

inductive Regex where
  | eps
  | char (p : Char → Bool)
  | seq (r s : Regex)
  | alt (r s : Regex)
  /-- At least `least` and at most `most` copies, as many (`greedy`) or as few as possible. -/
  | rep (r : Regex) (least : ℕ) (most : Option ℕ) (greedy : Bool)
  | group (name : String) (r : Regex)
  /-- Nothing is consumed, and `r` must not match here. -/
  | notAhead (r : Regex)
  /-- The start of the text. -/
  | start

namespace Regex

/-- The text still to be matched and the groups captured so far, the latest first. -/
structure Cursor where
  rest : Text
  groups : List (String × Text)

/-- Exactly this many steps. -/
def times (step : Cursor → List Cursor) : ℕ → Cursor → List Cursor
  | 0, c => [c]
  | k + 1, c => (step c).flatMap (times step k)

/-- At most this many steps, the preferred number first. -/
def upTo (step : Cursor → List Cursor) (greedy : Bool) : ℕ → Cursor → List Cursor
  | 0, c => [c]
  | k + 1, c =>
      if greedy then (step c).flatMap (upTo step greedy k) ++ [c]
      else c :: (step c).flatMap (upTo step greedy k)

/-- All ways to match at the cursor, in order of preference; `n` is the length of the whole text.
The repeated expressions consume text, so that the rest of the text bounds how often one repeats. -/
def run (n : ℕ) : Regex → Cursor → List Cursor
  | eps, c => [c]
  | char p, c =>
      match c.rest with
      | [] => []
      | x :: rest => if p x then [{ c with rest := rest }] else []
  | seq r s, c => (run n r c).flatMap (run n s)
  | alt r s, c => run n r c ++ run n s c
  | rep r least most greedy, c =>
      (times (run n r) least c).flatMap fun c' =>
        upTo (run n r) greedy
          (match most with
            | none => c'.rest.length
            | some most => most - least) c'
  | group name r, c =>
      (run n r c).map fun c' =>
        { c' with groups := (name, c.rest.take (c.rest.length - c'.rest.length)) :: c'.groups }
  | notAhead r, c => if (run n r c).isEmpty then [c] else []
  | start, c => if c.rest.length = n then [c] else []

/-! ## Matches -/

/-- A match: where it starts, the text matched and the captured groups. -/
structure Match where
  start : ℕ
  text : Text
  groups : List (String × Text)

/-- Where a match ends. -/
def Match.stop (m : Match) : ℕ := m.start + m.text.length

/-- The text of a group, `none` if the match did not pass through it. -/
def Match.group (m : Match) (name : String) : Option Text := m.groups.lookup name

/-- The preferred match at a position. -/
def matchAt (r : Regex) (n pos : ℕ) (text : Text) : Option Match :=
  (run n r ⟨text, []⟩).head?.map fun c => ⟨pos, text.take (text.length - c.rest.length), c.groups⟩

def searchFrom (r : Regex) (n pos : ℕ) : Text → Option Match
  | [] => matchAt r n pos []
  | c :: rest => (matchAt r n pos (c :: rest)).or (searchFrom r n (pos + 1) rest)

/-- The leftmost match. -/
def search (r : Regex) (text : Text) : Option Match := searchFrom r text.length 0 text

/-- A match of the whole text exists. -/
def fullmatch (r : Regex) (text : Text) : Bool :=
  (run text.length r ⟨text, []⟩).any fun c => c.rest.isEmpty

/-- The matches from here on; `skip` characters belong to the last one. The expression does not match
the empty text. -/
def finditerFrom (r : Regex) (n skip pos : ℕ) : Text → List Match
  | [] => []
  | c :: rest =>
      match skip with
      | skip + 1 => finditerFrom r n skip (pos + 1) rest
      | 0 =>
          match matchAt r n pos (c :: rest) with
          | some m => m :: finditerFrom r n (m.text.length - 1) (pos + 1) rest
          | none => finditerFrom r n 0 (pos + 1) rest

/-- All matches, left to right and without overlap. -/
def finditer (r : Regex) (text : Text) : List Match := finditerFrom r text.length 0 0 text

/-- The texts of all matches. -/
def findall (r : Regex) (text : Text) : List Text := (finditer r text).map Match.text

/-- Replace the matches from here on. -/
def subFrom (r : Regex) (n : ℕ) (new : Text) (skip pos : ℕ) : Text → Text
  | [] => []
  | c :: rest =>
      match skip with
      | skip + 1 => subFrom r n new skip (pos + 1) rest
      | 0 =>
          match matchAt r n pos (c :: rest) with
          | some m => new ++ subFrom r n new (m.text.length - 1) (pos + 1) rest
          | none => c :: subFrom r n new 0 (pos + 1) rest

/-- Replace every match. -/
def sub (r : Regex) (new text : Text) : Text := subFrom r text.length new 0 0 text

/-- Split the text at the matches from here on; `part` is the part read so far, reversed. -/
def splitFrom (r : Regex) (n : ℕ) (part : Text) (skip pos : ℕ) : Text → List Text
  | [] => [part.reverse]
  | c :: rest =>
      match skip with
      | skip + 1 => splitFrom r n part skip (pos + 1) rest
      | 0 =>
          match matchAt r n pos (c :: rest) with
          | some m => part.reverse :: splitFrom r n [] (m.text.length - 1) (pos + 1) rest
          | none => splitFrom r n (c :: part) 0 (pos + 1) rest

/-- The parts between the matches. -/
def split (r : Regex) (text : Text) : List Text := splitFrom r text.length [] 0 0 text

/-! ## Building expressions -/

/-- This text. -/
def chars (text : Text) : Regex := text.foldr (fun c r => seq (char (· == c)) r) eps

/-- A literal text. -/
def lit (word : String) (letters : Chars word := by exact .mk _) : Regex :=
  chars letters.text

/-- The first expression that matches, in this order. -/
def oneOf : List Regex → Regex
  | [] => notAhead eps
  | [r] => r
  | r :: rest => alt r (oneOf rest)

/-- One of these literal texts. -/
def words (ws : List String)
    (letters : CharsOf ws := by repeat' first | exact .nil | apply CharsOf.cons (.mk _)) : Regex :=
  oneOf (letters.texts.map chars)

/-- One after the other. -/
def seqs : List Regex → Regex
  | [] => eps
  | [r] => r
  | r :: rest => seq r (seqs rest)

/-- One of these characters. -/
def anyOf (word : String) (letters : Chars word := by exact .mk _) : Regex :=
  char fun c => c ∈ letters.text

def opt (r : Regex) : Regex := rep r 0 (some 1) true

def star (r : Regex) : Regex := rep r 0 none true

def plus (r : Regex) : Regex := rep r 1 none true

/-- Between `least` and `most` copies, as many as possible. -/
def between (r : Regex) (least most : ℕ) : Regex := rep r least (some most) true

/-- Between `least` and `most` copies, as few as possible. -/
def lazily (r : Regex) (least most : ℕ) : Regex := rep r least (some most) false

/-- Exactly this many copies. -/
def exactly (r : Regex) (k : ℕ) : Regex := rep r k (some k) true

/-! ## Languages -/

/-- Nothing but the text consumed decides a match: no assertion occurs. -/
def plain : Regex → Bool
  | eps | char _ => true
  | seq r s | alt r s => plain r && plain s
  | rep r _ _ _ | group _ r => plain r
  | notAhead _ | start => false

/-- The words of one character of a class. -/
def letters (p : Char → Bool) : Language Char := {w | ∃ c, p c = true ∧ w = [c]}

/-- At most `k` words of a language, one after the other. -/
def copies (L : Language Char) (k : ℕ) : Language Char := {w | ∃ i ≤ k, w ∈ L ^ i}

theorem mem_copies {L : Language Char} {k : ℕ} {w : Text} : w ∈ copies L k ↔ ∃ i ≤ k, w ∈ L ^ i :=
  Iff.rfl

/-- The words of an expression without assertions. -/
def lang : Regex → Language Char
  | eps | notAhead _ | start => 1
  | char p => letters p
  | seq r s => lang r * lang s
  | alt r s => lang r + lang s
  | rep r least none _ => lang r ^ least * KStar.kstar (lang r)
  | rep r least (some most) _ => lang r ^ least * copies (lang r) (most - least)
  | group _ r => lang r

/-- The steps consume exactly the words of a language. -/
def Consumes (step : Cursor → List Cursor) (L : Language Char) : Prop :=
  ∀ c y, (∃ c' ∈ step c, c'.rest = y) ↔ ∃ w ∈ L, c.rest = w ++ y

theorem Consumes.bind {step next : Cursor → List Cursor} {L M : Language Char}
    (hstep : Consumes step L) (hnext : Consumes next M) :
    Consumes (fun c => (step c).flatMap next) (L * M) := by
  intro c y
  constructor
  · rintro ⟨c', hc', rfl⟩
    obtain ⟨d, hd, hdc⟩ := List.mem_flatMap.mp hc'
    obtain ⟨v, hv, hrest⟩ := (hstep c d.rest).mp ⟨d, hd, rfl⟩
    obtain ⟨w, hw, hrest'⟩ := (hnext d c'.rest).mp ⟨c', hdc, rfl⟩
    exact ⟨v ++ w, Language.append_mem_mul hv hw, by rw [hrest, hrest', List.append_assoc]⟩
  · rintro ⟨u, hu, hrest⟩
    obtain ⟨v, hv, w, hw, rfl⟩ := Language.mem_mul.mp hu
    obtain ⟨d, hd, hdr⟩ := (hstep c (w ++ y)).mpr ⟨v, hv, by rw [hrest, List.append_assoc]⟩
    obtain ⟨c', hc', hy⟩ := (hnext d y).mpr ⟨w, hw, hdr⟩
    exact ⟨c', List.mem_flatMap.mpr ⟨d, hd, hc'⟩, hy⟩

theorem consumes_pure : Consumes (fun c => [c]) 1 := by
  intro c y
  simp [Language.mem_one]

theorem Consumes.times {step : Cursor → List Cursor} {L : Language Char} (hstep : Consumes step L)
    (k : ℕ) : Consumes (times step k) (L ^ k) := by
  induction k with
  | zero =>
      rw [pow_zero]
      exact consumes_pure
  | succ k ih =>
      rw [pow_succ']
      exact hstep.bind ih

theorem Consumes.upTo {step : Cursor → List Cursor} {L : Language Char} (hstep : Consumes step L)
    (greedy : Bool) (k : ℕ) : Consumes (upTo step greedy k) (copies L k) := by
  induction k with
  | zero =>
      intro c y
      show (∃ c' ∈ [c], c'.rest = y) ↔ _
      simp [mem_copies, Language.mem_one]
  | succ k ih =>
      intro c y
      -- Whichever is preferred, one copy and then at most `k`, or none.
      have hmem : ∀ c', c' ∈ Regex.upTo step greedy (k + 1) c ↔
          c' ∈ (step c).flatMap (Regex.upTo step greedy k) ∨ c' = c := by
        intro c'
        cases greedy <;> simp [Regex.upTo, or_comm]
      constructor
      · rintro ⟨c', hc', rfl⟩
        rcases (hmem c').mp hc' with hmore | rfl
        · obtain ⟨u, hu, hrest⟩ := (hstep.bind ih c c'.rest).mp ⟨c', hmore, rfl⟩
          obtain ⟨v, hv, w, ⟨i, hi, hw⟩, rfl⟩ := Language.mem_mul.mp hu
          refine ⟨v ++ w, ⟨i + 1, by omega, ?_⟩, hrest⟩
          rw [pow_succ']
          exact Language.append_mem_mul hv hw
        · exact ⟨[], ⟨0, by omega, by simp [Language.mem_one]⟩, rfl⟩
      · rintro ⟨w, ⟨i, hi, hw⟩, hrest⟩
        cases i with
        | zero =>
            rw [pow_zero, Language.mem_one] at hw
            exact ⟨c, (hmem c).mpr (.inr rfl), by rw [hrest, hw, List.nil_append]⟩
        | succ i =>
            rw [pow_succ'] at hw
            obtain ⟨u, hu, v, hv, rfl⟩ := Language.mem_mul.mp hw
            have hword : u ++ v ∈ L * copies L k :=
              Language.append_mem_mul hu ⟨i, by omega, hv⟩
            obtain ⟨c', hc', hy⟩ := (hstep.bind ih c y).mpr ⟨u ++ v, hword, hrest⟩
            exact ⟨c', (hmem c').mpr (.inl hc'), hy⟩

/-- The rest of the text is as good a bound as none: a word of the star splits into words that are not
empty. -/
theorem mem_kstar_iff_bounded {L : Language Char} {w y : Text} :
    w ∈ KStar.kstar L ↔ ∃ i ≤ (w ++ y).length, w ∈ L ^ i := by
  constructor
  · intro hw
    rw [Language.kstar_def_nonempty] at hw
    obtain ⟨parts, rfl, hparts⟩ := hw
    refine ⟨parts.length, ?_, Language.mem_pow.mpr ⟨parts, rfl, rfl, fun p hp => (hparts p hp).1⟩⟩
    have hlen : parts.length ≤ parts.flatten.length := by
      rw [List.length_flatten]
      rw [← List.length_map (f := List.length)]
      refine List.length_le_sum_of_one_le _ ?_
      intro k hk
      obtain ⟨p, hp, rfl⟩ := List.mem_map.mp hk
      exact List.length_pos_iff.mpr (hparts p hp).2
    rw [List.length_append]
    omega
  · rintro ⟨i, -, hw⟩
    rw [Language.kstar_eq_iSup_pow, Language.mem_iSup]
    exact ⟨i, hw⟩

theorem Consumes.star {step : Cursor → List Cursor} {L : Language Char} (hstep : Consumes step L)
    (greedy : Bool) :
    Consumes (fun c => Regex.upTo step greedy c.rest.length c) (KStar.kstar L) := by
  intro c y
  rw [hstep.upTo greedy c.rest.length c y]
  constructor
  · rintro ⟨w, hw, hrest⟩
    rw [mem_copies, hrest] at hw
    exact ⟨w, mem_kstar_iff_bounded.mpr hw, hrest⟩
  · rintro ⟨w, hw, hrest⟩
    refine ⟨w, ?_, hrest⟩
    rw [mem_copies, hrest]
    exact mem_kstar_iff_bounded.mp hw

/-- The ways to match are the words of the language. -/
theorem consumes_run (n : ℕ) : ∀ {r : Regex}, plain r = true → Consumes (run n r) (lang r)
  | eps, _ => consumes_pure
  | char p, _ => by
      intro c y
      unfold run lang
      cases hrest : c.rest with
      | nil =>
          constructor
          · rintro ⟨c', hc', -⟩
            cases hc'
          · rintro ⟨w, ⟨d, -, rfl⟩, h⟩
            cases h
      | cons x rest =>
          by_cases hp : p x = true
          · simp only [hp, if_true, List.mem_singleton, exists_eq_left]
            constructor
            · rintro rfl
              exact ⟨[x], ⟨x, hp, rfl⟩, rfl⟩
            · rintro ⟨w, ⟨d, -, rfl⟩, h⟩
              exact (List.cons.inj h).2
          · simp only [hp]
            constructor
            · rintro ⟨c', hc', -⟩
              cases hc'
            · rintro ⟨w, ⟨d, hd, rfl⟩, h⟩
              rw [← (List.cons.inj h).1] at hd
              exact absurd hd hp
  | seq r s, h => by
      obtain ⟨hr, hs⟩ := Bool.and_eq_true_iff.mp h
      exact (consumes_run n hr).bind (consumes_run n hs)
  | alt r s, h => by
      obtain ⟨hr, hs⟩ := Bool.and_eq_true_iff.mp h
      intro c y
      show (∃ c' ∈ run n r c ++ run n s c, c'.rest = y) ↔ ∃ w ∈ lang r + lang s, c.rest = w ++ y
      simp only [List.mem_append, Language.mem_add, or_and_right, exists_or]
      rw [consumes_run n hr c y, consumes_run n hs c y]
  | rep r least none greedy, h =>
      ((consumes_run n (r := r) h).times least).bind ((consumes_run n (r := r) h).star greedy)
  | rep r least (some most) greedy, h =>
      ((consumes_run n (r := r) h).times least).bind
        ((consumes_run n (r := r) h).upTo greedy (most - least))
  | group name r, h => by
      intro c y
      unfold run lang
      rw [← consumes_run n (r := r) h c y]
      -- A group changes the captures, not what is left of the text.
      constructor
      · rintro ⟨c', hc', rfl⟩
        obtain ⟨d, hd, rfl⟩ := List.mem_map.mp hc'
        exact ⟨d, hd, rfl⟩
      · rintro ⟨d, hd, rfl⟩
        exact ⟨_, List.mem_map.mpr ⟨d, hd, rfl⟩, rfl⟩

theorem matchAt_isSome {r : Regex} {n pos : ℕ} {text : Text} :
    (matchAt r n pos text).isSome = true ↔ ∃ c', c' ∈ run n r ⟨text, []⟩ := by
  unfold matchAt
  rw [Option.isSome_map, List.isSome_head?]
  exact ⟨List.exists_mem_of_ne_nil _, fun ⟨_, h⟩ => List.ne_nil_of_mem h⟩

/-- A search looks at every position, and at the end of the text. -/
theorem searchFrom_isSome {r : Regex} {n pos : ℕ} {text : Text} :
    (searchFrom r n pos text).isSome = true ↔ ∃ a b, text = a ++ b ∧ ∃ c', c' ∈ run n r ⟨b, []⟩ := by
  induction text generalizing pos with
  | nil =>
      rw [searchFrom, matchAt_isSome]
      constructor
      · intro h
        exact ⟨[], [], rfl, h⟩
      · rintro ⟨a, b, hab, h⟩
        obtain ⟨rfl, rfl⟩ := List.append_eq_nil_iff.mp hab.symm
        exact h
  | cons c rest ih =>
      rw [searchFrom, Option.isSome_or, Bool.or_eq_true, matchAt_isSome, ih]
      constructor
      · rintro (h | ⟨a, b, rfl, h⟩)
        · exact ⟨[], c :: rest, rfl, h⟩
        · exact ⟨c :: a, b, rfl, h⟩
      · rintro ⟨a, b, hab, h⟩
        cases a with
        | nil =>
            rw [List.nil_append] at hab
            exact .inl (hab ▸ h)
        | cons d a => exact .inr ⟨a, b, (List.cons.inj hab).2, h⟩

/-- A search finds something exactly if a word of the language occurs. -/
theorem search_isSome_iff {r : Regex} (hr : plain r = true) {text : Text} :
    (search r text).isSome = true ↔ ∃ w ∈ lang r, w <:+: text := by
  rw [search, searchFrom_isSome]
  constructor
  · rintro ⟨a, b, rfl, c', hc'⟩
    obtain ⟨w, hw, hb⟩ := (consumes_run _ hr ⟨b, []⟩ c'.rest).mp ⟨c', hc', rfl⟩
    exact ⟨w, hw, a, c'.rest, by rw [List.append_assoc]; exact congrArg (a ++ ·) hb.symm⟩
  · rintro ⟨w, hw, a, b, rfl⟩
    refine ⟨a, w ++ b, by rw [List.append_assoc], ?_⟩
    obtain ⟨c', hc', -⟩ := (consumes_run _ hr ⟨w ++ b, []⟩ b).mpr ⟨w, hw, rfl⟩
    exact ⟨c', hc'⟩

/-! ## What is found -/

/-- A match is a word of the language, at the front of the text. -/
theorem mem_lang_of_matchAt {r : Regex} (hr : plain r = true) {n pos : ℕ} {text : Text} {m : Match}
    (h : matchAt r n pos text = some m) : m.text ∈ lang r := by
  obtain ⟨c', hc', rfl⟩ := Option.map_eq_some_iff.mp h
  have hrun : c' ∈ run n r ⟨text, []⟩ := List.mem_of_head? hc'
  obtain ⟨w, hw, hrest⟩ := (consumes_run n hr ⟨text, []⟩ c'.rest).mp ⟨c', hrun, rfl⟩
  have htext : text.take (text.length - c'.rest.length) = w := by
    rw [show text = w ++ c'.rest from hrest, List.length_append, Nat.add_sub_cancel]
    exact List.take_left
  show text.take (text.length - c'.rest.length) ∈ lang r
  rwa [htext]

theorem mem_lang_of_mem_finditerFrom {r : Regex} (hr : plain r = true) {n skip pos : ℕ}
    {text : Text} {m : Match} (h : m ∈ finditerFrom r n skip pos text) : m.text ∈ lang r := by
  induction text generalizing skip pos with
  | nil => cases h
  | cons c rest ih =>
      cases skip with
      | succ skip => exact ih h
      | zero =>
          simp only [finditerFrom] at h
          split at h
          · next m' hm' =>
              rcases List.mem_cons.mp h with rfl | h
              · exact mem_lang_of_matchAt hr hm'
              · exact ih h
          · exact ih h

/-- What is found are words of the language. -/
theorem mem_lang_of_mem_findall {r : Regex} (hr : plain r = true) {text w : Text}
    (h : w ∈ findall r text) : w ∈ lang r := by
  obtain ⟨m, hm, rfl⟩ := List.mem_map.mp h
  exact mem_lang_of_mem_finditerFrom hr hm

theorem matchAt_consumes {r : Regex} {n pos : ℕ} {text : Text} {m : Match}
    (h : matchAt r n pos text = some m) : m.start = pos ∧ m.text <+: text := by
  obtain ⟨c', -, rfl⟩ := Option.map_eq_some_iff.mp h
  exact ⟨rfl, List.take_prefix _ _⟩

/-! ## Words without a character -/

/-- No character class of the expression has `x`. -/
def avoids (x : Char) : Regex → Bool
  | eps | notAhead _ | start => true
  | char p => !p x
  | seq r s | alt r s => avoids x r && avoids x s
  | rep r _ _ _ | group _ r => avoids x r

@[simp] theorem plain_chars (t : Text) : plain (chars t) = true := by
  induction t with
  | nil => rfl
  | cons c t ih =>
      show (plain (char (· == c)) && plain (chars t)) = true
      rw [ih]
      rfl

@[simp] theorem avoids_chars (x : Char) (t : Text) : avoids x (chars t) = decide (x ∉ t) := by
  induction t with
  | nil => simp [chars, avoids]
  | cons c t ih =>
      show (!(x == c) && avoids x (chars t)) = _
      rw [ih]
      by_cases h : x = c <;> simp [h]

theorem not_mem_of_mem_pow {L : Language Char} {x : Char} (hL : ∀ w ∈ L, x ∉ w) {k : ℕ} :
    ∀ w ∈ L ^ k, x ∉ w := by
  intro w hw
  obtain ⟨parts, rfl, -, hparts⟩ := Language.mem_pow.mp hw
  intro hx
  obtain ⟨p, hp, hxp⟩ := List.mem_flatten.mp hx
  exact hL p (hparts p hp) hxp

theorem not_mem_of_mem_mul {L M : Language Char} {x : Char} (hL : ∀ w ∈ L, x ∉ w)
    (hM : ∀ w ∈ M, x ∉ w) : ∀ w ∈ L * M, x ∉ w := by
  intro w hw hx
  obtain ⟨u, hu, v, hv, rfl⟩ := Language.mem_mul.mp hw
  rcases List.mem_append.mp hx with h | h
  · exact hL u hu h
  · exact hM v hv h

/-- The words avoid what the classes avoid. -/
theorem not_mem_of_avoids {x : Char} :
    ∀ {r : Regex}, avoids x r = true → ∀ w ∈ lang r, x ∉ w
  | eps, _, w, hw | notAhead _, _, w, hw | start, _, w, hw => by
      rw [(Language.mem_one w).mp hw]
      simp
  | char p, h, w, hw => by
      obtain ⟨c, hc, rfl⟩ := hw
      intro hx
      rw [List.mem_singleton.mp hx] at h
      simp [avoids, hc] at h
  | seq r s, h, w, hw => by
      obtain ⟨hr, hs⟩ := Bool.and_eq_true_iff.mp h
      exact not_mem_of_mem_mul (not_mem_of_avoids hr) (not_mem_of_avoids hs) w hw
  | alt r s, h, w, hw => by
      obtain ⟨hr, hs⟩ := Bool.and_eq_true_iff.mp h
      rcases (Language.mem_add _ _ w).mp hw with hw | hw
      · exact not_mem_of_avoids hr w hw
      · exact not_mem_of_avoids hs w hw
  | rep r least none _, h, w, hw => by
      have hr : ∀ w ∈ lang r, x ∉ w := not_mem_of_avoids (r := r) h
      refine not_mem_of_mem_mul (not_mem_of_mem_pow hr) (fun v hv => ?_) w hw
      obtain ⟨i, -, hi⟩ := mem_kstar_iff_bounded (y := []).mp hv
      exact not_mem_of_mem_pow hr v hi
  | rep r least (some most) _, h, w, hw => by
      have hr : ∀ w ∈ lang r, x ∉ w := not_mem_of_avoids (r := r) h
      refine not_mem_of_mem_mul (not_mem_of_mem_pow hr) (fun v hv => ?_) w hw
      obtain ⟨i, -, hi⟩ := hv
      exact not_mem_of_mem_pow hr v hi
  | group _ r, h, w, hw => not_mem_of_avoids (r := r) h w hw

/-- An expression that avoids the separator is found in one of the two parts it separates. -/
theorem search_append_cons {r : Regex} {x : Char} (hr : plain r = true) (hx : avoids x r = true)
    {a b : Text} :
    (search r (a ++ x :: b)).isSome = true ↔
      (search r a).isSome = true ∨ (search r b).isSome = true := by
  simp only [search_isSome_iff hr]
  constructor
  · rintro ⟨w, hw, hinfix⟩
    rcases (Text.infix_append_cons (not_mem_of_avoids hx w hw)).mp hinfix with h | h
    · exact .inl ⟨w, hw, h⟩
    · exact .inr ⟨w, hw, h⟩
  · rintro (⟨w, hw, h⟩ | ⟨w, hw, h⟩)
    · exact ⟨w, hw, (Text.infix_append_cons (not_mem_of_avoids hx w hw)).mpr (.inl h)⟩
    · exact ⟨w, hw, (Text.infix_append_cons (not_mem_of_avoids hx w hw)).mpr (.inr h)⟩

theorem search_alt {r s : Regex} {text : Text} :
    (search (alt r s) text).isSome = true ↔
      (search r text).isSome = true ∨ (search s text).isSome = true := by
  simp only [search, searchFrom_isSome]
  constructor
  · rintro ⟨a, b, hab, c', hc'⟩
    rcases List.mem_append.mp hc' with h | h
    · exact .inl ⟨a, b, hab, c', h⟩
    · exact .inr ⟨a, b, hab, c', h⟩
  · rintro (⟨a, b, hab, c', h⟩ | ⟨a, b, hab, c', h⟩)
    · exact ⟨a, b, hab, c', List.mem_append_left _ h⟩
    · exact ⟨a, b, hab, c', List.mem_append_right _ h⟩

/-! ## Line starts -/

/-- A text that a blank stretch ends, at its own start or after a separator. -/
def Opens (p : Char → Bool) (x : Char) (text : Text) : Prop :=
  ∃ before blank, text = before ++ blank ∧ (∀ c ∈ blank, p c = true) ∧
    (before = [] ∨ ∃ line, before = line ++ [x])

/-- What comes before the last separator does not matter. -/
theorem opens_append_cons {p : Char → Bool} {x : Char} {a b : Text} :
    Opens p x (a ++ x :: b) ↔ Opens p x b := by
  constructor
  · rintro ⟨before, blank, htext, hblank, hbefore⟩
    rcases List.append_eq_append_iff.mp htext with ⟨v, hv, hb⟩ | ⟨v, ha, hv⟩
    · cases v with
      | nil =>
          refine ⟨[], b, rfl, fun c hc => hblank c ?_, .inl rfl⟩
          rw [List.nil_append] at hb
          rw [← hb]
          exact List.mem_cons_of_mem _ hc
      | cons y v =>
          obtain ⟨rfl, rfl⟩ := List.cons.inj hb
          refine ⟨v, blank, rfl, hblank, ?_⟩
          rcases hbefore with rfl | ⟨line, hline⟩
          · simp at hv
          · rcases List.eq_nil_or_concat v with rfl | ⟨v, z, rfl⟩
            · exact .inl rfl
            · have hlast : line ++ [x] = a ++ x :: v ++ [z] := by
                rw [← hline, hv]
                simp
              obtain ⟨-, hz⟩ := List.append_inj' hlast rfl
              exact .inr ⟨v, by rw [hz, List.concat_eq_append]⟩
    · refine ⟨[], b, rfl, fun c hc => hblank c ?_, .inl rfl⟩
      rw [hv]
      exact List.mem_append_right _ (List.mem_cons_of_mem _ hc)
  · rintro ⟨before, blank, rfl, hblank, hbefore⟩
    refine ⟨a ++ x :: before, blank, by simp, hblank, .inr ?_⟩
    rcases hbefore with rfl | ⟨line, rfl⟩
    · exact ⟨a, rfl⟩
    · exact ⟨a ++ x :: line, by simp⟩

theorem mem_kstar_letters {p : Char → Bool} {w : Text} :
    w ∈ KStar.kstar (letters p) ↔ ∀ c ∈ w, p c = true := by
  rw [Language.mem_kstar]
  constructor
  · rintro ⟨parts, rfl, hparts⟩ c hc
    obtain ⟨part, hpart, hcp⟩ := List.mem_flatten.mp hc
    obtain ⟨d, hd, rfl⟩ := hparts part hpart
    rwa [List.mem_singleton.mp hcp]
  · intro h
    refine ⟨w.map fun c => [c], (List.flatMap_singleton' w).symm, fun part hpart => ?_⟩
    obtain ⟨c, hc, rfl⟩ := List.mem_map.mp hpart
    exact ⟨c, h c hc, rfl⟩

/-- An expression after blanks at the start of a line. -/
def lineStart (p : Char → Bool) (x : Char) (r : Regex) : Regex :=
  seq (alt start (char (· == x))) (seq (star (char p)) r)

theorem consumes_blanks {n : ℕ} {p : Char → Bool} {r : Regex} (hr : plain r = true) :
    Consumes (run n (seq (star (char p)) r)) (KStar.kstar (letters p) * lang r) := by
  have h : Consumes (run n (seq (star (char p)) r)) (lang (seq (star (char p)) r)) :=
    consumes_run n (by simpa [plain, star] using hr)
  simpa [lang, star] using h

theorem search_lineStart_isSome_iff {p : Char → Bool} {x : Char} {r : Regex} (hr : plain r = true)
    {text : Text} :
    (search (lineStart p x r) text).isSome = true ↔
      ∃ s w t, text = s ++ w ++ t ∧ w ∈ lang r ∧ Opens p x s := by
  rw [search, searchFrom_isSome]
  constructor
  · rintro ⟨a, b, rfl, c', hc'⟩
    obtain ⟨d, hd, hdc⟩ := List.mem_flatMap.mp hc'
    obtain ⟨u, hu, hrest⟩ := (consumes_blanks hr d c'.rest).mp ⟨c', hdc, rfl⟩
    obtain ⟨blank, hblank, w, hw, rfl⟩ := Language.mem_mul.mp hu
    rw [mem_kstar_letters] at hblank
    rcases List.mem_append.mp hd with hd | hd
    · -- At the start of the text nothing stands before the blanks.
      have ha : a = [] := by
        by_contra hne
        have hpos := List.length_pos_iff.mpr hne
        have hlen : b.length ≠ (a ++ b).length := by
          rw [List.length_append]
          omega
        simp only [run, if_neg hlen, List.not_mem_nil] at hd
      subst ha
      have hb : d.rest = b := by
        simp [run] at hd
        rw [hd]
      refine ⟨blank, w, c'.rest, ?_, hw, [], blank, rfl, hblank, .inl rfl⟩
      rw [List.nil_append, ← hb, hrest]
    · cases b with
      | nil => simp [run] at hd
      | cons y b =>
          by_cases hy : y = x
          · subst hy
            have hb : d.rest = b := by
              simp [run] at hd
              rw [hd]
            refine ⟨a ++ y :: blank, w, c'.rest, ?_, hw, a ++ [y], blank, by simp, hblank,
              .inr ⟨a, rfl⟩⟩
            rw [← hb, hrest]
            simp
          · simp [run, hy] at hd
  · rintro ⟨s, w, t, rfl, hw, before, blank, rfl, hblank, hbefore⟩
    have hu : blank ++ w ∈ KStar.kstar (letters p) * lang r :=
      Language.append_mem_mul (mem_kstar_letters.mpr hblank) hw
    rcases hbefore with rfl | ⟨line, rfl⟩
    · refine ⟨[], blank ++ w ++ t, by simp, ?_⟩
      obtain ⟨c', hc', -⟩ := (consumes_blanks (n := (([] : Text) ++ blank ++ w ++ t).length) hr
        ⟨blank ++ w ++ t, []⟩ t).mpr ⟨blank ++ w, hu, rfl⟩
      refine ⟨c', List.mem_flatMap.mpr ⟨⟨blank ++ w ++ t, []⟩, ?_, hc'⟩⟩
      simp [run]
    · refine ⟨line, x :: (blank ++ w ++ t), by simp, ?_⟩
      obtain ⟨c', hc', -⟩ := (consumes_blanks (n := (line ++ [x] ++ blank ++ w ++ t).length) hr
        ⟨blank ++ w ++ t, []⟩ t).mpr ⟨blank ++ w, hu, rfl⟩
      refine ⟨c', List.mem_flatMap.mpr ⟨⟨blank ++ w ++ t, []⟩, ?_, hc'⟩⟩
      simp [run]

/-- Such an expression, too, is found in one of the two parts that the separator of its lines
separates. -/
theorem search_lineStart_append_cons {p : Char → Bool} {x : Char} {r : Regex} (hr : plain r = true)
    (hx : avoids x r = true) {a b : Text} :
    (search (lineStart p x r) (a ++ x :: b)).isSome = true ↔
      (search (lineStart p x r) a).isSome = true ∨ (search (lineStart p x r) b).isSome = true := by
  simp only [search_lineStart_isSome_iff hr]
  constructor
  · rintro ⟨s, w, t, htext, hw, hs⟩
    rcases Text.around_separator (not_mem_of_avoids hx w hw) htext.symm with
      ⟨t', ha, -⟩ | ⟨s', rfl, hb⟩
    · exact .inl ⟨s, w, t', ha, hw, hs⟩
    · exact .inr ⟨s', w, t, hb, hw, opens_append_cons.mp hs⟩
  · rintro (⟨s, w, t, rfl, hw, hs⟩ | ⟨s, w, t, rfl, hw, hs⟩)
    · exact ⟨s, w, t ++ x :: b, by simp, hw, hs⟩
    · exact ⟨a ++ x :: s, w, t, by simp, hw, opens_append_cons.mpr hs⟩

/-! ## Longest runs -/

theorem run_char_pos (n : ℕ) {p : Char → Bool} {c : Char} (hc : p c = true) (text : Text)
    (groups : List (String × Text)) : run n (char p) ⟨c :: text, groups⟩ = [⟨text, groups⟩] := by
  simp [run, hc]

theorem run_char_neg (n : ℕ) {p : Char → Bool} {c : Char} (hc : p c = false) (text : Text)
    (groups : List (String × Text)) : run n (char p) ⟨c :: text, groups⟩ = [] := by
  simp [run, hc]

theorem mem_lang_chars {t w : Text} : w ∈ lang (chars t) ↔ w = t := by
  induction t generalizing w with
  | nil => exact Language.mem_one w
  | cons c t ih =>
      have hlang : lang (chars (c :: t)) = letters (· == c) * lang (chars t) := rfl
      rw [hlang, Language.mem_mul]
      constructor
      · rintro ⟨a, ⟨d, hd, rfl⟩, b, hb, rfl⟩
        rw [ih.mp hb, beq_iff_eq.mp hd]
        rfl
      · rintro rfl
        exact ⟨[c], ⟨c, beq_self_eq_true c, rfl⟩, t, ih.mpr rfl, rfl⟩

/-- The preferred number of copies of a class is the longest run. -/
theorem head?_upTo_char (n : ℕ) (p : Char → Bool) {k : ℕ} {text : Text}
    (groups : List (String × Text)) (hk : text.length ≤ k) :
    (upTo (run n (char p)) true k ⟨text, groups⟩).head? = some ⟨text.dropWhile p, groups⟩ := by
  induction k generalizing text with
  | zero =>
      have hnil : text = [] := List.eq_nil_of_length_eq_zero (Nat.le_zero.mp hk)
      rw [hnil]
      rfl
  | succ k ih =>
      rw [upTo, if_pos rfl]
      cases text with
      | nil => rfl
      | cons c text =>
          rw [List.length_cons] at hk
          cases hc : p c with
          | true =>
              rw [run_char_pos n hc, List.flatMap_singleton, List.head?_append, ih (by omega),
                List.dropWhile_cons_of_pos hc]
              rfl
          | false =>
              rw [run_char_neg n hc, List.flatMap_nil, List.dropWhile_cons_of_neg (by simp [hc])]
              rfl

/-- A class repeated at least once takes the longest run. -/
theorem head?_run_plus_char (n : ℕ) {p : Char → Bool} {c : Char} (hc : p c = true) (text : Text)
    (groups : List (String × Text)) :
    (run n (plus (char p)) ⟨c :: text, groups⟩).head? = some ⟨text.dropWhile p, groups⟩ := by
  have hfirst : times (run n (char p)) 1 ⟨c :: text, groups⟩ = [⟨text, groups⟩] := by
    rw [times, run_char_pos n hc, List.flatMap_singleton]
    rfl
  have hrun : run n (plus (char p)) ⟨c :: text, groups⟩ =
      (times (run n (char p)) 1 ⟨c :: text, groups⟩).flatMap fun c' =>
        upTo (run n (char p)) true c'.rest.length c' := rfl
  rw [hrun, hfirst, List.flatMap_singleton]
  exact head?_upTo_char n p groups (Nat.le_refl _)

/-- Where a match begins, the expression matches like this. -/
theorem finditerFrom_matchAt {r : Regex} {n skip pos : ℕ} {text : Text} {m : Match}
    (h : m ∈ finditerFrom r n skip pos text) :
    ∃ a b, text = a ++ b ∧ matchAt r n (pos + a.length) b = some m := by
  induction text generalizing skip pos with
  | nil => cases h
  | cons c rest ih =>
      have hlater : ∀ {skip}, m ∈ finditerFrom r n skip (pos + 1) rest →
          ∃ a b, c :: rest = a ++ b ∧ matchAt r n (pos + a.length) b = some m := by
        intro skip h
        obtain ⟨a, b, rfl, hmatch⟩ := ih h
        refine ⟨c :: a, b, rfl, ?_⟩
        rw [List.length_cons, show pos + (a.length + 1) = pos + 1 + a.length by omega]
        exact hmatch
      cases skip with
      | succ skip => exact hlater h
      | zero =>
          simp only [finditerFrom] at h
          split at h
          · next m' hm' =>
              rcases List.mem_cons.mp h with rfl | h
              · exact ⟨[], c :: rest, rfl, hm'⟩
              · exact hlater h
          · exact hlater h

/-- Where the expression matches, a match begins, or an earlier one is not over. -/
theorem finditerFrom_covers {r : Regex} {n skip pos : ℕ} {a b : Text} {m : Match}
    (hskip : skip ≤ a.length) (hmatch : matchAt r n (pos + a.length) b = some m)
    (hne : ∀ (pos : ℕ) (text : Text) (m : Match), matchAt r n pos text = some m → m.text ≠ []) :
    ∃ m' ∈ finditerFrom r n skip pos (a ++ b),
      m'.start ≤ pos + a.length ∧ pos + a.length < m'.stop := by
  induction a generalizing skip pos with
  | nil =>
      have hzero : skip = 0 := Nat.le_zero.mp hskip
      subst hzero
      obtain ⟨hstart, hmatched⟩ := matchAt_consumes hmatch
      have htext := hne _ _ _ hmatch
      cases b with
      | nil => exact absurd (List.prefix_nil.mp hmatched) htext
      | cons c b =>
          refine ⟨m, ?_, hstart.le, ?_⟩
          · simp only [List.nil_append, finditerFrom]
            rw [List.length_nil, Nat.add_zero] at hmatch
            rw [hmatch]
            exact List.mem_cons_self
          · have hlength := List.length_pos_iff.mpr htext
            rw [Match.stop, hstart]
            omega
  | cons c a ih =>
      rw [List.length_cons] at hskip hmatch
      have hmatch' : matchAt r n (pos + 1 + a.length) b = some m := by
        rw [show pos + 1 + a.length = pos + (a.length + 1) by omega]
        exact hmatch
      -- A match that begins later.
      have hlater : ∀ {skip'}, skip' ≤ a.length → ∃ m' ∈ finditerFrom r n skip' (pos + 1) (a ++ b),
          m'.start ≤ pos + (a.length + 1) ∧ pos + (a.length + 1) < m'.stop := by
        intro skip' hskip'
        obtain ⟨m', hm', hstart, hstop⟩ := ih hskip' hmatch'
        exact ⟨m', hm', by omega, by omega⟩
      cases skip with
      | succ skip => exact hlater (by omega)
      | zero =>
          rw [List.cons_append]
          simp only [finditerFrom, List.length_cons]
          cases hhere : matchAt r n pos (c :: (a ++ b)) with
          | none => exact hlater (Nat.zero_le _)
          | some m₀ =>
              dsimp only
              by_cases hover : m₀.text.length - 1 ≤ a.length
              · obtain ⟨m', hm', hbounds⟩ := hlater hover
                exact ⟨m', List.mem_cons_of_mem _ hm', hbounds⟩
              · have hstart := (matchAt_consumes hhere).1
                refine ⟨m₀, List.mem_cons_self, by omega, ?_⟩
                rw [Match.stop, hstart]
                omega

/-! ## The characters of what is replaced or split -/

/-- Replacing brings in the characters of the replacement only. -/
theorem mem_of_mem_subFrom {r : Regex} {c : Char} {new : Text} {n skip pos : ℕ} {text : Text}
    (h : c ∈ subFrom r n new skip pos text) : c ∈ new ∨ c ∈ text := by
  induction text generalizing skip pos with
  | nil => cases h
  | cons d text ih =>
      cases skip with
      | succ skip =>
          rw [subFrom] at h
          exact (ih h).imp_right (List.mem_cons_of_mem d)
      | zero =>
          rw [subFrom] at h
          split at h
          · rcases List.mem_append.mp h with h | h
            · exact .inl h
            · exact (ih h).imp_right (List.mem_cons_of_mem d)
          · rcases List.mem_cons.mp h with rfl | h
            · exact .inr List.mem_cons_self
            · exact (ih h).imp_right (List.mem_cons_of_mem d)

theorem mem_of_mem_sub {r : Regex} {c : Char} {new text : Text} (h : c ∈ sub r new text) :
    c ∈ new ∨ c ∈ text :=
  mem_of_mem_subFrom h

/-- The parts of a text that is split have its characters only. -/
theorem mem_of_mem_splitFrom {r : Regex} {c : Char} {n skip pos : ℕ} {part text w : Text}
    (h : w ∈ splitFrom r n part skip pos text) (hc : c ∈ w) : c ∈ part ∨ c ∈ text := by
  induction text generalizing part skip pos with
  | nil =>
      rw [splitFrom, List.mem_singleton] at h
      exact .inl (List.mem_reverse.mp (h ▸ hc))
  | cons d text ih =>
      cases skip with
      | succ skip =>
          rw [splitFrom] at h
          exact (ih h).imp_right (List.mem_cons_of_mem d)
      | zero =>
          rw [splitFrom] at h
          split at h
          · rcases List.mem_cons.mp h with rfl | h
            · exact .inl (List.mem_reverse.mp hc)
            · rcases ih h with hnil | htext
              · cases hnil
              · exact .inr (List.mem_cons_of_mem d htext)
          · rcases ih h with hpart | htext
            · rcases List.mem_cons.mp hpart with rfl | hpart
              · exact .inr List.mem_cons_self
              · exact .inl hpart
            · exact .inr (List.mem_cons_of_mem d htext)

theorem mem_of_mem_split {r : Regex} {c : Char} {text w : Text} (h : w ∈ split r text) (hc : c ∈ w) :
    c ∈ text :=
  (mem_of_mem_splitFrom h hc).resolve_left (List.not_mem_nil)

/-- Together the parts are no longer than the text. -/
theorem sum_length_splitFrom_le (r : Regex) (n : ℕ) (part : Text) (skip pos : ℕ) (text : Text) :
    ((splitFrom r n part skip pos text).map List.length).sum ≤ part.length + text.length := by
  induction text generalizing part skip pos with
  | nil => simp [splitFrom]
  | cons c text ih =>
      cases skip with
      | succ skip =>
          have hrest := ih part skip (pos + 1)
          rw [splitFrom, List.length_cons]
          omega
      | zero =>
          rw [splitFrom, List.length_cons]
          split
          · next m hm =>
              have hrest := ih [] (m.text.length - 1) (pos + 1)
              rw [List.map_cons, List.sum_cons, List.length_reverse]
              rw [List.length_nil] at hrest
              omega
          · have hrest := ih (c :: part) 0 (pos + 1)
            rw [List.length_cons] at hrest
            omega

theorem sum_length_split_le (r : Regex) (text : Text) :
    ((split r text).map List.length).sum ≤ text.length := by
  have h := sum_length_splitFrom_le r text.length [] 0 0 text
  rwa [List.length_nil, Nat.zero_add] at h

end Regex

end Odirag
