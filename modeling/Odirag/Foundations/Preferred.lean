import Mathlib.Data.List.Pairwise
import Odirag.Foundations.Groups

/-!
# The preferred match

Which of the ways to match comes first is settled part by part: a class takes as many characters as it
may, an optional part is passed over only where it cannot match, and an alternative only where those
before it cannot. `Prefers` has a rule for each of them, and where an expression cannot match is a
matter of its language (`fails_iff`).

The matches of a text do not overlap (`finditer_eq_of_overlap`), so that a match is found where the
expression prefers it and no earlier match reaches over its beginning (`mem_finditer_iff`).
-/

namespace Odirag.Regex

/-- The preferred way to match at the text leaves this rest. -/
def Prefers (n : ℕ) (r : Regex) (text rest : Text) : Prop :=
  ∀ groups, (run n r ⟨text, groups⟩).head?.map Cursor.rest = some rest

/-- There is no way to match at the text. -/
def Fails (n : ℕ) (r : Regex) (text : Text) : Prop := ∀ groups, run n r ⟨text, groups⟩ = []

variable {n : ℕ} {r s : Regex} {text rest after : Text}

/-- An expression fails where no word of its language begins. -/
theorem fails_iff (hr : plain r = true) : Fails n r text ↔ ∀ w ∈ lang r, ¬ w <+: text := by
  constructor
  · rintro h w hw ⟨y, hy⟩
    obtain ⟨c', hc', -⟩ := (consumes_run n hr ⟨text, []⟩ y).mpr ⟨w, hw, hy.symm⟩
    rw [h []] at hc'
    cases hc'
  · intro h groups
    rw [List.eq_nil_iff_forall_not_mem]
    intro c' hc'
    obtain ⟨w, hw, hrest⟩ := exists_word hr hc'
    exact h w hw ⟨c'.rest, hrest.symm⟩

/-- A part that cannot match keeps the whole from matching. -/
theorem Fails.seq (h : Fails n r text) : Fails n (seq r s) text := by
  intro groups
  show (run n r ⟨text, groups⟩).flatMap (run n s) = []
  rw [h groups, List.flatMap_nil]

theorem prefers_iff : Prefers n r text rest ↔
    ∀ groups, ∃ groups' others, run n r ⟨text, groups⟩ = ⟨rest, groups'⟩ :: others := by
  refine forall_congr' fun groups => ?_
  rw [Option.map_eq_some_iff]
  constructor
  · rintro ⟨⟨_, groups'⟩, hc, rfl⟩
    obtain ⟨others, h⟩ := List.head?_eq_some_iff.mp hc
    exact ⟨groups', others, h⟩
  · rintro ⟨groups', others, h⟩
    exact ⟨⟨rest, groups'⟩, by rw [h, List.head?_cons], rfl⟩

/-! ## The rules -/

theorem prefers_eps : Prefers n eps text text := fun _ => rfl

theorem Prefers.seq (hr : Prefers n r text rest) (hs : Prefers n s rest after) :
    Prefers n (Regex.seq r s) text after := by
  rw [prefers_iff] at hr hs ⊢
  intro groups
  obtain ⟨groups₁, others₁, h₁⟩ := hr groups
  obtain ⟨groups₂, others₂, h₂⟩ := hs groups₁
  refine ⟨groups₂, others₂ ++ others₁.flatMap (run n s), ?_⟩
  show (run n r ⟨text, groups⟩).flatMap (run n s) = _
  rw [h₁, List.flatMap_cons, h₂, List.cons_append]

theorem Prefers.alt_left (h : Prefers n r text rest) : Prefers n (alt r s) text rest := by
  rw [prefers_iff] at h ⊢
  intro groups
  obtain ⟨groups', others, h⟩ := h groups
  refine ⟨groups', others ++ run n s ⟨text, groups⟩, ?_⟩
  show run n r ⟨text, groups⟩ ++ run n s ⟨text, groups⟩ = _
  rw [h, List.cons_append]

theorem Prefers.alt_right (hr : Fails n r text) (hs : Prefers n s text rest) :
    Prefers n (alt r s) text rest := by
  intro groups
  show (run n r ⟨text, groups⟩ ++ run n s ⟨text, groups⟩).head?.map Cursor.rest = some rest
  rw [hr groups, List.nil_append, hs groups]

theorem run_opt (c : Cursor) : run n (opt r) c = run n r c ++ [c] := by
  show (times (run n r) 0 c).flatMap (upTo (run n r) true 1) = _
  rw [times, List.flatMap_singleton, upTo, if_pos rfl]
  simp [upTo]

theorem Prefers.opt (h : Prefers n r text rest) : Prefers n (opt r) text rest := by
  rw [prefers_iff] at h ⊢
  intro groups
  obtain ⟨groups', others, h⟩ := h groups
  exact ⟨groups', others ++ [⟨text, groups⟩], by rw [run_opt, h, List.cons_append]⟩

/-- An optional part is passed over where it cannot match. -/
theorem prefers_opt_of_fails (h : Fails n r text) : Prefers n (Regex.opt r) text text := by
  intro groups
  rw [run_opt, h groups]
  rfl

theorem prefers_char {p : Char → Bool} {c : Char} (hc : p c = true) :
    Prefers n (char p) (c :: text) text := by
  intro groups
  rw [run_char_pos n hc]
  rfl

theorem prefers_chars (w : Text) : Prefers n (chars w) (w ++ text) text := by
  induction w with
  | nil => exact prefers_eps
  | cons c w ih =>
      have hfirst : Prefers n (char (· == c)) (c :: (w ++ text)) (w ++ text) :=
        prefers_char (beq_self_eq_true c)
      exact hfirst.seq ih

/-! ## Classes -/

theorem times_char {p : Char → Bool} {w : Text} (hw : ∀ c ∈ w, p c = true) (text : Text)
    (groups : List (String × Text)) :
    times (run n (char p)) w.length ⟨w ++ text, groups⟩ = [⟨text, groups⟩] := by
  induction w with
  | nil => rfl
  | cons c w ih =>
      have hc := hw c List.mem_cons_self
      rw [List.length_cons, times, List.cons_append, run_char_pos n hc, List.flatMap_singleton]
      exact ih fun d hd => hw d (List.mem_cons_of_mem c hd)

/-- As many characters as may be taken: `k`, or all up to one that is not in the class. -/
theorem head?_upTo_char_append {p : Char → Bool} {w : Text} {k : ℕ} (hw : ∀ c ∈ w, p c = true)
    (hk : w.length ≤ k) (hstop : w.length = k ∨ ∀ c ∈ text.head?, p c = false)
    (groups : List (String × Text)) :
    (upTo (run n (char p)) true k ⟨w ++ text, groups⟩).head? = some ⟨text, groups⟩ := by
  induction w generalizing k with
  | nil =>
      cases k with
      | zero => rfl
      | succ k =>
          have hstop := hstop.resolve_left (by simp)
          rw [upTo, if_pos rfl, List.nil_append]
          cases text with
          | nil => rfl
          | cons c text =>
              rw [run_char_neg n (hstop c rfl), List.flatMap_nil]
              rfl
  | cons c w ih =>
      cases k with
      | zero => simp at hk
      | succ k =>
          rw [List.length_cons] at hk hstop
          have hrest := ih (k := k) (fun d hd => hw d (List.mem_cons_of_mem c hd)) (by omega)
            (hstop.imp_left fun h => by omega)
          rw [upTo, if_pos rfl, List.cons_append, run_char_pos n (hw c List.mem_cons_self),
            List.flatMap_singleton, List.head?_append, hrest]
          rfl

/-- A class takes as many characters as it may. -/
theorem prefers_rep_char {p : Char → Bool} {least : ℕ} {most : Option ℕ} {w : Text}
    (hw : ∀ c ∈ w, p c = true) (hleast : least ≤ w.length) (hmost : ∀ k ∈ most, w.length ≤ k)
    (hstop : most = some w.length ∨ ∀ c ∈ text.head?, p c = false) :
    Prefers n (rep (char p) least most true) (w ++ text) text := by
  have hsplit : w ++ text = w.take least ++ (w.drop least ++ text) := by
    rw [← List.append_assoc, List.take_append_drop]
  have hlength : (w.take least).length = least := by rw [List.length_take, Nat.min_eq_left hleast]
  intro groups
  have hfirst := times_char (n := n) (w := w.take least)
    (fun c hc => hw c (List.mem_of_mem_take hc)) (w.drop least ++ text) groups
  rw [hlength, ← hsplit] at hfirst
  show ((times (run n (char p)) least ⟨w ++ text, groups⟩).flatMap _).head?.map _ = _
  rw [hfirst, List.flatMap_singleton,
    head?_upTo_char_append (w := w.drop least) (fun c hc => hw c (List.mem_of_mem_drop hc))]
  · rfl
  · cases most with
    | none => simp
    | some most =>
        have hle := hmost most rfl
        rw [List.length_drop]
        exact Nat.sub_le_sub_right hle least
  · rcases hstop with rfl | hstop
    · exact .inl (by rw [List.length_drop])
    · exact .inr hstop

/-! ## Expressions with the same ways to match -/

theorem run_seq_congr {r' : Regex} (h : run n r = run n r') : run n (seq r s) = run n (seq r' s) := by
  funext c
  show (run n r c).flatMap (run n s) = (run n r' c).flatMap (run n s)
  rw [h]

theorem run_rep_congr {r' : Regex} {least : ℕ} {most : Option ℕ} {greedy : Bool}
    (h : run n r = run n r') : run n (rep r least most greedy) = run n (rep r' least most greedy) := by
  funext c
  unfold run
  rw [h]

/-- An assertion about the character that is matched next is part of its class. -/
theorem run_notAhead_char {p q : Char → Bool} :
    run n (seq (notAhead (char p)) (char q)) = run n (char fun x => !p x && q x) := by
  funext ⟨text, groups⟩
  show (if (run n (char p) ⟨text, groups⟩).isEmpty then [⟨text, groups⟩] else []).flatMap
    (run n (char q)) = _
  cases text with
  | nil => rfl
  | cons x text => cases hp : p x <;> simp [run, hp]

/-! ## Words in order of preference -/

/-- Of several literal texts the first one that stands here is taken. -/
theorem prefers_oneOf_chars {ws : List Text} {w : Text}
    (h : ws.find? (·.isPrefixOf (w ++ text)) = some w) :
    Prefers n (oneOf (ws.map chars)) (w ++ text) text := by
  induction ws with
  | nil => cases h
  | cons u ws ih =>
      rw [List.find?_cons] at h
      split at h
      · obtain rfl : u = w := Option.some.inj h
        cases ws with
        | nil => exact prefers_chars u
        | cons u' ws => exact (prefers_chars u).alt_left
      · next hu =>
          cases ws with
          | nil => cases h
          | cons u' ws =>
              refine Prefers.alt_right ((fails_iff (plain_chars u)).mpr fun v hv hprefix => ?_) (ih h)
              rw [mem_lang_chars.mp hv, ← List.isPrefixOf_iff_prefix, hu] at hprefix
              cases hprefix

theorem mem_lang_oneOf {rs : List Regex} {w : Text} (hne : rs ≠ []) :
    w ∈ lang (oneOf rs) ↔ ∃ r ∈ rs, w ∈ lang r := by
  induction rs with
  | nil => exact absurd rfl hne
  | cons r rs ih =>
      cases rs with
      | nil => simp [oneOf]
      | cons r' rs =>
          show w ∈ lang r + lang (oneOf (r' :: rs)) ↔ _
          rw [Language.mem_add, ih (List.cons_ne_nil r' rs)]
          exact (List.exists_mem_cons_iff (fun r => w ∈ lang r) r (r' :: rs)).symm

theorem mem_lang_oneOf_chars {ws : List Text} {w : Text} (hne : ws ≠ []) :
    w ∈ lang (oneOf (ws.map chars)) ↔ w ∈ ws := by
  rw [mem_lang_oneOf (by simpa using hne)]
  simp [mem_lang_chars]

/-! ## The words of repeated classes -/

theorem mem_letters_pow {p : Char → Bool} {k : ℕ} {w : Text} :
    w ∈ letters p ^ k ↔ w.length = k ∧ ∀ c ∈ w, p c = true := by
  induction k generalizing w with
  | zero =>
      rw [pow_zero, Language.mem_one]
      constructor
      · rintro rfl
        exact ⟨rfl, fun c hc => absurd hc List.not_mem_nil⟩
      · rintro ⟨h, -⟩
        exact List.eq_nil_of_length_eq_zero h
  | succ k ih =>
      rw [pow_succ', Language.mem_mul]
      constructor
      · rintro ⟨_, ⟨c, hc, rfl⟩, v, hv, rfl⟩
        obtain ⟨hlength, hv⟩ := ih.mp hv
        exact ⟨by simp [hlength], by simpa using ⟨hc, hv⟩⟩
      · rintro ⟨hlength, hw⟩
        cases w with
        | nil => simp at hlength
        | cons c w =>
            refine ⟨[c], ⟨c, hw c List.mem_cons_self, rfl⟩, w, ih.mpr ⟨by simpa using hlength, ?_⟩, rfl⟩
            exact fun d hd => hw d (List.mem_cons_of_mem c hd)

theorem mem_lang_rep_char {p : Char → Bool} {least most : ℕ} {greedy : Bool} (h : least ≤ most)
    {w : Text} : w ∈ lang (rep (char p) least (some most) greedy) ↔
      (∀ c ∈ w, p c = true) ∧ least ≤ w.length ∧ w.length ≤ most := by
  show w ∈ letters p ^ least * copies (letters p) (most - least) ↔ _
  rw [Language.mem_mul]
  constructor
  · rintro ⟨u, hu, v, ⟨i, hi, hv⟩, rfl⟩
    obtain ⟨hulength, hu⟩ := mem_letters_pow.mp hu
    obtain ⟨hvlength, hv⟩ := mem_letters_pow.mp hv
    refine ⟨fun c hc => (List.mem_append.mp hc).elim (hu c) (hv c), ?_⟩
    rw [List.length_append]
    omega
  · rintro ⟨hw, hleast, hmost⟩
    refine ⟨w.take least, mem_letters_pow.mpr ⟨by simpa using hleast, fun c hc =>
      hw c (List.mem_of_mem_take hc)⟩, w.drop least, ⟨(w.drop least).length, ?_, ?_⟩,
      List.take_append_drop least w⟩
    · rw [List.length_drop]
      omega
    · exact mem_letters_pow.mpr ⟨rfl, fun c hc => hw c (List.mem_of_mem_drop hc)⟩

theorem mem_lang_plus_char {p : Char → Bool} {w : Text} :
    w ∈ lang (plus (char p)) ↔ (∀ c ∈ w, p c = true) ∧ w ≠ [] := by
  show w ∈ letters p ^ 1 * KStar.kstar (letters p) ↔ _
  rw [pow_one, Language.mem_mul]
  constructor
  · rintro ⟨_, ⟨c, hc, rfl⟩, v, hv, rfl⟩
    rw [mem_kstar_letters] at hv
    exact ⟨by simpa using ⟨hc, hv⟩, by simp⟩
  · rintro ⟨hw, hne⟩
    cases w with
    | nil => exact absurd rfl hne
    | cons c w =>
        exact ⟨[c], ⟨c, hw c List.mem_cons_self, rfl⟩, w,
          mem_kstar_letters.mpr fun d hd => hw d (List.mem_cons_of_mem c hd), rfl⟩

/-! ## What is matched and found -/

/-- The preferred match at a position. -/
theorem Prefers.matchAt {v : Text} (h : Prefers n r (v ++ rest) rest) (pos : ℕ) :
    ∃ m, Regex.matchAt r n pos (v ++ rest) = some m ∧ m.text = v := by
  obtain ⟨groups', others, h⟩ := prefers_iff.mp h []
  refine ⟨⟨pos, (v ++ rest).take ((v ++ rest).length - rest.length), groups'⟩, ?_, ?_⟩
  · rw [Regex.matchAt, h]
    rfl
  · show (v ++ rest).take ((v ++ rest).length - rest.length) = v
    rw [List.length_append, Nat.add_sub_cancel, List.take_left]

theorem matchAt_alt {pos : ℕ} :
    matchAt (alt r s) n pos text = (matchAt r n pos text).or (matchAt s n pos text) := by
  show ((run n r ⟨text, []⟩ ++ run n s ⟨text, []⟩).head?.map _) = _
  rw [List.head?_append, matchAt, matchAt]
  cases (run n r ⟨text, []⟩).head? <;> rfl

theorem fails_of_matchAt (hr : plain r = true) {pos : ℕ} (h : matchAt r n pos text = none) :
    Fails n r text := by
  rw [fails_iff hr]
  rintro w hw ⟨y, hy⟩
  obtain ⟨c', hc', -⟩ := (consumes_run n hr ⟨text, []⟩ y).mpr ⟨w, hw, hy.symm⟩
  have hsome := (@matchAt_isSome r n pos text).mpr ⟨c', hc'⟩
  rw [h] at hsome
  cases hsome

theorem start_le_of_mem_finditerFrom {skip pos : ℕ} {m : Match}
    (h : m ∈ finditerFrom r n skip pos text) : pos + skip ≤ m.start := by
  induction text generalizing skip pos with
  | nil => cases h
  | cons c text ih =>
      cases skip with
      | succ skip =>
          have hrest := ih h
          omega
      | zero =>
          simp only [finditerFrom] at h
          split at h
          · next m' hm' =>
              rcases List.mem_cons.mp h with rfl | h
              · exact (matchAt_consumes hm').1.ge
              · have hrest := ih h
                omega
          · have hrest := ih h
            omega

/-- A match begins where the one before it is over, or later. -/
theorem pairwise_finditerFrom (r : Regex) (n skip pos : ℕ) (text : Text) :
    (finditerFrom r n skip pos text).Pairwise fun m m' => m.stop ≤ m'.start := by
  induction text generalizing skip pos with
  | nil => exact .nil
  | cons c text ih =>
      cases skip with
      | succ skip => exact ih skip (pos + 1)
      | zero =>
          rw [finditerFrom]
          split
          · next m hm =>
              refine .cons (fun m' hm' => ?_) (ih _ _)
              have hlater := start_le_of_mem_finditerFrom hm'
              rw [Match.stop, (matchAt_consumes hm).1]
              omega
          · exact ih 0 (pos + 1)

/-- Two matches that overlap are one. -/
theorem finditer_eq_of_overlap {m m' : Match} (hm : m ∈ finditer r text) (hm' : m' ∈ finditer r text)
    (h : m.start < m'.stop) (h' : m'.start < m.stop) : m = m' := by
  by_contra hne
  let apart (m m' : Match) : Prop := m.stop ≤ m'.start ∨ m'.stop ≤ m.start
  have : Std.Symm apart := ⟨fun _ _ h => h.symm⟩
  have hpairwise : (finditer r text).Pairwise apart :=
    (pairwise_finditerFrom r text.length 0 0 text).imp .inl
  rcases hpairwise.forall hm hm' hne with hle | hle <;> omega

/-- A match that reaches over a cut of the text is cut in two. -/
theorem cut_of_overlap {a b : Text} {m : Match} (hm : m ∈ finditer r (a ++ b))
    (hbefore : m.start < a.length) (hover : a.length < m.stop) :
    ∃ a₀ x y after, a = a₀ ++ x ∧ b = y ++ after ∧ m.text = x ++ y ∧ x ≠ [] ∧ y ≠ [] ∧
      matchAt r (a ++ b).length m.start (x ++ b) = some m := by
  obtain ⟨a₀, rest, htext, hmatch⟩ := finditerFrom_matchAt hm
  obtain ⟨hstart, after, rfl⟩ := matchAt_consumes hmatch
  rw [Nat.zero_add] at hstart
  rw [Match.stop] at hover
  obtain ⟨x, rfl, hrest⟩ : ∃ x, a = a₀ ++ x ∧ m.text ++ after = x ++ b := by
    rcases List.append_eq_append_iff.mp htext with ⟨x, rfl, hrest⟩ | ⟨x, rfl, hrest⟩
    · rw [List.length_append] at hstart
      omega
    · exact ⟨x, rfl, hrest⟩
  rw [List.length_append] at hbefore hover
  obtain ⟨y, hmtext, hb⟩ : ∃ y, m.text = x ++ y ∧ b = y ++ after := by
    rcases List.append_eq_append_iff.mp hrest with ⟨y, rfl, hb⟩ | ⟨y, hmtext, hb⟩
    · rw [List.length_append] at hover
      omega
    · exact ⟨y, hmtext, hb⟩
  refine ⟨a₀, x, y, after, rfl, hb, hmtext, ?_, ?_, ?_⟩
  · rintro rfl
    rw [List.length_nil] at hbefore
    omega
  · rintro rfl
    rw [hmtext, List.append_nil] at hover
    omega
  · rwa [hrest, Nat.zero_add, ← hstart] at hmatch

/-- A text is found at a place exactly if it is the preferred match there and no earlier match reaches
over the place. -/
theorem mem_finditer_iff {a b v : Text} (hv : v ≠ [])
    (hne : ∀ (n pos : ℕ) (text : Text) (m : Match), matchAt r n pos text = some m → m.text ≠ []) :
    (∃ m ∈ finditer r (a ++ b), m.start = a.length ∧ m.text = v) ↔
      (∃ m, matchAt r (a ++ b).length a.length b = some m ∧ m.text = v) ∧
        ∀ m ∈ finditer r (a ++ b), ¬ (m.start < a.length ∧ a.length < m.stop) := by
  constructor
  · rintro ⟨m, hm, hstart, rfl⟩
    constructor
    · obtain ⟨a', b', hab, hmatch⟩ := finditerFrom_matchAt hm
      have hlength : a'.length = a.length := by
        have h := (matchAt_consumes hmatch).1
        omega
      obtain ⟨rfl, rfl⟩ := List.append_inj hab hlength.symm
      rw [Nat.zero_add] at hmatch
      exact ⟨m, hmatch, rfl⟩
    · rintro m' hm' ⟨hbefore, hover⟩
      have hlength := List.length_pos_iff.mpr hv
      have heq := finditer_eq_of_overlap hm hm' (by omega) (by rw [Match.stop]; omega)
      rw [heq] at hstart
      omega
  · rintro ⟨⟨m, hmatch, rfl⟩, hfree⟩
    rw [← Nat.zero_add a.length] at hmatch
    obtain ⟨m', hm', hstart, hstop⟩ :=
      finditerFrom_covers (Nat.zero_le a.length) hmatch (hne (a ++ b).length)
    rw [Nat.zero_add] at hmatch hstart hstop
    have heq : m'.start = a.length := by
      by_contra hother
      exact hfree m' hm' ⟨by omega, hstop⟩
    obtain ⟨a', b', hab, hmatch'⟩ := finditerFrom_matchAt hm'
    have hlength : a'.length = a.length := by
      have h := (matchAt_consumes hmatch').1
      omega
    obtain ⟨rfl, rfl⟩ := List.append_inj hab hlength.symm
    rw [Nat.zero_add, hmatch] at hmatch'
    cases hmatch'
    exact ⟨m, hm', heq, rfl⟩

end Odirag.Regex
