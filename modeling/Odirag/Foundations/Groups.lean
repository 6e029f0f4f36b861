import Odirag.Foundations.Ink

/-!
# The group of a full match

An expression with one group between two expressions without groups: a full match takes the text
apart into three words, and the group is the middle one (`fullmatchGroups_some`). Which of several
ways is the preferred one is not said, so a caller shows that it does not matter.
-/

namespace Odirag.Regex

/-- The groups of the preferred match of the whole text. -/
def fullmatchGroups (r : Regex) (text : Text) : Option (List (String × Text)) :=
  ((run text.length r ⟨text, []⟩).find? fun c => c.rest.isEmpty).map Cursor.groups

/-- No group occurs. -/
def groupless : Regex → Bool
  | eps | char _ | start => true
  | seq r s | alt r s => groupless r && groupless s
  | rep r _ _ _ | notAhead r => groupless r
  | group _ _ => false

/-- The steps capture nothing. -/
def KeepsGroups (step : Cursor → List Cursor) : Prop :=
  ∀ c, ∀ c' ∈ step c, c'.groups = c.groups

theorem KeepsGroups.bind {step next : Cursor → List Cursor} (hstep : KeepsGroups step)
    (hnext : KeepsGroups next) : KeepsGroups fun c => (step c).flatMap next := by
  intro c c' hc'
  obtain ⟨d, hd, hdc⟩ := List.mem_flatMap.mp hc'
  exact (hnext d c' hdc).trans (hstep c d hd)

theorem keepsGroups_pure : KeepsGroups fun c => [c] := by
  intro c c' hc'
  rw [List.mem_singleton.mp hc']

theorem KeepsGroups.times {step : Cursor → List Cursor} (hstep : KeepsGroups step) (k : ℕ) :
    KeepsGroups (Regex.times step k) := by
  induction k with
  | zero => exact keepsGroups_pure
  | succ k ih => exact hstep.bind ih

theorem KeepsGroups.upTo {step : Cursor → List Cursor} (hstep : KeepsGroups step) (greedy : Bool)
    (k : ℕ) : KeepsGroups (Regex.upTo step greedy k) := by
  induction k with
  | zero => exact keepsGroups_pure
  | succ k ih =>
      intro c c' hc'
      have hcases : c' ∈ (step c).flatMap (Regex.upTo step greedy k) ∨ c' = c := by
        unfold Regex.upTo at hc'
        split_ifs at hc'
        · simpa using hc'
        · simpa [or_comm] using hc'
      rcases hcases with hmore | rfl
      · exact (hstep.bind ih) c c' hmore
      · rfl

theorem keepsGroups_run (n : ℕ) : ∀ {r : Regex}, groupless r = true → KeepsGroups (run n r)
  | eps, _ => keepsGroups_pure
  | char p, _ => by
      intro c c' hc'
      unfold run at hc'
      split at hc'
      · cases hc'
      · split_ifs at hc'
        · rw [List.mem_singleton.mp hc']
        · cases hc'
  | seq r s, h => by
      obtain ⟨hr, hs⟩ := Bool.and_eq_true_iff.mp h
      exact (keepsGroups_run n hr).bind (keepsGroups_run n hs)
  | alt r s, h => by
      obtain ⟨hr, hs⟩ := Bool.and_eq_true_iff.mp h
      intro c c' hc'
      rcases List.mem_append.mp hc' with hc' | hc'
      · exact keepsGroups_run n hr c c' hc'
      · exact keepsGroups_run n hs c c' hc'
  | rep r least most greedy, h => by
      intro c c' hc'
      obtain ⟨d, hd, hdc⟩ := List.mem_flatMap.mp hc'
      have hstep := keepsGroups_run n (r := r) h
      exact ((hstep.upTo greedy _) d c' hdc).trans ((hstep.times least) c d hd)
  | notAhead r, _ => by
      intro c c' hc'
      unfold run at hc'
      split_ifs at hc'
      · rw [List.mem_singleton.mp hc']
      · cases hc'
  | start, _ => by
      intro c c' hc'
      unfold run at hc'
      split_ifs at hc'
      · rw [List.mem_singleton.mp hc']
      · cases hc'

/-- The words of a way to match. -/
theorem exists_word {r : Regex} (hr : plain r = true) {n : ℕ} {c c' : Cursor} (h : c' ∈ run n r c) :
    ∃ w ∈ lang r, c.rest = w ++ c'.rest :=
  (consumes_run n hr c c'.rest).mp ⟨c', h, rfl⟩

section

variable {pre mid post : Regex} {name : String} {text : Text}

/-- A full match exists exactly if the text is made of three words. -/
theorem fullmatchGroups_isSome (hpre : plain pre = true) (hmid : plain mid = true)
    (hpost : plain post = true) :
    (fullmatchGroups (seq pre (seq (group name mid) post)) text).isSome = true ↔
      ∃ p ∈ lang pre, ∃ b ∈ lang mid, ∃ q ∈ lang post, text = p ++ (b ++ q) := by
  have hplain : plain (seq pre (seq (group name mid) post)) = true := by
    simp [plain, hpre, hmid, hpost]
  have hwords := consumes_run text.length hplain ⟨text, []⟩ []
  rw [fullmatchGroups, Option.isSome_map, List.find?_isSome]
  constructor
  · rintro ⟨c, hc, hend⟩
    obtain ⟨w, hw, htext⟩ := hwords.mp ⟨c, hc, List.isEmpty_iff.mp hend⟩
    obtain ⟨p, hp, v, hv, rfl⟩ := Language.mem_mul.mp hw
    obtain ⟨b, hb, q, hq, rfl⟩ := Language.mem_mul.mp hv
    exact ⟨p, hp, b, hb, q, hq, by simpa using htext⟩
  · rintro ⟨p, hp, b, hb, q, hq, htext⟩
    obtain ⟨c, hc, hend⟩ := hwords.mpr ⟨p ++ (b ++ q), Language.append_mem_mul hp
      (Language.append_mem_mul hb hq), by simpa using htext⟩
    exact ⟨c, hc, List.isEmpty_iff.mpr hend⟩

/-- The group of a full match is the word in the middle. -/
theorem fullmatchGroups_some (hpre : plain pre = true) (hmid : plain mid = true)
    (hpost : plain post = true) (gpre : groupless pre = true) (gmid : groupless mid = true)
    (gpost : groupless post = true) {groups : List (String × Text)}
    (h : fullmatchGroups (seq pre (seq (group name mid) post)) text = some groups) :
    ∃ p ∈ lang pre, ∃ b ∈ lang mid, ∃ q ∈ lang post, text = p ++ (b ++ q) ∧
      groups = [(name, b)] := by
  obtain ⟨c, hfound, rfl⟩ := Option.map_eq_some_iff.mp h
  have hend : c.rest = [] := by
    have hempty := List.find?_some hfound
    simpa using hempty
  obtain ⟨c₁, hc₁, hc⟩ := List.mem_flatMap.mp (List.mem_of_find?_eq_some hfound)
  obtain ⟨c₂, hc₂, hc⟩ := List.mem_flatMap.mp hc
  obtain ⟨d, hd, rfl⟩ := List.mem_map.mp hc₂
  obtain ⟨p, hp, hp'⟩ := exists_word hpre hc₁
  obtain ⟨b, hb, hb'⟩ := exists_word hmid hd
  obtain ⟨q, hq, hq'⟩ := exists_word hpost hc
  rw [hend, List.append_nil] at hq'
  refine ⟨p, hp, b, hb, q, hq, ?_, ?_⟩
  · rw [← hq', ← hb', ← hp']
  · have hcaptured : c₁.rest.take (c₁.rest.length - d.rest.length) = b := by
      rw [hb', List.length_append, Nat.add_sub_cancel, List.take_left]
    rw [keepsGroups_run _ gpost _ _ hc, hcaptured, keepsGroups_run _ gmid _ _ hd,
      keepsGroups_run _ gpre _ _ hc₁]

end

/-! ## Optional words -/

/-- An optional word is there or not. -/
theorem mem_lang_opt {r : Regex} {w : Text} : w ∈ lang (opt r) ↔ w = [] ∨ w ∈ lang r := by
  simp only [opt, lang, pow_zero, one_mul, mem_copies, Nat.sub_zero]
  constructor
  · rintro ⟨i, hi, hw⟩
    rcases Nat.le_one_iff_eq_zero_or_eq_one.mp hi with rfl | rfl
    · exact .inl (by simpa [Language.mem_one] using hw)
    · exact .inr (by simpa using hw)
  · rintro (rfl | hw)
    · exact ⟨0, by omega, by simp [Language.mem_one]⟩
    · exact ⟨1, le_refl 1, by simpa using hw⟩

theorem mem_lang_char {p : Char → Bool} {w : Text} :
    w ∈ lang (char p) ↔ ∃ c, p c = true ∧ w = [c] := Iff.rfl

theorem mem_lang_seq {r s : Regex} {w : Text} :
    w ∈ lang (seq r s) ↔ ∃ u ∈ lang r, ∃ v ∈ lang s, w = u ++ v := by
  rw [lang, Language.mem_mul]
  simp [eq_comm]

end Odirag.Regex
