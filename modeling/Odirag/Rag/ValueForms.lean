import Odirag.Foundations.Preferred
import Odirag.Rag.Terms

/-!
# The forms of exact values

Reference: `_EXPLICIT_VALUE` of `backend/app/rag/evidence.py`.

What the expression matches is a policy number, a year with or without month and day, or a quantity:
`ValueForm`. Which of the forms it matches at a place depends on the text behind the value only where
that text goes on with another part of the value, a month behind the year or an `元` behind the `万`
(`ValueForm.matchAt_iff`).
-/

namespace Odirag.Rag

open Regex
open Documents (isSpace)

variable {py : Python} {n : ℕ}

/-! ## The interpreter's tables -/

/-- The signs of the expression that are neither digits nor ideographs. -/
def valueSigns : Text := str ".%％〔[〕]-—"

variable (py) in
/-- What the tables say of digits and of ideographs: the digits of ASCII are digits, no digit is an
ideograph, a blank or a sign of the expression, and lower-casing has nothing to change in texts of these
characters. -/
structure Tables : Prop where
  isDigit_ascii : ∀ c, isAsciiDigit c = true → py.isDigit c = true
  not_cjk : ∀ c, py.isDigit c = true → isCjk c = false
  not_space : ∀ c, py.isDigit c = true → isSpace c = false
  not_sign : ∀ c ∈ ',' :: '，' :: valueSigns, py.isDigit c = false
  lower_value : ∀ t : Text, (∀ c ∈ t, py.isDigit c = true ∨ isCjk c = true ∨ c ∈ valueSigns) →
    py.lower t = t

theorem tables_basic : Tables .basic where
  isDigit_ascii _ h := h
  not_cjk c h := by
    simp [Python.basic, isAsciiDigit, isCjk] at h ⊢
    omega
  not_space c h := by
    simp [Python.basic, isAsciiDigit, isSpace] at h ⊢
    omega
  not_sign := by decide
  lower_value t h := by
    have hfixed : ∀ c ∈ t, lowerAscii c = c := by
      intro c hc
      refine if_neg fun hletter => ?_
      rcases h c hc with h | h | h
      · simp [Python.basic, isAsciiDigit] at h
        omega
      · simp [isCjk] at h
        omega
      · have hsigns : ∀ c ∈ valueSigns, ¬ (65 ≤ c.toNat ∧ c.toNat ≤ 90) := by decide
        exact hsigns c h hletter
    calc t.map lowerAscii = t.map id := List.map_congr_left hfixed
      _ = t := List.map_id t

/-- An ideograph is no digit. -/
theorem Tables.not_digit (tables : Tables py) {c : Char} (hc : isCjk c = true) :
    py.isDigit c = false := by
  cases h : py.isDigit c with
  | false => rfl
  | true => simp [tables.not_cjk c h] at hc

/-- Neither is a sign of the expression. -/
theorem Tables.not_digit_sign (tables : Tables py) {c : Char} (hc : c ∈ valueSigns ∨ isCjk c = true) :
    py.isDigit c = false := by
  rcases hc with hsign | hcjk
  · exact tables.not_sign c (List.mem_cons_of_mem _ (List.mem_cons_of_mem _ hsign))
  · exact tables.not_digit hcjk

/-! ## Words -/

variable (py) in
/-- A row of digits. -/
def Digits (d : Text) : Prop := (∀ c ∈ d, py.isDigit c = true) ∧ d ≠ []

variable (py) in
/-- The number of a month or a day: one or two digits. -/
def ShortNumber (d : Text) : Prop := (∀ c ∈ d, py.isDigit c = true) ∧ 1 ≤ d.length ∧ d.length ≤ 2

variable (py) in
/-- What may follow the whole part of a number. -/
def Fraction (f : Text) : Prop := f = [] ∨ ∃ d, Digits py d ∧ f = '.' :: d

/-- The texts of `valueUnits`. -/
def valueUnitTexts : List Text :=
  strs ["%", "％", "万元", "亿元", "元", "万", "亿", "家", "项", "条", "个", "天", "个月"]

/-- The units that are ever taken: where a month is counted, the `个` before it is. -/
def takenUnits : List Text := valueUnitTexts.filter (· ≠ str "个月")

theorem mem_lang_digits {d : Text} : d ∈ lang (plus py.digit) ↔ Digits py d := mem_lang_plus_char

theorem mem_lang_shortNumber {d : Text} : d ∈ lang (between py.digit 1 2) ↔ ShortNumber py d :=
  mem_lang_rep_char (by omega)

theorem mem_lang_lit {word : String} {letters : Chars word} {w : Text} :
    w ∈ lang (lit word letters) ↔ w = letters.text := mem_lang_chars

theorem valueUnits_eq : valueUnits = oneOf (valueUnitTexts.map chars) := rfl

theorem mem_lang_century {century : Text} :
    century ∈ lang (words ["19", "20"]) ↔ century ∈ strs ["19", "20"] :=
  mem_lang_oneOf_chars (by simp)

/-- A year has four digits. -/
theorem digits_of_year (tables : Tables py) {y : Text} (hy : y ∈ lang (year py)) :
    Digits py y ∧ y.length = 4 := by
  obtain ⟨century, hcentury, d, hd, rfl⟩ := mem_lang_seq.mp hy
  rw [mem_lang_century] at hcentury
  obtain ⟨hd, hleast, hmost⟩ := (mem_lang_rep_char (le_refl 2)).mp hd
  have hascii : ∀ t ∈ strs ["19", "20"], t.length = 2 ∧ ∀ c ∈ t, isAsciiDigit c = true := by decide
  obtain ⟨hlength, hdigits⟩ := hascii century hcentury
  refine ⟨⟨fun c hc => ?_, fun hnil => ?_⟩, by rw [List.length_append]; omega⟩
  · rcases List.mem_append.mp hc with hc | hc
    · exact tables.isDigit_ascii c (hdigits c hc)
    · exact hd c hc
  · rw [(List.append_eq_nil_iff.mp hnil).1] at hlength
    cases hlength

variable (py) in
/-- `_POLICY_IDENTIFIER_PATTERN` without its assertion, which is one about the same character as the
class behind it. -/
def policyWords : Regex :=
  seqs [between (char fun c => decide (c ∉ str "为是号据及与的") && isCjk c) 1 12, anyOf "〔[", year py,
    anyOf "〕]", opt (lit "第"), plus py.digit, opt (seq (anyOf "-—") (plus py.digit)), lit "号"]

theorem run_policyIdentifier : run n (policyIdentifier py) = run n (policyWords py) := by
  have hname : run n (seq (notAhead (anyOf "为是号据及与的")) cjk) =
      run n (char fun c => decide (c ∉ str "为是号据及与的") && isCjk c) := by
    rw [anyOf, cjk, run_notAhead_char]
    simp [str]
  exact run_seq_congr (run_rep_congr hname)

theorem plain_policyWords : plain (policyWords py) = true := rfl

/-! ## Forms -/

variable (py) in
/-- The values that the expression matches. -/
inductive ValueForm : Text → Prop
  | policy {w} (hw : w ∈ lang (policyWords py)) : ValueForm w
  | year {y} (hy : y ∈ lang (year py)) : ValueForm y
  | ofYear {y} (hy : y ∈ lang (Rag.year py)) : ValueForm (y ++ ['年'])
  | month {y m} (hy : y ∈ lang (Rag.year py)) (hm : ShortNumber py m) :
      ValueForm (y ++ '年' :: (m ++ ['月']))
  | day {y m d} (hy : y ∈ lang (Rag.year py)) (hm : ShortNumber py m) (hd : ShortNumber py d) :
      ValueForm (y ++ '年' :: (m ++ '月' :: (d ++ ['日'])))
  | quantity {d f u} (hd : Digits py d) (hf : Fraction py f) (hu : u ∈ takenUnits)
      (hyear : ∀ y ∈ lang (Rag.year py), ¬ y <+: d) : ValueForm (d ++ (f ++ u))

/-! ## What follows a value -/

variable (py) in
/-- The text begins with the number of a month or a day and this sign. -/
def opensWith (sign : Char) (text : Text) : Bool :=
  let digits := text.takeWhile py.isDigit
  1 ≤ digits.length && digits.length ≤ 2 && (text.dropWhile py.isDigit).head? == some sign

variable (py) in
/-- The text behind the value has the next part of it: the `年` of a year, the month of a year, the day of
a month, or the `元` of a `万` or `亿`. -/
def valueGoesOn (value after : Text) : Bool :=
  match value.getLast? with
  | none => false
  | some c =>
      if py.isDigit c then after.head? == some '年'
      else if c == '年' then opensWith py '月' after
      else if c == '月' then opensWith py '日' after
      else (c == '万' || c == '亿') && after.head? == some '元'

theorem takeWhile_digits {d : Text} {c : Char} (hd : ∀ x ∈ d, py.isDigit x = true)
    (hc : py.isDigit c = false) (rest : Text) :
    (d ++ c :: rest).takeWhile py.isDigit = d ∧ (d ++ c :: rest).dropWhile py.isDigit = c :: rest := by
  rw [List.takeWhile_append_of_pos hd, List.dropWhile_append_of_pos hd]
  simp [hc]

theorem opensWith_iff {sign : Char} (hsign : py.isDigit sign = false) {text : Text} :
    opensWith py sign text = true ↔ ∃ m rest, ShortNumber py m ∧ text = m ++ sign :: rest := by
  simp only [opensWith, Bool.and_eq_true, decide_eq_true_eq, beq_iff_eq]
  constructor
  · rintro ⟨⟨hleast, hmost⟩, hhead⟩
    obtain ⟨rest, hrest⟩ := List.head?_eq_some_iff.mp hhead
    refine ⟨_, rest, ⟨fun c hc => List.mem_takeWhile_imp hc, hleast, hmost⟩, ?_⟩
    rw [← hrest, List.takeWhile_append_dropWhile]
  · rintro ⟨m, rest, hm, rfl⟩
    obtain ⟨htake, hdrop⟩ := takeWhile_digits hm.1 hsign rest
    rw [htake, hdrop]
    exact ⟨hm.2, rfl⟩

/-! ## Dates -/

section

variable (py)

/-- The day behind a month. -/
def dayOption : Regex := opt (seq (between py.digit 1 2) (lit "日"))

/-- The month behind a year. -/
def monthOption : Regex := opt (seqs [between py.digit 1 2, lit "月", dayOption py])

/-- What may follow the digits of a year. -/
def yearOption : Regex := opt (seq (lit "年") (monthOption py))

theorem explicitValue_eq : explicitValue py =
    alt (policyIdentifier py)
      (alt (seq (year py) (yearOption py)) (seq (number py) valueUnits)) := rfl

end

variable {b rest : Text}

theorem prefers_shortNumber {m : Text} (hm : ShortNumber py m) {sign : Char}
    (hsign : py.isDigit sign = false) :
    Prefers n (between py.digit 1 2) (m ++ sign :: rest) (sign :: rest) := by
  refine prefers_rep_char hm.1 hm.2.1 (fun k hk => ?_) (.inr (Text.forall_head?_cons hsign rest))
  rw [← Option.some.inj hk]
  exact hm.2.2

theorem fails_shortNumber {s : Regex} (hs : plain s = true) {sign : Char}
    (hsign : py.isDigit sign = false) (hwords : ∀ w ∈ lang s, ∃ z, w = sign :: z)
    (h : opensWith py sign b = false) : Fails n (seq (between py.digit 1 2) s) b := by
  have hplain : plain (seq (between py.digit 1 2) s) = true := hs
  rw [fails_iff hplain]
  rintro w hw ⟨after, rfl⟩
  obtain ⟨m, hm, w', hw', rfl⟩ := mem_lang_seq.mp hw
  obtain ⟨z, rfl⟩ := hwords w' hw'
  have hopens : opensWith py sign (m ++ sign :: z ++ after) = true :=
    (opensWith_iff hsign).mpr ⟨m, z ++ after, mem_lang_shortNumber.mp hm, by simp⟩
  rw [hopens] at h
  cases h

variable (tables : Tables py)

include tables

theorem prefers_dayOption {d : Text} (hd : ShortNumber py d) :
    Prefers n (dayOption py) (d ++ '日' :: b) b :=
  ((prefers_shortNumber hd (tables.not_digit (by decide))).seq (prefers_chars ['日'])).opt

theorem prefers_dayOption_none (h : opensWith py '日' b = false) : Prefers n (dayOption py) b b := by
  refine prefers_opt_of_fails (fails_shortNumber rfl (tables.not_digit (by decide)) ?_ h)
  intro w hw
  exact ⟨[], mem_lang_lit.mp hw⟩

theorem prefers_monthOption {m : Text} (hm : ShortNumber py m)
    (h : Prefers n (dayOption py) rest b) : Prefers n (monthOption py) (m ++ '月' :: rest) b :=
  ((prefers_shortNumber hm (tables.not_digit (by decide))).seq
    ((prefers_chars ['月']).seq h)).opt

theorem prefers_monthOption_none (h : opensWith py '月' b = false) :
    Prefers n (monthOption py) b b := by
  refine prefers_opt_of_fails (fails_shortNumber rfl (tables.not_digit (by decide)) ?_ h)
  intro w hw
  obtain ⟨w', hw', z, -, rfl⟩ := mem_lang_seq.mp hw
  exact ⟨z, by rw [mem_lang_lit.mp hw']; rfl⟩

omit tables in
theorem prefers_yearOption (h : Prefers n (monthOption py) rest b) :
    Prefers n (yearOption py) ('年' :: rest) b :=
  ((prefers_chars ['年']).seq h).opt

omit tables in
theorem prefers_yearOption_none (h : b.head? ≠ some '年') : Prefers n (yearOption py) b b := by
  refine prefers_opt_of_fails ((fails_iff rfl).mpr ?_)
  rintro w hw ⟨after, rfl⟩
  obtain ⟨w', hw', z, -, rfl⟩ := mem_lang_seq.mp hw
  rw [mem_lang_lit.mp hw'] at h
  exact h rfl

omit tables in
theorem prefers_year {y : Text} (hy : y ∈ lang (year py)) : Prefers n (year py) (y ++ b) b := by
  obtain ⟨century, hcentury, d, hd, rfl⟩ := mem_lang_seq.mp hy
  rw [mem_lang_century] at hcentury
  obtain ⟨hd, hleast, hmost⟩ := (mem_lang_rep_char (le_refl 2)).mp hd
  have hlength : d.length = 2 := by omega
  have hfind : (strs ["19", "20"]).find? (·.isPrefixOf (century ++ (d ++ b))) = some century := by
    simp only [strs, CharsOf.texts_cons, CharsOf.texts_nil, Chars.text_mk, List.mem_cons,
      List.not_mem_nil, or_false] at hcentury
    rcases hcentury with rfl | rfl <;> simp [strs, List.find?, List.isPrefixOf]
  rw [List.append_assoc]
  exact (prefers_oneOf_chars hfind).seq
    (prefers_rep_char hd hleast (by simp [hlength]) (.inl (by rw [hlength])))

/-! ## Quantities -/

omit tables in
theorem mem_takenUnits {u : Text} (hu : u ∈ takenUnits) :
    u ∈ strs ["%", "％", "万元", "亿元", "元", "万", "亿", "家", "项", "条", "个", "天"] := by
  simpa [takenUnits, valueUnitTexts, strs, str] using hu

/-- A unit begins with a sign that is neither a digit nor a point. -/
theorem head_of_unit {u : Text} (hu : u ∈ takenUnits) :
    ∃ c rest, u = c :: rest ∧ py.isDigit c = false ∧ c ≠ '.' := by
  have hunits : ∀ u ∈ takenUnits, u ≠ [] ∧
      ∀ c ∈ u.head?, (c ∈ valueSigns ∨ isCjk c = true) ∧ c ≠ '.' := by decide
  obtain ⟨hne, hhead⟩ := hunits u hu
  obtain ⟨c, rest, rfl⟩ := List.exists_cons_of_ne_nil hne
  obtain ⟨hsign, hpoint⟩ := hhead c rfl
  exact ⟨c, rest, rfl, tables.not_digit_sign hsign, hpoint⟩

omit tables in
/-- The unit is taken unless it is the `万` or `亿` of a `万元` or `亿元`. -/
theorem prefers_unit {u : Text} (hu : u ∈ takenUnits)
    (h : u = ['万'] ∨ u = ['亿'] → b.head? ≠ some '元') : Prefers n valueUnits (u ++ b) b := by
  have hcut : u = ['万'] ∨ u = ['亿'] → ['元'].isPrefixOf b = false := by
    intro hunit
    cases b with
    | nil => rfl
    | cons c b =>
        have hc := h hunit
        rw [List.head?_cons, ne_eq, Option.some.injEq] at hc
        simp [List.isPrefixOf, Ne.symm hc]
  have hunits := mem_takenUnits hu
  simp only [strs, CharsOf.texts_cons, CharsOf.texts_nil, Chars.text_mk, List.mem_cons,
    List.not_mem_nil, or_false] at hunits
  have hfind : valueUnitTexts.find? (·.isPrefixOf (u ++ b)) = some u := by
    rcases hunits with rfl | rfl | rfl | rfl | rfl | rfl | rfl | rfl | rfl | rfl | rfl | rfl <;>
      simp [valueUnitTexts, strs, List.find?, List.isPrefixOf, hcut]
  exact prefers_oneOf_chars hfind

theorem prefers_number {d f : Text} (hd : Digits py d) (hf : Fraction py f)
    (hrest : ∀ c ∈ rest.head?, py.isDigit c = false ∧ c ≠ '.') :
    Prefers n (number py) (d ++ (f ++ rest)) rest := by
  have hdigits : ∀ {d t : Text}, Digits py d → (∀ c ∈ t.head?, py.isDigit c = false) →
      Prefers n (plus py.digit) (d ++ t) t := fun hd ht =>
    prefers_rep_char hd.1 (List.length_pos_iff.mpr hd.2) (by simp) (.inr ht)
  rcases hf with rfl | ⟨g, hg, rfl⟩
  · refine (hdigits hd fun c hc => (hrest c hc).1).seq (prefers_opt_of_fails ((fails_iff rfl).mpr ?_))
    rintro w hw ⟨after, hafter⟩
    obtain ⟨w', hw', z, -, rfl⟩ := mem_lang_seq.mp hw
    rw [mem_lang_lit.mp hw'] at hafter
    exact (hrest '.' (by rw [← hafter]; rfl)).2 rfl
  · have hpoint : ∀ c ∈ ('.' :: g ++ rest).head?, py.isDigit c = false :=
      Text.forall_head?_cons (tables.not_sign '.' (by decide)) _
    have hfraction := (prefers_chars (n := n) ['.']).seq (hdigits hg fun c hc => (hrest c hc).1)
    exact (hdigits hd hpoint).seq hfraction.opt

/-! ## The preferred value -/

/-- No policy number begins with a digit. -/
theorem fails_policyIdentifier {c : Char} (hc : py.isDigit c = true) (text : Text) :
    Fails n (policyIdentifier py) (c :: text) := by
  intro groups
  rw [run_policyIdentifier]
  refine Fails.seq ((fails_iff rfl).mpr ?_) groups
  rintro w hw ⟨after, hafter⟩
  obtain ⟨hname, hleast, -⟩ := (mem_lang_rep_char (by omega)).mp hw
  cases w with
  | nil => simp at hleast
  | cons x w =>
      obtain ⟨rfl, -⟩ := List.cons.inj hafter
      have hx := hname x List.mem_cons_self
      rw [tables.not_cjk x hc] at hx
      simp at hx

theorem fails_policyIdentifier_digits {d : Text} (hd : Digits py d) (text : Text) :
    Fails n (policyIdentifier py) (d ++ text) := by
  obtain ⟨hdigits, hne⟩ := hd
  cases d with
  | nil => exact absurd rfl hne
  | cons c d => exact fails_policyIdentifier tables (hdigits c List.mem_cons_self) (d ++ text)

/-- A year at this place is taken, with the month and day that follow it. -/
theorem prefers_dated {y : Text} (hy : y ∈ lang (year py)) (h : Prefers n (yearOption py) rest b) :
    Prefers n (explicitValue py) (y ++ rest) b :=
  .alt_right (fails_policyIdentifier_digits tables (digits_of_year tables hy).1 rest)
    ((prefers_year hy).seq h).alt_left

omit tables in
/-- A prefix of digits is one of the digits that the text begins with. -/
theorem prefix_of_digits {y d : Text} (hy : ∀ c ∈ y, py.isDigit c = true)
    (hrest : ∀ c ∈ rest.head?, py.isDigit c = false) (h : y <+: d ++ rest) : y <+: d := by
  rcases List.prefix_or_prefix_of_prefix h (List.prefix_append d rest) with h' | ⟨z, rfl⟩
  · exact h'
  · cases z with
    | nil => rw [List.append_nil]
    | cons c z =>
        obtain ⟨after, hafter⟩ := (List.prefix_append_right_inj d).mp h
        have hc := hrest c (by rw [← hafter]; rfl)
        rw [hy c (by simp)] at hc
        cases hc

omit tables in
/-- The parts of a policy number. -/
theorem policyWords_parts {w : Text} (hw : w ∈ lang (policyWords py)) :
    ∃ name l y r o d s, w = name ++ l :: (y ++ r :: (o ++ (d ++ (s ++ ['号'])))) ∧
      ((∀ c ∈ name, (decide (c ∉ str "为是号据及与的") && isCjk c) = true) ∧ 1 ≤ name.length ∧
        name.length ≤ 12) ∧
      l ∈ str "〔[" ∧ y ∈ lang (year py) ∧ r ∈ str "〕]" ∧ (o = [] ∨ o = ['第']) ∧ Digits py d ∧
      (s = [] ∨ ∃ c e, c ∈ str "-—" ∧ Digits py e ∧ s = c :: e) := by
  obtain ⟨name, hname, t₁, h₁, rfl⟩ := mem_lang_seq.mp hw
  obtain ⟨_, ⟨l, hl, rfl⟩, t₂, h₂, rfl⟩ := mem_lang_seq.mp h₁
  obtain ⟨y, hy, t₃, h₃, rfl⟩ := mem_lang_seq.mp h₂
  obtain ⟨_, ⟨r, hr, rfl⟩, t₄, h₄, rfl⟩ := mem_lang_seq.mp h₃
  obtain ⟨o, ho, t₅, h₅, rfl⟩ := mem_lang_seq.mp h₄
  obtain ⟨d, hd, t₆, h₆, rfl⟩ := mem_lang_seq.mp h₅
  obtain ⟨s, hs, last, hlast, rfl⟩ := mem_lang_seq.mp h₆
  refine ⟨name, l, y, r, o, d, s, ?_, (mem_lang_rep_char (by omega)).mp hname, of_decide_eq_true hl,
    hy, of_decide_eq_true hr, ?_, mem_lang_digits.mp hd, ?_⟩
  · rw [mem_lang_lit.mp hlast]
    simp
  · exact (mem_lang_opt.mp ho).imp_right mem_lang_lit.mp
  · refine (mem_lang_opt.mp hs).imp_right fun hs => ?_
    obtain ⟨_, ⟨c, hc, rfl⟩, e, he, rfl⟩ := mem_lang_seq.mp hs
    exact ⟨c, e, of_decide_eq_true hc, mem_lang_digits.mp he, rfl⟩

theorem prefers_policyIdentifier {w : Text} (hw : w ∈ lang (policyWords py)) :
    Prefers n (policyIdentifier py) (w ++ b) b := by
  obtain ⟨name, l, y, r, o, d, s, rfl, ⟨hname, hleast, hmost⟩, hl, hy, hr, ho, hd, hs⟩ :=
    policyWords_parts hw
  have hdash : ∀ c ∈ '号' :: str "-—", py.isDigit c = false := by
    have hsigns : ∀ c ∈ '号' :: str "-—", c ∈ valueSigns ∨ isCjk c = true := by decide
    exact fun c hc => tables.not_digit_sign (hsigns c hc)
  have hlast : Prefers n (lit "号") ('号' :: b) b := prefers_chars ['号']
  have hsub : Prefers n (opt (seq (anyOf "-—") (plus py.digit))) (s ++ '号' :: b) ('号' :: b) := by
    rcases hs with rfl | ⟨c, e, hc, he, rfl⟩
    · refine prefers_opt_of_fails (Fails.seq ((fails_iff rfl).mpr ?_))
      rintro w ⟨c, hc, rfl⟩ ⟨after, hafter⟩
      obtain ⟨rfl, -⟩ := List.cons.inj hafter
      exact absurd (of_decide_eq_true hc) (by decide)
    · have hstop : ∀ x ∈ ('号' :: b).head?, py.isDigit x = false :=
        Text.forall_head?_cons (hdash '号' List.mem_cons_self) b
      exact ((prefers_char (decide_eq_true hc)).seq (prefers_rep_char he.1
        (List.length_pos_iff.mpr he.2) (by simp) (.inr hstop))).opt
  have hdigits : Prefers n (plus py.digit) (d ++ (s ++ '号' :: b)) (s ++ '号' :: b) := by
    refine prefers_rep_char hd.1 (List.length_pos_iff.mpr hd.2) (by simp) (.inr ?_)
    rcases hs with rfl | ⟨c, e, hc, he, rfl⟩
    · exact Text.forall_head?_cons (hdash '号' List.mem_cons_self) b
    · exact Text.forall_head?_cons (hdash c (List.mem_cons_of_mem _ hc)) _
  have hordinal : Prefers n (opt (lit "第")) (o ++ (d ++ (s ++ '号' :: b)))
      (d ++ (s ++ '号' :: b)) := by
    rcases ho with rfl | rfl
    · refine prefers_opt_of_fails ((fails_iff (plain_chars _)).mpr ?_)
      rintro x hx ⟨after, hafter⟩
      obtain ⟨c, d', rfl⟩ := List.exists_cons_of_ne_nil hd.2
      rw [mem_lang_lit.mp hx] at hafter
      obtain ⟨rfl, -⟩ := List.cons.inj hafter
      have hc := hd.1 '第' List.mem_cons_self
      rw [tables.not_digit (by decide)] at hc
      cases hc
    · exact (prefers_chars ['第']).opt
  have hnameStop : ∀ c ∈ str "〔[", (decide (c ∉ str "为是号据及与的") && isCjk c) = false := by decide
  have hall : Prefers n (policyWords py)
      (name ++ l :: (y ++ r :: (o ++ (d ++ (s ++ '号' :: b))))) b :=
    (prefers_rep_char hname hleast (fun k hk => by rw [← Option.some.inj hk]; exact hmost)
      (.inr (Text.forall_head?_cons (hnameStop l hl) _))).seq
    ((prefers_char (decide_eq_true hl)).seq
    ((prefers_year hy).seq
    ((prefers_char (decide_eq_true hr)).seq
    (hordinal.seq (hdigits.seq (hsub.seq hlast))))))
  intro groups
  rw [run_policyIdentifier]
  simpa using hall groups

omit tables in
theorem valueGoesOn_concat (v after : Text) (c : Char) : valueGoesOn py (v ++ [c]) after =
    if py.isDigit c then after.head? == some '年'
    else if c == '年' then opensWith py '月' after
    else if c == '月' then opensWith py '日' after
    else (c == '万' || c == '亿') && after.head? == some '元' := by
  rw [valueGoesOn, List.getLast?_concat]

theorem valueGoesOn_year {y : Text} (hy : y ∈ lang (year py)) (after : Text) :
    valueGoesOn py y after = (after.head? == some '年') := by
  obtain ⟨hdigits, hne⟩ := (digits_of_year tables hy).1
  obtain ⟨v, c, rfl⟩ := List.eq_nil_or_concat y |>.resolve_left hne
  rw [List.concat_eq_append, valueGoesOn_concat,
    if_pos (hdigits c (by rw [List.concat_eq_append]; simp))]

theorem valueGoesOn_sign (v after : Text) {c : Char} (hc : isCjk c = true) :
    valueGoesOn py (v ++ [c]) after =
      if c == '年' then opensWith py '月' after
      else if c == '月' then opensWith py '日' after
      else (c == '万' || c == '亿') && after.head? == some '元' := by
  rw [valueGoesOn_concat, if_neg (by rw [tables.not_digit hc]; simp)]

theorem valueGoesOn_month (y m after : Text) :
    valueGoesOn py (y ++ '年' :: (m ++ ['月'])) after = opensWith py '日' after := by
  have hsplit : y ++ '年' :: (m ++ ['月']) = (y ++ '年' :: m) ++ ['月'] := by simp
  rw [hsplit, valueGoesOn_sign tables _ _ (by decide)]
  rfl

theorem valueGoesOn_quantity {u : Text} (hu : u ∈ takenUnits) (t after : Text) :
    valueGoesOn py (t ++ u) after =
      ((u == ['万'] || u == ['亿']) && after.head? == some '元') := by
  have hunits : ∀ u ∈ takenUnits, u ≠ [] ∧ ∀ c ∈ u.getLast?, (c ∈ valueSigns ∨ isCjk c = true) ∧
      c ≠ '年' ∧ c ≠ '月' ∧ (c == '万' || c == '亿') = (u == ['万'] || u == ['亿']) := by decide
  obtain ⟨hne, hlast⟩ := hunits u hu
  obtain ⟨v, c, rfl⟩ := (List.eq_nil_or_concat u).resolve_left hne
  rw [List.concat_eq_append] at hlast ⊢
  obtain ⟨hsign, hyear, hmonth, hlarge⟩ := hlast c (List.getLast?_concat ..)
  rw [← List.append_assoc, valueGoesOn_concat, if_neg (by rw [tables.not_digit_sign hsign]; simp),
    if_neg (by simpa using hyear), if_neg (by simpa using hmonth), hlarge]

/-- Where nothing goes on behind it, the expression takes the value. -/
theorem ValueForm.prefers {v : Text} (hv : ValueForm py v) (h : valueGoesOn py v b = false) :
    Prefers n (explicitValue py) (v ++ b) b := by
  cases hv with
  | policy hw => exact (prefers_policyIdentifier tables hw).alt_left
  | year hy =>
      rw [valueGoesOn_year tables hy, beq_eq_false_iff_ne] at h
      exact prefers_dated tables hy (prefers_yearOption_none h)
  | ofYear hy =>
      rw [valueGoesOn_sign tables _ _ (by decide)] at h
      rw [List.append_assoc]
      exact prefers_dated tables hy (prefers_yearOption (prefers_monthOption_none tables h))
  | @month y m hy hm =>
      rw [valueGoesOn_month tables] at h
      have hday := prefers_monthOption (n := n) tables hm (prefers_dayOption_none tables h)
      simpa using prefers_dated tables hy (prefers_yearOption hday)
  | @day y m d hy hm hd =>
      have hmonth := prefers_monthOption (n := n) tables hm (prefers_dayOption tables hd (b := b))
      simpa using prefers_dated tables hy (prefers_yearOption hmonth)
  | @quantity d f u hd hf hu hyear =>
      obtain ⟨c, rest, hc, hdigit, hpoint⟩ := head_of_unit tables hu
      have hstop : ∀ x ∈ (u ++ b).head?, py.isDigit x = false ∧ x ≠ '.' := by
        rw [hc]
        exact Text.forall_head?_cons ⟨hdigit, hpoint⟩ _
      have hunit : Prefers n valueUnits (u ++ b) b := by
        refine prefers_unit hu fun hlast hnext => ?_
        rw [← List.append_assoc, valueGoesOn_quantity tables hu, hnext] at h
        rcases hlast with rfl | rfl <;> simp at h
      have hstop' : ∀ x ∈ (f ++ (u ++ b)).head?, py.isDigit x = false := by
        rcases hf with rfl | ⟨g, -, rfl⟩
        · exact fun x hx => (hstop x hx).1
        · exact Text.forall_head?_cons (tables.not_sign '.' (by decide)) _
      have hnoyear : Fails n (Rag.year py) (d ++ (f ++ (u ++ b))) := by
        refine (fails_iff rfl).mpr fun y hy hprefix => hyear y hy ?_
        exact prefix_of_digits (digits_of_year tables hy).1.1 hstop' hprefix
      have hnumber := (prefers_number (n := n) tables hd hf hstop).seq hunit
      rw [List.append_assoc, List.append_assoc]
      exact .alt_right (fails_policyIdentifier_digits tables hd _) (.alt_right hnoyear.seq hnumber)

/-- A value that goes on is the beginning of a longer one. -/
theorem ValueForm.extend {v : Text} (hv : ValueForm py v) (h : valueGoesOn py v b = true) :
    ∃ e rest, b = e ++ rest ∧ e ≠ [] ∧ ValueForm py (v ++ e) := by
  cases hv with
  | @policy w hw =>
      obtain ⟨name, l, y, r, o, d, s, rfl, -⟩ := policyWords_parts hw
      have hsplit : name ++ l :: (y ++ r :: (o ++ (d ++ (s ++ ['号'])))) =
          (name ++ l :: (y ++ r :: (o ++ (d ++ s)))) ++ ['号'] := by simp
      rw [hsplit, valueGoesOn_sign tables _ _ (by decide)] at h
      simp at h
  | year hy =>
      rw [valueGoesOn_year tables hy, beq_iff_eq] at h
      obtain ⟨rest, rfl⟩ := List.head?_eq_some_iff.mp h
      exact ⟨['年'], rest, rfl, by simp, .ofYear hy⟩
  | @ofYear y hy =>
      rw [valueGoesOn_sign tables _ _ (by decide)] at h
      obtain ⟨m, rest, hm, rfl⟩ := (opensWith_iff (tables.not_digit (by decide))).mp h
      exact ⟨m ++ ['月'], rest, by simp, by simp, by simpa using ValueForm.month hy hm⟩
  | @month y m hy hm =>
      rw [valueGoesOn_month tables] at h
      obtain ⟨d, rest, hd, rfl⟩ := (opensWith_iff (tables.not_digit (by decide))).mp h
      exact ⟨d ++ ['日'], rest, by simp, by simp, by simpa using ValueForm.day hy hm hd⟩
  | @day y m d hy hm hd =>
      have hsplit : y ++ '年' :: (m ++ '月' :: (d ++ ['日'])) =
          (y ++ '年' :: (m ++ '月' :: d)) ++ ['日'] := by simp
      rw [hsplit, valueGoesOn_sign tables _ _ (by decide)] at h
      simp at h
  | @quantity d f u hd hf hu hyear =>
      rw [← List.append_assoc, valueGoesOn_quantity tables hu, Bool.and_eq_true, beq_iff_eq,
        Bool.or_eq_true, beq_iff_eq, beq_iff_eq] at h
      obtain ⟨hlast, hnext⟩ := h
      obtain ⟨rest, rfl⟩ := List.head?_eq_some_iff.mp hnext
      have hunit : u ++ ['元'] ∈ takenUnits := by
        rcases hlast with rfl | rfl <;> decide
      exact ⟨['元'], rest, rfl, by simp, by simpa using ValueForm.quantity hd hf hunit hyear⟩

/-- The expression takes the value and all parts of it that follow. -/
theorem ValueForm.exists_prefers {v : Text} (hv : ValueForm py v) (b : Text) :
    ∃ e rest, b = e ++ rest ∧ ValueForm py (v ++ e) ∧
      Prefers n (explicitValue py) (v ++ b) rest := by
  induction hlength : b.length using Nat.strong_induction_on generalizing v b with
  | _ k ih =>
      cases h : valueGoesOn py v b with
      | false => exact ⟨[], b, rfl, by rwa [List.append_nil], hv.prefers tables h⟩
      | true =>
          obtain ⟨e, rest, rfl, hne, hlonger⟩ := hv.extend tables h
          have hshorter : rest.length < k := by
            have hpos := List.length_pos_iff.mpr hne
            rw [← hlength, List.length_append]
            omega
          obtain ⟨e', rest', rfl, hform, hprefers⟩ := ih _ hshorter hlonger rest rfl
          exact ⟨e ++ e', rest', by simp, by simpa using hform, by simpa using hprefers⟩

/-- The expression takes the value exactly if nothing goes on behind it. -/
theorem ValueForm.matchAt_iff {v : Text} (hv : ValueForm py v) (b : Text) (pos : ℕ) :
    (∃ m, matchAt (explicitValue py) n pos (v ++ b) = some m ∧ m.text = v) ↔
      valueGoesOn py v b = false := by
  constructor
  · rintro ⟨m, hm, htext⟩
    cases h : valueGoesOn py v b with
    | false => rfl
    | true =>
        obtain ⟨e, rest, rfl, hne, hlonger⟩ := hv.extend tables h
        obtain ⟨e', rest', rfl, -, hprefers⟩ := hlonger.exists_prefers (n := n) tables rest
        have hsplit : v ++ e ++ (e' ++ rest') = (v ++ (e ++ e')) ++ rest' := by simp
        rw [hsplit] at hprefers
        obtain ⟨m', hm', htext'⟩ := hprefers.matchAt pos
        rw [← hsplit, List.append_assoc, hm] at hm'
        rw [← Option.some.inj hm', htext] at htext'
        exact absurd htext' (by simpa using fun h => absurd h hne)
  · exact fun h => (hv.prefers tables h).matchAt pos

omit tables in
theorem valueForm_of_dated {w : Text} (hw : w ∈ lang (seq (year py) (yearOption py))) :
    ValueForm py w := by
  obtain ⟨y, hy, e, he, rfl⟩ := mem_lang_seq.mp hw
  rcases mem_lang_opt.mp he with rfl | he
  · rw [List.append_nil]
    exact .year hy
  obtain ⟨_, h₁, e₁, he₁, rfl⟩ := mem_lang_seq.mp he
  rw [mem_lang_lit.mp h₁]
  rcases mem_lang_opt.mp he₁ with rfl | he₁
  · exact .ofYear hy
  obtain ⟨m, hm, t, ht, rfl⟩ := mem_lang_seq.mp he₁
  obtain ⟨_, h₂, e₂, he₂, rfl⟩ := mem_lang_seq.mp ht
  rw [mem_lang_lit.mp h₂]
  rw [mem_lang_shortNumber] at hm
  rcases mem_lang_opt.mp he₂ with rfl | he₂
  · exact .month hy hm
  obtain ⟨d, hd, _, h₃, rfl⟩ := mem_lang_seq.mp he₂
  rw [mem_lang_lit.mp h₃]
  exact .day hy hm (mem_lang_shortNumber.mp hd)

/-- The `个` of counted months is a unit of its own and comes first. -/
theorem ne_months_of_matchAt {pos : ℕ} {d f after : Text} {m : Match} (hd : Digits py d)
    (hf : Fraction py f)
    (h : matchAt (seq (number py) valueUnits) n pos (d ++ (f ++ (str "个月" ++ after))) = some m) :
    m.text ≠ d ++ (f ++ str "个月") := by
  have hstop : ∀ c ∈ (['个'] ++ '月' :: after).head?, py.isDigit c = false ∧ c ≠ '.' :=
    Text.forall_head?_cons ⟨tables.not_digit (by decide), by decide⟩ _
  have hunit : Prefers n valueUnits (['个'] ++ '月' :: after) ('月' :: after) :=
    prefers_unit (by decide) fun h => absurd h (by decide)
  have hshorter : Prefers n (seq (number py) valueUnits) ((d ++ (f ++ ['个'])) ++ '月' :: after)
      ('月' :: after) := by
    simpa using (prefers_number tables hd hf hstop).seq hunit
  obtain ⟨m', hm', htext⟩ := hshorter.matchAt pos
  have hsplit : d ++ (f ++ (str "个月" ++ after)) = (d ++ (f ++ ['个'])) ++ '月' :: after := by
    simp [str]
  rw [hsplit, hm'] at h
  rw [← Option.some.inj h, htext]
  simp [str]

/-- What is matched as a quantity where no year is matched. -/
theorem valueForm_of_quantity {pos : ℕ} {text : Text} {m : Match}
    (hyear : matchAt (seq (year py) (yearOption py)) n pos text = none)
    (h : matchAt (seq (number py) valueUnits) n pos text = some m) : ValueForm py m.text := by
  obtain ⟨w, hw, u, hu, htext⟩ := mem_lang_seq.mp (mem_lang_of_matchAt rfl h)
  obtain ⟨d, hd, f, hf, rfl⟩ := mem_lang_seq.mp hw
  rw [mem_lang_digits] at hd
  have hf : Fraction py f := by
    refine (mem_lang_opt.mp hf).imp_right fun hf => ?_
    obtain ⟨_, hpoint, g, hg, rfl⟩ := mem_lang_seq.mp hf
    exact ⟨g, mem_lang_digits.mp hg, by rw [mem_lang_lit.mp hpoint]; rfl⟩
  have hu : u ∈ valueUnitTexts :=
    (mem_lang_oneOf_chars (by simp [valueUnitTexts, strs])).mp (valueUnits_eq ▸ hu)
  obtain ⟨-, after, rfl⟩ := matchAt_consumes h
  rw [List.append_assoc] at htext
  have hmonths : u ≠ str "个月" := by
    rintro rfl
    have hmatch : matchAt (seq (Rag.number py) valueUnits) n pos
        (d ++ (f ++ (str "个月" ++ after))) = some m := by
      rw [← h, htext, List.append_assoc, List.append_assoc]
    exact ne_months_of_matchAt tables hd hf hmatch htext
  rw [htext] at hyear ⊢
  refine .quantity hd hf (List.mem_filter.mpr ⟨hu, decide_eq_true hmonths⟩) fun y hy hprefix => ?_
  refine (fails_iff rfl).mp (fails_of_matchAt rfl hyear) (y ++ []) ?_ ?_
  · exact mem_lang_seq.mpr ⟨y, hy, [], mem_lang_opt.mpr (.inl rfl), rfl⟩
  · rw [List.append_nil, List.append_assoc]
    exact hprefix.trans (List.prefix_append d _)

/-- What the expression matches has one of the forms. -/
theorem valueForm_of_matchAt {pos : ℕ} {text : Text} {m : Match}
    (h : matchAt (explicitValue py) n pos text = some m) : ValueForm py m.text := by
  rw [explicitValue_eq, matchAt_alt, matchAt_alt] at h
  rcases Option.or_eq_some_iff.mp h with h | ⟨-, h⟩
  · have hpolicy : matchAt (policyWords py) n pos text = some m := by
      rw [matchAt, ← run_policyIdentifier]
      exact h
    exact .policy (mem_lang_of_matchAt plain_policyWords hpolicy)
  rcases Option.or_eq_some_iff.mp h with h | ⟨hyear, h⟩
  · exact valueForm_of_dated (mem_lang_of_matchAt rfl h)
  · exact valueForm_of_quantity tables hyear h

theorem ValueForm.ne_nil {v : Text} (hv : ValueForm py v) : v ≠ [] := by
  cases hv with
  | policy hw =>
      obtain ⟨name, l, y, r, o, d, s, rfl, -⟩ := policyWords_parts hw
      simp
  | year hy => exact (digits_of_year tables hy).1.2
  | ofYear hy => simp
  | month hy hm => simp
  | day hy hm hd => simp
  | quantity hd hf hu => simp [hd.2]

/-- The characters of what the expression matches. -/
theorem chars_of_matchAt {pos : ℕ} {text : Text} {m : Match}
    (h : matchAt (explicitValue py) n pos text = some m) :
    ∀ c ∈ m.text, py.isDigit c = true ∨ isCjk c = true ∨ c ∈ valueSigns := by
  have hwords : matchAt (alt (policyWords py)
      (alt (seq (year py) (yearOption py)) (seq (number py) valueUnits))) n pos text = some m := by
    rw [matchAt_alt, matchAt, ← run_policyIdentifier]
    rw [explicitValue_eq, matchAt_alt] at h
    exact h
  intro c hc
  by_contra hother
  simp only [not_or, Bool.not_eq_true] at hother
  obtain ⟨hdigit, hcjk, hsign⟩ := hother
  -- The character is none of the literal ones.
  have hliteral : ∀ d ∈ str "1920年月日第号万亿元家项条个天.%％〔[〕]-—", c ≠ d := by
    have hkinds : ∀ d ∈ str "1920年月日第号万亿元家项条个天.%％〔[〕]-—",
        isAsciiDigit d = true ∨ isCjk d = true ∨ d ∈ valueSigns := by decide
    rintro d hd rfl
    rcases hkinds c hd with h | h | h
    · rw [tables.isDigit_ascii c h] at hdigit
      cases hdigit
    · rw [h] at hcjk
      cases hcjk
    · exact hsign h
  refine not_mem_of_avoids ?_ m.text (mem_lang_of_matchAt rfl hwords) hc
  simp only [str, Chars.text_mk, List.forall_mem_cons] at hliteral
  simp [policyWords, year, yearOption, monthOption, dayOption, number, valueUnits, words, seqs, oneOf,
    lit, anyOf, opt, plus, between, exactly, avoids, Python.digit, hdigit, hcjk, hliteral]

end Odirag.Rag
