import Odirag.Rag.ValueForms

/-!
# The cuts around an exact value

Reference: `_EXPLICIT_VALUE` of `backend/app/rag/evidence.py`.

A text cut in two goes on across the cut where the two sides have parts of one number. Where no number
goes on across its beginning, a value that ends in a unit or in a part of a date belongs to no match
that begins earlier (`ValueForm.free`): inside of a value digits stand behind digits, behind the point
of a number, or before a sign that ends neither a year nor the digits of a quantity. Only a bare year
and a policy number can stand inside of a longer value, a policy number.
-/

namespace Odirag.Rag

open Regex

variable {py : Python}

/-! ## Numbers across a cut -/

section

variable (py)

def endsInDigit (text : Text) : Bool := text.getLast?.any py.isDigit

def beginsWithDigit (text : Text) : Bool := text.head?.any py.isDigit

/-- The comma of ASCII or of Chinese texts. -/
def isComma (c : Char) : Bool := c == ',' || c == '，'

/-- A comma between these two texts separates thousands: one to three digits before it, exactly three
behind it. -/
def separatesThousands (before after : Text) : Bool :=
  let leading := (before.reverse.takeWhile py.isDigit).length
  1 ≤ leading && leading ≤ 3 && (after.takeWhile py.isDigit).length == 3

/-- A number goes on from the one text into the other: with a digit, with its point, or with a comma
that separates thousands. -/
def numberGoesOn (before after : Text) : Bool :=
  (endsInDigit py before && beginsWithDigit py after) ||
    (endsInDigit py before && after.head? == some '.' && beginsWithDigit py after.tail) ||
    (before.getLast? == some '.' && endsInDigit py before.dropLast && beginsWithDigit py after) ||
    (after.head?.any isComma && separatesThousands py before after.tail) ||
    (before.getLast?.any isComma && separatesThousands py before.dropLast after)

/-- The value is a bare year or a policy number. -/
def endsInYearOrNumber (value : Text) : Bool :=
  value.getLast?.any fun c => py.isDigit c || c == '号'

end

theorem endsInDigit_append {x y : Text} (h : endsInDigit py y = true) :
    endsInDigit py (x ++ y) = true := by
  rw [endsInDigit, Option.any_eq_true] at h ⊢
  obtain ⟨c, hc, hdigit⟩ := h
  refine ⟨c, ?_, hdigit⟩
  rw [List.getLast?_append, hc]
  rfl

theorem beginsWithDigit_append {x : Text} (h : beginsWithDigit py x = true) (y : Text) :
    beginsWithDigit py (x ++ y) = true := by
  cases x with
  | nil => cases h
  | cons c x => exact h

theorem endsInDigit_of_digits {d : Text} (hd : ∀ c ∈ d, py.isDigit c = true) (hne : d ≠ []) :
    endsInDigit py d = true := by
  rw [endsInDigit, List.getLast?_eq_some_getLast hne]
  exact hd _ (List.getLast_mem hne)

/-! ## Behind the digits -/

/-- The signs that stand behind the digits within a value, other than those of a year and a quantity. -/
def closers : Text := str "月日〕]-—号"

variable (py) in
/-- Behind its digits the text has one of these signs. -/
def Closes (text : Text) : Prop :=
  ∃ d c rest, text = d ++ c :: rest ∧ (∀ x ∈ d, py.isDigit x = true) ∧ c ∈ closers

variable (py) in
/-- Where the text is cut before a digit, one stands before the cut as well, or the digits behind it end
in one of these signs. -/
def Closed (text : Text) : Prop :=
  ∀ x y, text = x ++ y → beginsWithDigit py y = true → endsInDigit py x = true ∨ Closes py y

theorem closed_nil : Closed py [] := by
  intro x y h hy
  rw [(List.append_eq_nil_iff.mp h.symm).2] at hy
  cases hy

theorem Closed.sign {c : Char} (hc : py.isDigit c = false) {text : Text} (h : Closed py text) :
    Closed py (c :: text) := by
  intro x y hxy hy
  cases x with
  | nil =>
      rw [List.nil_append] at hxy
      rw [← hxy, beginsWithDigit, List.head?_cons, Option.any_some, hc] at hy
      cases hy
  | cons d x =>
      obtain ⟨rfl, htext⟩ := List.cons.inj hxy
      exact (h x y htext hy).imp_left fun hx => endsInDigit_append (x := [c]) hx

theorem Closed.signs {p text : Text} (hp : ∀ c ∈ p, py.isDigit c = false) (h : Closed py text) :
    Closed py (p ++ text) := by
  induction p with
  | nil => exact h
  | cons c p ih =>
      exact (ih fun d hd => hp d (List.mem_cons_of_mem c hd)).sign (hp c List.mem_cons_self)

theorem Closed.digits {d text : Text} {c : Char} (hd : ∀ x ∈ d, py.isDigit x = true)
    (hc : c ∈ closers) (h : Closed py (c :: text)) : Closed py (d ++ c :: text) := by
  induction d with
  | nil => exact h
  | cons e d ih =>
      intro x y hxy hy
      cases x with
      | nil => exact .inr ⟨e :: d, c, text, by rw [hxy, List.nil_append], hd, hc⟩
      | cons e' x =>
          obtain ⟨rfl, htext⟩ := List.cons.inj hxy
          exact (ih (fun x hx => hd x (List.mem_cons_of_mem e hx)) x y htext hy).imp_left
            fun hx => endsInDigit_append (x := [e]) hx

/-- Digits at the beginning change nothing, unless the text is cut before them. -/
theorem Closed.inside {d text x y : Text} (h : Closed py text) (hd : ∀ c ∈ d, py.isDigit c = true)
    (hxy : d ++ text = x ++ y) (hx : x ≠ []) (hy : beginsWithDigit py y = true) :
    endsInDigit py x = true ∨ Closes py y := by
  rcases List.append_eq_append_iff.mp hxy with ⟨x', rfl, htext⟩ | ⟨d', rfl, -⟩
  · exact (h x' y htext hy).imp_left endsInDigit_append
  · exact .inl (endsInDigit_of_digits (fun c hc => hd c (List.mem_append_left _ hc)) hx)

theorem Closes.append {y : Text} (h : Closes py y) (b : Text) : Closes py (y ++ b) := by
  obtain ⟨d, c, rest, rfl, hd, hc⟩ := h
  exact ⟨d, c, rest ++ b, by simp, hd, hc⟩

variable (tables : Tables py)

include tables

theorem Tables.not_digit_closer {c : Char} (hc : c ∈ closers) : py.isDigit c = false := by
  have hclosers : ∀ c ∈ closers, c ∈ valueSigns ∨ isCjk c = true := by decide
  exact tables.not_digit_sign (hclosers c hc)

theorem not_closes {d rest : Text} {c : Char} (hd : ∀ x ∈ d, py.isDigit x = true)
    (hdigit : py.isDigit c = false) (hc : c ∉ closers) : ¬ Closes py (d ++ c :: rest) := by
  rintro ⟨d', c', rest', h, hd', hc'⟩
  have hfirst := (takeWhile_digits hd hdigit rest).2
  have hsecond := (takeWhile_digits hd' (tables.not_digit_closer hc') rest').2
  rw [h, hsecond] at hfirst
  rw [(List.cons.inj hfirst).1] at hc'
  exact hc hc'

/-! ## Values inside of values -/

theorem closed_policyWords {w : Text} (hw : w ∈ lang (policyWords py)) : Closed py w := by
  obtain ⟨name, l, y, r, o, d, s, rfl, ⟨hname, -⟩, hl, hy, hr, ho, hd, hs⟩ := policyWords_parts hw
  have hbrackets : (∀ c ∈ str "〔[", c ∈ valueSigns) ∧ (∀ c ∈ str "〕]", c ∈ closers) ∧
      ∀ c ∈ str "-—", c ∈ closers := by decide
  obtain ⟨hopening, hclosing, hdash⟩ := hbrackets
  have hlast : Closed py ['号'] := closed_nil.sign (tables.not_digit (by decide))
  have hnumber : Closed py (d ++ (s ++ ['号'])) := by
    rcases hs with rfl | ⟨c, e, hc, he, rfl⟩
    · exact hlast.digits hd.1 (by decide)
    · have hsub := (hlast.digits he.1 (by decide)).sign (tables.not_digit_closer (hdash c hc))
      simpa using hsub.digits hd.1 (hdash c hc)
  have hordinal : Closed py (o ++ (d ++ (s ++ ['号']))) := by
    rcases ho with rfl | rfl
    · exact hnumber
    · exact hnumber.sign (tables.not_digit (by decide))
  have hyear := (hordinal.sign (tables.not_digit_closer (hclosing r hr))).digits
    (digits_of_year tables hy).1.1 (hclosing r hr)
  refine (hyear.sign (tables.not_digit_sign (.inl (hopening l hl)))).signs fun c hc => ?_
  have hcjk := hname c hc
  rw [Bool.and_eq_true] at hcjk
  exact tables.not_digit hcjk.2

theorem no_digit_in_unit {u : Text} (hu : u ∈ takenUnits) : ∀ c ∈ u, py.isDigit c = false := by
  have hunits : ∀ u ∈ takenUnits, ∀ c ∈ u, c ∈ valueSigns ∨ isCjk c = true := by decide
  exact fun c hc => tables.not_digit_sign (hunits u hu c hc)

/-- What stands before digits inside of a value, or behind them. -/
theorem ValueForm.inside {x y : Text} (h : ValueForm py (x ++ y)) (hx : x ≠ [])
    (hy : beginsWithDigit py y = true) :
    endsInDigit py x = true ∨ (∃ x', x = x' ++ ['.'] ∧ endsInDigit py x' = true) ∨ Closes py y := by
  have hyear : Closed py ['年'] := closed_nil.sign (tables.not_digit (by decide))
  have hmonth : ∀ {m t}, ShortNumber py m → Closed py ('月' :: t) → Closed py ('年' :: (m ++ '月' :: t)) :=
    fun hm ht => (ht.digits hm.1 (by decide)).sign (tables.not_digit (by decide))
  have hmonthSign : ∀ {t}, Closed py t → Closed py ('月' :: t) :=
    fun ht => ht.sign (tables.not_digit (by decide))
  generalize hw : x ++ y = w at h
  cases h with
  | policy h => exact (closed_policyWords tables h x y hw.symm hy).imp_right .inr
  | year h =>
      exact (closed_nil.inside (digits_of_year tables h).1.1 (by rw [List.append_nil, hw]) hx
        hy).imp_right .inr
  | ofYear h => exact (hyear.inside (digits_of_year tables h).1.1 hw.symm hx hy).imp_right .inr
  | month h hm =>
      exact ((hmonth hm (hmonthSign closed_nil)).inside (digits_of_year tables h).1.1 hw.symm hx
        hy).imp_right .inr
  | day h hm hd =>
      have hday := (closed_nil.sign (c := '日') (tables.not_digit (by decide))).digits hd.1 (by decide)
      exact ((hmonth hm (hmonthSign hday)).inside (digits_of_year tables h).1.1 hw.symm hx
        hy).imp_right .inr
  | @quantity d f u hd hf hu =>
      have hunit : Closed py u := by
        simpa using closed_nil.signs (no_digit_in_unit tables hu)
      rcases hf with rfl | ⟨g, hg, rfl⟩
      · exact (hunit.inside hd.1 hw.symm hx hy).imp_right .inr
      · rcases List.append_eq_append_iff.mp hw.symm with ⟨x', rfl, htext⟩ | ⟨d', rfl, -⟩
        · cases x' with
          | nil =>
              rw [List.nil_append] at htext
              rw [← htext, List.cons_append, beginsWithDigit, List.head?_cons, Option.any_some,
                tables.not_sign '.' (by decide)] at hy
              cases hy
          | cons c x' =>
              obtain ⟨rfl, htail⟩ := List.cons.inj htext
              by_cases hx' : x' = []
              · subst hx'
                exact .inr (.inl ⟨d, rfl, endsInDigit_of_digits hd.1 hd.2⟩)
              · refine (hunit.inside hg.1 htail hx' hy).imp (fun h => ?_) .inr
                exact endsInDigit_append (endsInDigit_append (x := ['.']) h)
        · exact .inl (endsInDigit_of_digits (fun c hc => hd.1 c (List.mem_append_left _ hc)) hx)

/-- A value that ends in a unit or in a part of a date begins with digits, and behind them stands a sign
of a year or a quantity. -/
theorem ValueForm.outside {v : Text} (hv : ValueForm py v) (hend : endsInYearOrNumber py v = false)
    (b : Text) : beginsWithDigit py v = true ∧ ¬ Closes py (v ++ b) := by
  have hbegins : ∀ {d t : Text}, Digits py d → beginsWithDigit py (d ++ t) = true := by
    intro d t hd
    obtain ⟨c, d, rfl⟩ := List.exists_cons_of_ne_nil hd.2
    exact hd.1 c List.mem_cons_self
  have hdated : ∀ {y t : Text}, y ∈ lang (Rag.year py) →
      beginsWithDigit py (y ++ '年' :: t) = true ∧ ¬ Closes py (y ++ '年' :: t ++ b) := by
    intro y t hy
    have hdigits := (digits_of_year tables hy).1
    refine ⟨hbegins hdigits, ?_⟩
    rw [List.append_assoc]
    exact not_closes tables hdigits.1 (tables.not_digit (by decide)) (by decide)
  cases hv with
  | policy hw =>
      obtain ⟨name, l, y, r, o, d, s, rfl, -⟩ := policyWords_parts hw
      have hsplit : name ++ l :: (y ++ r :: (o ++ (d ++ (s ++ ['号'])))) =
          (name ++ l :: (y ++ r :: (o ++ (d ++ s)))) ++ ['号'] := by simp
      rw [hsplit, endsInYearOrNumber, List.getLast?_concat] at hend
      simp at hend
  | year hy =>
      obtain ⟨hdigits, hne⟩ := (digits_of_year tables hy).1
      rw [endsInYearOrNumber, List.getLast?_eq_some_getLast hne, Option.any_some,
        hdigits _ (List.getLast_mem hne)] at hend
      cases hend
  | ofYear hy => exact hdated hy
  | month hy hm => exact hdated hy
  | day hy hm hd => exact hdated hy
  | @quantity d f u hd hf hu =>
      refine ⟨hbegins hd, ?_⟩
      rw [List.append_assoc]
      rcases hf with rfl | ⟨g, -, rfl⟩
      · obtain ⟨c, rest, rfl, hdigit, -⟩ := head_of_unit tables hu
        have hunits : ∀ u ∈ takenUnits, ∀ c ∈ u.head?, c ∉ closers := by decide
        exact not_closes tables hd.1 hdigit (hunits _ hu c rfl)
      · exact not_closes tables hd.1 (tables.not_sign '.' (by decide)) (by decide)

/-- Where no number goes on across its beginning, no earlier match reaches over a value that is neither a
bare year nor a policy number. The value may have been written as `w`, with the same first character. -/
theorem ValueForm.free {v w a b : Text} (hv : ValueForm py v)
    (hend : endsInYearOrNumber py v = false) (hhead : w.head? = v.head?)
    (hcut : numberGoesOn py a (w ++ b) = false) :
    ∀ m ∈ (explicitValue py).finditer (a ++ (v ++ b)), ¬ (m.start < a.length ∧ a.length < m.stop) := by
  rintro m hm ⟨hbefore, hover⟩
  obtain ⟨a₀, x, y, after, rfl, hrest, hmtext, hx, hne, hmatch⟩ := cut_of_overlap hm hbefore hover
  have hform := valueForm_of_matchAt tables hmatch
  rw [hmtext] at hform
  obtain ⟨hbegins, hcloses⟩ := hv.outside tables hend b
  have hwb : beginsWithDigit py (w ++ b) = true := by
    refine beginsWithDigit_append ?_ b
    rw [beginsWithDigit, hhead]
    exact hbegins
  have hy : beginsWithDigit py y = true := by
    have hvb := beginsWithDigit_append hbegins b
    obtain ⟨c, y, rfl⟩ := List.exists_cons_of_ne_nil hne
    rw [hrest] at hvb
    exact hvb
  -- The number goes on across the cut, or what stands behind its digits is a sign of no such value.
  rcases hform.inside tables hx hy with h | ⟨x', rfl, h⟩ | h
  · have hends := endsInDigit_append (x := a₀) h
    simp [numberGoesOn, hends, hwb] at hcut
  · have hends := endsInDigit_append (x := a₀) h
    rw [← List.append_assoc] at hcut
    simp [numberGoesOn, hends, hwb] at hcut
  · rw [hrest] at hcloses
    exact hcloses (h.append after)

end Odirag.Rag
