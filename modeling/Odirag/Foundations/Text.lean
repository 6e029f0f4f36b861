import Mathlib.Data.List.Infix
import Mathlib.Data.List.Basic
import Mathlib.Data.List.TakeWhile

/-!
# Texts as sequences of characters

Search, replacement and joining, with the meaning that a string library gives them: the first
occurrence is the leftmost one, and occurrences that are replaced or enumerated do not overlap. All
functions are structural, so that they run on concrete texts; the lemmas say when an occurrence in
a joined text is one in a part.
-/

namespace Odirag

/-- A text. -/
abbrev Text := List Char

instance lawfulBEq_text : LawfulBEq Text := inferInstance

/-! ## Literals

The characters of a literal are found when it is elaborated, so that evaluation does not decode
strings. -/

/-- The characters of a string. -/
inductive Chars : String → Type
  | mk (t : Text) : Chars (String.ofList t)

/-- These characters. -/
def Chars.text {word : String} : Chars word → Text
  | mk t => t

@[simp] theorem Chars.text_mk (t : Text) : (Chars.mk t).text = t := rfl

/-- The characters of each of these strings. -/
inductive CharsOf : List String → Type
  | nil : CharsOf []
  | cons {word : String} {words : List String} (chars : Chars word) (rest : CharsOf words) :
      CharsOf (word :: words)

def CharsOf.texts {words : List String} : CharsOf words → List Text
  | nil => []
  | cons chars rest => chars.text :: rest.texts

@[simp] theorem CharsOf.texts_nil : CharsOf.nil.texts = [] := rfl

@[simp] theorem CharsOf.texts_cons {word : String} {words : List String} (chars : Chars word)
    (rest : CharsOf words) : (cons chars rest).texts = chars.text :: rest.texts := rfl

/-- A literal text. -/
def str (word : String) (chars : Chars word := by exact .mk _) : Text := chars.text

/-- Literal texts. -/
def strs (words : List String)
    (chars : CharsOf words := by repeat' first | exact .nil | apply CharsOf.cons (.mk _)) :
    List Text :=
  chars.texts

namespace Text

/-- A property of the characters of a text is decided for one after the other, not for all characters
there are. -/
instance (priority := high) decidableForallMem {p : Char → Prop} [DecidablePred p] (text : Text) :
    Decidable (∀ c ∈ text, p c) :=
  List.decidableBAll p text

instance (priority := high) decidableForallMemOption {p : Char → Prop} [DecidablePred p]
    (c : Option Char) : Decidable (∀ x ∈ c, p x) :=
  Option.decidableForallMem c

theorem forall_head?_cons {p : Char → Prop} {c : Char} (h : p c) (text : Text) :
    ∀ x ∈ (c :: text).head?, p x := by
  intro x hx
  rwa [← Option.some.inj hx]

/-- Where a text first occurs. -/
def find (needle : Text) : Text → Option ℕ
  | [] => if needle.isEmpty then some 0 else none
  | c :: rest => if needle.isPrefixOf (c :: rest) then some 0 else (find needle rest).map (· + 1)

/-- The text occurs. -/
def contains (text needle : Text) : Bool := (find needle text).isSome

/-- One of the texts occurs. -/
def containsAny (text : Text) (needles : List Text) : Bool := needles.any text.contains

/-- The positions of the occurrences, left to right and without overlap; `skip` characters belong
to the last one. -/
def findAllFrom (needle : Text) (skip pos : ℕ) : Text → List ℕ
  | [] => if skip = 0 ∧ needle = [] then [pos] else []
  | c :: rest =>
      match skip with
      | skip + 1 => findAllFrom needle skip (pos + 1) rest
      | 0 =>
          if needle.isPrefixOf (c :: rest) then
            pos :: findAllFrom needle (needle.length - 1) (pos + 1) rest
          else findAllFrom needle 0 (pos + 1) rest

/-- The positions of all occurrences. -/
def findAll (text needle : Text) : List ℕ := findAllFrom needle 0 0 text

/-- Replace occurrences of a non-empty text; `skip` characters belong to the last one. -/
def replaceFrom (old new : Text) (skip : ℕ) : Text → Text
  | [] => []
  | c :: rest =>
      match skip with
      | skip + 1 => replaceFrom old new skip rest
      | 0 =>
          if old.isPrefixOf (c :: rest) then new ++ replaceFrom old new (old.length - 1) rest
          else c :: replaceFrom old new 0 rest

/-- Replace every occurrence. -/
def replace (text old new : Text) : Text := replaceFrom old new 0 text

/-- Drop the characters of a class at both ends. -/
def stripBy (p : Char → Bool) (text : Text) : Text :=
  ((text.dropWhile p).reverse.dropWhile p).reverse

/-- The characters from `start` up to `stop`. -/
def slice (text : Text) (start stop : ℕ) : Text := (text.drop start).take (stop - start)

/-- Drop a suffix. -/
def dropRight (text : Text) (n : ℕ) : Text := text.take (text.length - n)

/-- The text ends like this. -/
def endsWith (text suffix : Text) : Bool := suffix.isSuffixOf text

/-- Join with newlines. -/
def joinLines (texts : List Text) : Text := List.intercalate ['\n'] texts

/-! ## Occurrences -/

theorem contains_iff {needle text : Text} : contains text needle = true ↔ needle <:+: text := by
  unfold contains
  induction text with
  | nil =>
      simp only [find]
      split
      · next h => simp [List.isEmpty_iff.mp h]
      · next h =>
          rw [List.infix_nil]
          simpa using h
  | cons c rest ih =>
      simp only [find]
      rw [List.infix_cons_iff, ← ih]
      split
      · next h => simp [List.isPrefixOf_iff_prefix.mp h]
      · next h =>
          have hnot : ¬ needle <+: c :: rest := fun hp => h (List.isPrefixOf_iff_prefix.mpr hp)
          simp [hnot]

/-- An occurrence that avoids the separator lies before it or after it. -/
theorem around_separator {s needle t a b : Text} {x : Char} (hx : x ∉ needle)
    (h : s ++ needle ++ t = a ++ x :: b) :
    (∃ t', a = s ++ needle ++ t' ∧ t = t' ++ x :: b) ∨
      ∃ s', s = a ++ x :: s' ∧ b = s' ++ needle ++ t := by
  rcases List.append_eq_append_iff.mp h with ⟨w, ha, ht⟩ | ⟨w, hs, hb⟩
  · exact .inl ⟨w, ha, ht⟩
  cases w with
  | nil => exact .inl ⟨[], by simpa using hs.symm, by simpa using hb.symm⟩
  | cons y w =>
      obtain ⟨rfl, rfl⟩ := List.cons.inj hb
      -- The separator stands in `s`, since it is not in the occurrence.
      rcases List.append_eq_append_iff.mp hs with ⟨v, -, hneedle⟩ | ⟨v, hs', hv⟩
      · exact absurd (by rw [hneedle]; simp) hx
      · cases v with
        | nil =>
            have hmem : x ∈ needle := by
              rw [List.nil_append] at hv
              rw [← hv]
              exact List.mem_cons_self
            exact absurd hmem hx
        | cons z v =>
            obtain ⟨rfl, rfl⟩ := List.cons.inj hv
            exact .inr ⟨v, hs', by simp⟩

/-- A text that avoids a separator occurs in one of the two parts it separates. -/
theorem infix_append_cons {needle a b : Text} {x : Char} (hx : x ∉ needle) :
    needle <:+: a ++ x :: b ↔ needle <:+: a ∨ needle <:+: b := by
  constructor
  · rintro ⟨s, t, hst⟩
    rcases around_separator hx hst with ⟨t', ha, -⟩ | ⟨s', -, hb⟩
    · exact .inl ⟨s, t', ha.symm⟩
    · exact .inr ⟨s', t, hb.symm⟩
  · rintro (⟨s, t, h⟩ | ⟨s, t, h⟩)
    · exact ⟨s, t ++ x :: b, by rw [← h]; simp⟩
    · exact ⟨a ++ x :: s, t, by rw [← h]; simp⟩

/-- Stripping a text keeps what stands between two characters outside the class. -/
theorem stripBy_append {p : Char → Bool} {first last : Char} {between rest : Text}
    (hfirst : p first = false) (hlast : p last = false) :
    stripBy p (first :: (between ++ last :: rest)) =
      first :: (between ++ last :: (rest.reverse.dropWhile p).reverse) := by
  have hcut : ∀ front : Text, (rest.reverse ++ last :: front).dropWhile p =
      rest.reverse.dropWhile p ++ last :: front := by
    intro front
    rw [List.dropWhile_append]
    split_ifs with hempty
    · rw [List.isEmpty_iff.mp hempty, List.dropWhile_cons_of_neg (by simp [hlast])]
      rfl
    · rfl
  rw [stripBy, List.dropWhile_cons_of_neg (by simp [hfirst])]
  simp [hcut]

@[simp] theorem joinLines_nil : joinLines [] = [] := rfl

@[simp] theorem joinLines_singleton (t : Text) : joinLines [t] = t := by
  simp [joinLines]

theorem joinLines_cons_cons (t u : Text) (rest : List Text) :
    joinLines (t :: u :: rest) = t ++ '\n' :: joinLines (u :: rest) := by
  simp [joinLines, List.intercalate, List.intersperse]

theorem mem_of_mem_stripBy {p : Char → Bool} {text : Text} {c : Char} (h : c ∈ stripBy p text) :
    c ∈ text := by
  have hinner : c ∈ (text.dropWhile p).reverse :=
    (List.dropWhile_suffix p).mem (List.mem_reverse.mp h)
  exact (List.dropWhile_suffix p).mem (List.mem_reverse.mp hinner)

/-- What is joined has the characters of the parts and of the separator. -/
theorem mem_of_mem_intercalate {separator : Text} {texts : List Text} {c : Char}
    (h : c ∈ List.intercalate separator texts) : c ∈ separator ∨ ∃ t ∈ texts, c ∈ t := by
  induction texts with
  | nil => simp at h
  | cons t rest ih =>
      cases rest with
      | nil => exact .inr ⟨t, List.mem_cons_self, by simpa using h⟩
      | cons u rest =>
          rw [List.intercalate_cons_cons, List.mem_append, List.mem_append] at h
          rcases h with (h | h) | h
          · exact .inr ⟨t, List.mem_cons_self, h⟩
          · exact .inl h
          · exact (ih h).imp_right fun ⟨v, hv, hc⟩ => ⟨v, List.mem_cons_of_mem t hv, hc⟩

/-- What holds of a separated text exactly if it holds of one of its two parts holds of joined
lines exactly if it holds of one of them. -/
theorem joinLines_iff {P : Text → Prop} (hP : ∀ a b, P (a ++ '\n' :: b) ↔ P a ∨ P b)
    {texts : List Text} (hne : texts ≠ []) : P (joinLines texts) ↔ ∃ t ∈ texts, P t := by
  induction texts with
  | nil => exact absurd rfl hne
  | cons t rest ih =>
      cases rest with
      | nil => simp
      | cons u rest =>
          rw [joinLines_cons_cons, hP, ih (by simp)]
          simp

/-- A part of a split text is the text between two separators or ends. -/
theorem mem_splitOnP {p : Char → Bool} {text part : Text} (h : part ∈ text.splitOnP p) :
    ∃ a b, text = a ++ part ++ b ∧ (∀ c ∈ part, p c = false) ∧
      (∀ c ∈ a.getLast?, p c = true) ∧ ∀ c ∈ b.head?, p c = true := by
  -- By induction on the length: what follows the first separator is shorter.
  induction hlength : text.length using Nat.strong_induction_on generalizing text with
  | _ n ih =>
      have hsplit := List.takeWhile_append_dropWhile (p := fun c => !p c) (l := text)
      have hrun : ∀ c ∈ text.takeWhile (fun c => !p c), p c = false := fun c hc => by
        simpa using List.mem_takeWhile_imp hc
      cases hdrop : text.dropWhile (fun c => !p c) with
      | nil =>
          rw [hdrop, List.append_nil] at hsplit
          rw [hsplit] at hrun
          rw [List.splitOnP_eq_singleton hrun, List.mem_singleton] at h
          subst h
          exact ⟨[], [], by simp, hrun, by simp, by simp⟩
      | cons c rest =>
          have hc : p c = true := by
            have hhead := List.head?_dropWhile_not (fun c => !p c) text
            rw [hdrop] at hhead
            simpa using hhead
          rw [hdrop] at hsplit
          rw [← hsplit, List.splitOnP_append_cons_of_forall_mem hrun c hc] at h
          rcases List.mem_cons.mp h with rfl | h
          · exact ⟨[], c :: rest, by rw [List.nil_append, hsplit], hrun, by simp,
              by simpa using hc⟩
          · have hshorter : rest.length < n := by
              rw [← hlength, ← hsplit, List.length_append, List.length_cons]
              omega
            obtain ⟨a, b, hrest, hpart, ha, hb⟩ := ih rest.length hshorter h rfl
            refine ⟨text.takeWhile (fun c => !p c) ++ c :: a, b, ?_, hpart, ?_, hb⟩
            · rw [List.append_assoc, List.append_assoc, List.cons_append, ← List.append_assoc a,
                ← hrest, hsplit]
            · rw [List.getLast?_append_cons, List.getLast?_cons]
              intro d hd
              -- The part is the first one behind the separator, or a later one.
              cases hlast : a.getLast? with
              | none =>
                  rw [hlast] at hd
                  obtain rfl : c = d := by simpa using hd
                  exact hc
              | some e =>
                  rw [hlast] at hd
                  obtain rfl : e = d := by simpa using hd
                  exact ha e hlast

/-! ## Joined texts -/

/-- One more text at the end. -/
theorem intercalate_concat {α : Type*} {separator last : List α} {texts : List (List α)}
    (hne : texts ≠ []) : List.intercalate separator (texts ++ [last]) =
      List.intercalate separator texts ++ separator ++ last := by
  induction texts with
  | nil => exact absurd rfl hne
  | cons t rest ih =>
      cases rest with
      | nil => simp
      | cons u rest =>
          rw [List.intercalate_cons_cons, List.cons_append, List.cons_append,
            List.intercalate_cons_cons, ← List.cons_append, ih (by simp)]
          simp only [List.append_assoc]

theorem joinLines_append {a b : List Text} (ha : a ≠ []) (hb : b ≠ []) :
    joinLines (a ++ b) = joinLines a ++ '\n' :: joinLines b := by
  induction a with
  | nil => exact absurd rfl ha
  | cons t rest ih =>
      cases rest with
      | nil =>
          obtain ⟨u, more, rfl⟩ := List.exists_cons_of_ne_nil hb
          rw [List.singleton_append, joinLines_cons_cons, joinLines_singleton]
      | cons u rest =>
          rw [List.cons_append, List.cons_append, joinLines_cons_cons, ← List.cons_append,
            ih (by simp), joinLines_cons_cons, List.append_assoc, List.cons_append]

/-- Lines that are joined are split again. -/
theorem splitOnP_joinLines {p : Char → Bool} (hp : p '\n' = true) {texts : List Text}
    (hne : texts ≠ []) (htexts : ∀ t ∈ texts, ∀ c ∈ t, p c = false) :
    (joinLines texts).splitOnP p = texts := by
  induction texts with
  | nil => exact absurd rfl hne
  | cons t rest ih =>
      have ht := htexts t List.mem_cons_self
      cases rest with
      | nil => rw [joinLines_singleton, List.splitOnP_eq_singleton ht]
      | cons u rest =>
          rw [joinLines_cons_cons, List.splitOnP_append_cons_of_forall_mem ht _ hp,
            ih (by simp) fun v hv => htexts v (List.mem_cons_of_mem t hv)]

/-- Nothing is replaced where the first character does not occur. -/
theorem replace_of_not_mem {c : Char} {old new text : Text} (h : c ∉ text) :
    text.replace (c :: old) new = text := by
  unfold replace
  induction text with
  | nil => rfl
  | cons d text ih =>
      rw [List.mem_cons, not_or] at h
      have hfront : ¬(c :: old).isPrefixOf (d :: text) = true := by
        simp [List.isPrefixOf, h.1]
      rw [replaceFrom, if_neg hfront, ih h.2]

/-- A part of a text that begins before a position and reaches over it falls into two there. -/
theorem overlap {before matched after front tail : Text}
    (h : before ++ matched ++ after = front ++ tail) (hstart : before.length < front.length)
    (hstop : front.length < before.length + matched.length) :
    ∃ y z, y ≠ [] ∧ front = before ++ y ∧ matched = y ++ z ∧ z ++ after = tail := by
  rw [List.append_assoc] at h
  rcases List.append_eq_append_iff.mp h with ⟨y, rfl, hrest⟩ | ⟨y, rfl, -⟩
  · rw [List.length_append] at hstart hstop
    have hne : y ≠ [] := by
      rintro rfl
      simp at hstart
    rcases List.append_eq_append_iff.mp hrest with ⟨z, rfl, -⟩ | ⟨z, rfl, htail⟩
    · rw [List.length_append] at hstop
      omega
    · exact ⟨y, z, hne, rfl, rfl, htail.symm⟩
  · rw [List.length_append] at hstart
    omega

end Text

end Odirag
