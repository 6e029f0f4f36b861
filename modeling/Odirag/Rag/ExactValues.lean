import Odirag.Foundations.Ink
import Odirag.Rag.AnswerValidation
import Odirag.Rag.ValueCuts

/-!
# The exact values of an accepted answer

Reference: `validate_answer` of `backend/app/rag/evidence.py`.

The gate searches each exact value of an answer in one text: all fields of the cited hits and the query,
joined and then freed of blanks and commas. It compares texts, not values, so that what it finds can be
cut out of a longer number or value, or put together from a list of numbers or from two fields.
`accepted_values_iff` says that the values are stated in fields exactly if each of them is found at a
place where nothing of this kind can be seen: the place lies within one field, the commas in it separate
thousands, no number goes on across its ends, and the value does not go on behind it.
-/

namespace Odirag.Rag

open Regex
open Documents (isSpace)
open Retrieval

/-! ## Values in a field -/

/-- The characters that do not count in a comparison. -/
def isIgnored (c : Char) : Bool := isSpace c || c == ',' || c == '，'

/-- The characters that count in a comparison. -/
def isCompared (c : Char) : Bool := !isIgnored c

/-- A text cut in three. -/
structure Stretch where
  before : Text
  written : Text
  after : Text

/-- The whole text. -/
def Stretch.text (s : Stretch) : Text := s.before ++ (s.written ++ s.after)

/-- In the middle stands the value, with blanks and commas. -/
structure Stretch.Writes (s : Stretch) (value : Text) : Prop where
  value : s.written.filter isCompared = value
  tight : Text.Tight isIgnored s.written

variable (py : Python)

/-- All commas of the text separate thousands, if it stands between these texts. -/
def commasSeparate (before : Text) : Text → Text → Bool
  | [], _ => true
  | c :: rest, after =>
      (!isComma c || separatesThousands py before (rest ++ after)) &&
        commasSeparate (before ++ [c]) rest after

/-- The middle is neither put together from the numbers of a list nor cut out of a number. -/
structure Stretch.Whole (s : Stretch) : Prop where
  commas : commasSeparate py s.before s.written s.after = true
  front : numberGoesOn py s.before (s.written ++ s.after) = false
  back : numberGoesOn py (s.before ++ s.written) s.after = false

/-- A whole stretch of the field writes the value, and the expression finds it there when its own blanks
and commas are taken out. -/
def Stated (field value : Text) : Prop :=
  ∃ s : Stretch, s.text = field ∧ s.Writes value ∧ s.Whole py ∧
    ∃ m ∈ (explicitValue py).finditer (s.before ++ (value ++ s.after)),
      m.start = s.before.length ∧ m.text = value

/-- The value is stated in a field of a cited hit or in the query, in lower case as the gate reads them. -/
def Grounded (query : Text) (citedHits : List RetrievalHit) (value : Text) : Prop :=
  (∃ hit ∈ citedHits, ∃ field ∈ searchableFields hit,
      Stated py (py.lower field) (normalizeValue py value)) ∨
    Stated py (py.lower query) (normalizeValue py value)

/-! ## Places in the searched text -/

/-- The fields in which the gate searches: those of the hits, and the query. -/
def searchedFields (query : Text) (citedHits : List RetrievalHit) : List Text :=
  (citedHits.flatMap searchableFields ++ [query]).map py.lower

/-- A place in the joined fields: the fields that are read there, and where. -/
structure Place where
  fields : List Text
  stretch : Stretch

/-- The gate finds the value at the place. -/
structure Finds (fields : List Text) (value : Text) (place : Place) : Prop where
  fields : place.fields <:+: fields
  text : place.stretch.text = place.fields.flatten
  writes : place.stretch.Writes value

/-- What keeps a value from being one of its own at a place. -/
inductive Spoiled (value : Text) (place : Place) : Prop
  /-- The place reaches across the joint of two fields. -/
  | joint (h : place.fields.length ≠ 1)
  /-- A comma within the place separates something else than thousands. -/
  | comma (h : commasSeparate py place.stretch.before place.stretch.written place.stretch.after = false)
  /-- A number goes on across the beginning of the place. -/
  | front (h : numberGoesOn py place.stretch.before (place.stretch.written ++ place.stretch.after) = true)
  /-- A number goes on across its end. -/
  | back (h : numberGoesOn py (place.stretch.before ++ place.stretch.written) place.stretch.after = true)
  /-- The next part of the value stands behind it. -/
  | longer (h : valueGoesOn py value place.stretch.after = true)
  /-- The value is a bare year or a policy number, and a match that begins earlier reaches over it. -/
  | inside (hend : endsInYearOrNumber py value = true) (m : Match)
      (hm : m ∈ (explicitValue py).finditer
        (place.stretch.before ++ (value ++ place.stretch.after)))
      (h : m.start < place.stretch.before.length ∧ place.stretch.before.length < m.stop)

/-! ## The searched text -/

/-- A field as the gate compares it: in lower case, without blanks and commas. -/
def comparedField (field : Text) : Text := normalizeValue py (py.lower field)

variable {py}

theorem normalizeValue_lower (text : Text) :
    normalizeValue py (py.lower text) = (py.lower text).filter isCompared :=
  py.lower_fixed text _ fun _ hc => List.mem_of_mem_filter hc

theorem filter_lower_joinLines (texts : List Text) :
    (py.lower (Text.joinLines texts)).filter isCompared =
      (texts.map (comparedField py)).flatten := by
  induction texts with
  | nil =>
      rw [Text.joinLines_nil, py.lower_fixed [] [] fun c hc => by cases hc]
      rfl
  | cons text rest ih =>
      cases rest with
      | nil => simp [comparedField, normalizeValue_lower]
      | cons other rest =>
          have hbreak : isCompared '\n' = false := by decide
          rw [Text.joinLines_cons_cons, py.lower_newline, List.filter_append, List.filter_cons,
            if_neg (by simp [hbreak]), ih]
          show _ = (comparedField py text :: (other :: rest).map (comparedField py)).flatten
          rw [List.flatten_cons, comparedField, normalizeValue_lower]

/-- The fields of the hits make up their searchable texts. -/
theorem flatten_comparedFields (citedHits : List RetrievalHit) :
    ((citedHits.map searchableText).map (comparedField py)).flatten =
      ((citedHits.flatMap searchableFields).map (comparedField py)).flatten := by
  induction citedHits with
  | nil => rfl
  | cons hit rest ih =>
      have hhit : comparedField py (searchableText hit) =
          ((searchableFields hit).map (comparedField py)).flatten := by
        rw [comparedField, normalizeValue_lower, searchableText, filter_lower_joinLines]
      rw [List.map_cons, List.map_cons, List.flatten_cons, ih, hhit, List.flatMap_cons,
        List.map_append, List.flatten_append]

/-- What the gate searches is the joined fields, without a trace of the joints. -/
theorem normalizeValue_evidenceOrQuery (query : Text) (citedHits : List RetrievalHit) :
    normalizeValue py (evidenceOrQuery py query citedHits) =
      (searchedFields py query citedHits).flatten.filter isCompared := by
  have hlower : evidenceOrQuery py query citedHits =
      py.lower (Text.joinLines [Text.joinLines (citedHits.map searchableText), query]) := by
    rw [evidenceOrQuery, Text.joinLines_cons_cons, Text.joinLines_singleton, Text.joinLines_cons_cons,
      Text.joinLines_singleton, py.lower_newline]
    rfl
  have hhits : comparedField py (Text.joinLines (citedHits.map searchableText)) =
      ((citedHits.map searchableText).map (comparedField py)).flatten := by
    rw [comparedField, normalizeValue_lower, filter_lower_joinLines]
  have hcompared : ∀ fields : List Text, (fields.map (comparedField py)).flatten =
      (fields.map py.lower).flatten.filter isCompared := by
    intro fields
    rw [List.filter_flatten, List.map_map]
    exact congrArg List.flatten (List.map_congr_left fun field _ => normalizeValue_lower field)
  rw [hlower, normalizeValue_lower, filter_lower_joinLines, searchedFields, ← hcompared,
    List.map_append, List.flatten_append, ← flatten_comparedFields, List.map_cons, List.flatten_cons,
    hhits]

/-! ## Places -/

theorem mem_explicitValues {text value : Text} :
    value ∈ explicitValues py text ↔ ∃ m ∈ (explicitValue py).finditer text, m.text = value := by
  rw [explicitValues, mem_firsts]
  exact List.mem_map

/-- A value found in a text is found in the text around it, too. -/
theorem exists_stretch {text a v b : Text} (hv : v ≠ []) (h : text.filter isCompared = a ++ (v ++ b)) :
    ∃ s : Stretch, s.text = text ∧ s.Writes v := by
  obtain ⟨before, rest, rfl, -, hrest⟩ := List.filter_eq_append_iff.mp h
  obtain ⟨written, after, rfl, hwritten, -⟩ := List.filter_eq_append_iff.mp hrest
  have hink : Text.ink isIgnored (Text.stripBy isIgnored written) = v := by
    rw [Text.ink_stripBy]
    exact hwritten
  have hne : Text.stripBy isIgnored written ≠ [] := by
    intro hnil
    rw [hnil] at hink
    exact hv hink.symm
  have hsplit : written = written.takeWhile isIgnored ++ (Text.stripBy isIgnored written ++
      ((written.dropWhile isIgnored).reverse.takeWhile isIgnored).reverse) := Text.eq_stripBy written
  refine ⟨⟨before ++ written.takeWhile isIgnored, Text.stripBy isIgnored written,
    ((written.dropWhile isIgnored).reverse.takeWhile isIgnored).reverse ++ after⟩, ?_, hink,
    Text.tight_stripBy hne⟩
  calc Stretch.text _
      = before ++ ((written.takeWhile isIgnored ++ (Text.stripBy isIgnored written ++
          ((written.dropWhile isIgnored).reverse.takeWhile isIgnored).reverse)) ++ after) := by
        simp [Stretch.text]
    _ = before ++ (written ++ after) := by rw [← hsplit]

/-- What is written begins as the value does. -/
theorem Stretch.Writes.head {s : Stretch} {value : Text} (h : s.Writes value) :
    s.written.head? = value.head? := by
  obtain ⟨c, rest, hc⟩ := List.exists_cons_of_ne_nil h.tight.ne_nil
  have hcompared : isCompared c = true := by
    rw [isCompared, h.tight.head c (by rw [hc]; rfl)]
    rfl
  rw [← h.value, hc, List.filter_cons_of_pos hcompared]
  rfl

variable (tables : Tables py)

include tables

theorem explicitValue_ne_nil {n pos : ℕ} {text : Text} {m : Match}
    (h : matchAt (explicitValue py) n pos text = some m) : m.text ≠ [] :=
  (valueForm_of_matchAt tables h).ne_nil tables

/-- A value that the expression finds in a text has a form of its own, and nothing of it is lost in the
comparison. -/
theorem valueForm_of_mem {text value : Text} (h : value ∈ explicitValues py text) :
    ValueForm py value ∧ normalizeValue py value = value := by
  obtain ⟨m, hm, rfl⟩ := mem_explicitValues.mp h
  obtain ⟨a, b, -, hmatch⟩ := finditerFrom_matchAt hm
  have hchars := chars_of_matchAt tables hmatch
  have hfilter : m.text.filter isCompared = m.text := by
    refine List.filter_eq_self.mpr fun c hc => ?_
    have hsigns : ∀ c ∈ valueSigns, isCompared c = true := by decide
    rcases hchars c hc with hdigit | hcjk | hsign
    · have hcomma : ∀ d ∈ [',', '，'], c ≠ d := by
        rintro d hd rfl
        rw [tables.not_sign c (by simp only [List.mem_cons, List.not_mem_nil, or_false] at hd ⊢
                                  exact hd.imp_right .inl)] at hdigit
        cases hdigit
      simp [isCompared, isIgnored, tables.not_space c hdigit, hcomma]
    · have hspace : isSpace c = false := by
        simp [isCjk, isSpace] at hcjk ⊢
        omega
      have hcomma : ∀ d ∈ [',', '，'], c ≠ d := by
        rintro d hd rfl
        have hcommas : ∀ d ∈ [',', '，'], isCjk d = false := by decide
        rw [hcommas c hd] at hcjk
        cases hcjk
      simp [isCompared, isIgnored, hspace, hcomma]
    · exact hsigns c hsign
  refine ⟨valueForm_of_matchAt tables hmatch, ?_⟩
  show py.lower (m.text.filter isCompared) = m.text
  rw [hfilter]
  exact tables.lower_value m.text hchars

/-- A field states the value exactly if it has a place for it that nothing spoils. -/
theorem stated_iff {field value : Text} (hvalue : ValueForm py value) :
    Stated py field value ↔
      ∃ s : Stretch, s.text = field ∧ s.Writes value ∧ ¬ Spoiled py value ⟨[field], s⟩ := by
  refine exists_congr fun s => and_congr_right fun _ => and_congr_right fun hwrites => ?_
  rw [mem_finditer_iff (hvalue.ne_nil tables) fun _ _ _ _ h => explicitValue_ne_nil tables h,
    hvalue.matchAt_iff tables]
  constructor
  · rintro ⟨hwhole, hlonger, hfree⟩ (hjoint | hcomma | hfront | hback | hlong | ⟨-, m, hm, hover⟩)
    · exact hjoint rfl
    · exact Bool.eq_false_iff.mp hcomma hwhole.commas
    · exact Bool.eq_false_iff.mp hwhole.front hfront
    · exact Bool.eq_false_iff.mp hwhole.back hback
    · exact Bool.eq_false_iff.mp hlonger hlong
    · exact hfree m hm hover
  · intro hclean
    have hfront : numberGoesOn py s.before (s.written ++ s.after) = false :=
      Bool.eq_false_iff.mpr fun h => hclean (.front h)
    refine ⟨⟨Bool.not_eq_false _ ▸ fun h => hclean (.comma h), hfront,
      Bool.eq_false_iff.mpr fun h => hclean (.back h)⟩,
      Bool.eq_false_iff.mpr fun h => hclean (.longer h), ?_⟩
    cases hend : endsInYearOrNumber py value with
    | true => exact fun m hm hover => hclean (.inside hend m hm hover)
    | false => exact hvalue.free tables hend hwrites.head hfront

/-! ## Accepted answers -/

omit tables in
theorem grounded_iff {query value : Text} {citedHits : List RetrievalHit} :
    Grounded py query citedHits value ↔
      ∃ field ∈ searchedFields py query citedHits, Stated py field (normalizeValue py value) := by
  constructor
  · rintro (⟨hit, hhit, field, hfield, hstated⟩ | hstated)
    · exact ⟨_, List.mem_map_of_mem (List.mem_append_left _
        (List.mem_flatMap.mpr ⟨hit, hhit, hfield⟩)), hstated⟩
    · exact ⟨_, List.mem_map_of_mem (List.mem_append_right _ (List.mem_singleton_self _)), hstated⟩
  · rintro ⟨_, hfield, hstated⟩
    obtain ⟨field, hmem, rfl⟩ := List.mem_map.mp hfield
    rcases List.mem_append.mp hmem with hmem | hmem
    · obtain ⟨hit, hhit, hfield⟩ := List.mem_flatMap.mp hmem
      exact .inl ⟨hit, hhit, field, hfield, hstated⟩
    · rw [List.mem_singleton.mp hmem] at hstated
      exact .inr hstated

variable {gate : EvidenceSufficiencyGate} {query answer : Text} {citedHits : List RetrievalHit}

/-- What the gate makes sure of: each exact value of an accepted answer is found at a place in the joined
fields. -/
theorem accepted_value_found
    (h : (validateAnswer py gate query answer citedHits).sufficient = true)
    {value : Text} (hvalue : value ∈ explicitValues py answer) :
    ∃ place, Finds (searchedFields py query citedHits) (normalizeValue py value) place := by
  obtain ⟨hform, hsame⟩ := valueForm_of_mem tables hvalue
  have hfound := List.filter_eq_nil_iff.mp (accepted_spec h).2 value hvalue
  rw [Bool.not_eq_true', Bool.not_eq_false, Text.contains_iff,
    normalizeValue_evidenceOrQuery, hsame] at hfound
  obtain ⟨a, b, hab⟩ := hfound
  rw [List.append_assoc] at hab
  obtain ⟨s, htext, hwrites⟩ := exists_stretch (hform.ne_nil tables) hab.symm
  rw [hsame]
  exact ⟨⟨searchedFields py query citedHits, s⟩, List.infix_rfl, htext, hwrites⟩

section

omit tables

/-- All ways to cut a text in three. -/
def stretches (text : Text) : List Stretch :=
  (List.range (text.length + 1)).flatMap fun i =>
    (List.range (text.length + 1)).map fun k =>
      ⟨text.take i, (text.drop i).take k, (text.drop i).drop k⟩

theorem mem_stretches {s : Stretch} {text : Text} : s ∈ stretches text ↔ s.text = text := by
  simp only [stretches, List.mem_flatMap, List.mem_map, List.mem_range]
  constructor
  · rintro ⟨i, -, k, -, rfl⟩
    simp [Stretch.text]
  · rintro rfl
    refine ⟨s.before.length, ?_, s.written.length, ?_, ?_⟩
    · rw [Stretch.text, List.length_append]
      omega
    · rw [Stretch.text, List.length_append, List.length_append]
      omega
    · simp [Stretch.text]

instance (s : Stretch) (value : Text) : Decidable (s.Writes value) :=
  decidable_of_iff (s.written.filter isCompared = value ∧ s.written ≠ [] ∧
    (∀ c ∈ s.written.head?, isIgnored c = false) ∧ ∀ c ∈ s.written.getLast?, isIgnored c = false)
    ⟨fun ⟨h, hne, hhead, hlast⟩ => ⟨h, hne, hhead, hlast⟩,
      fun h => ⟨h.value, h.tight.ne_nil, h.tight.head, h.tight.last⟩⟩

instance (s : Stretch) : Decidable (s.Whole py) :=
  decidable_of_iff (commasSeparate py s.before s.written s.after = true ∧
    numberGoesOn py s.before (s.written ++ s.after) = false ∧
    numberGoesOn py (s.before ++ s.written) s.after = false)
    ⟨fun ⟨h, hfront, hback⟩ => ⟨h, hfront, hback⟩, fun h => ⟨h.commas, h.front, h.back⟩⟩

instance (field value : Text) : Decidable (Stated py field value) :=
  decidable_of_iff (∃ s ∈ stretches field, s.Writes value ∧ s.Whole py ∧
    ∃ m ∈ (explicitValue py).finditer (s.before ++ (value ++ s.after)),
      m.start = s.before.length ∧ m.text = value)
    (exists_congr fun _ => and_congr_left' mem_stretches)

instance (query value : Text) (citedHits : List RetrievalHit) :
    Decidable (Grounded py query citedHits value) := by
  unfold Grounded
  infer_instance

instance (value : Text) (place : Place) : Decidable (Spoiled py value place) :=
  decidable_of_iff (place.fields.length ≠ 1 ∨
    commasSeparate py place.stretch.before place.stretch.written place.stretch.after = false ∨
    numberGoesOn py place.stretch.before (place.stretch.written ++ place.stretch.after) = true ∨
    numberGoesOn py (place.stretch.before ++ place.stretch.written) place.stretch.after = true ∨
    valueGoesOn py value place.stretch.after = true ∨
    endsInYearOrNumber py value = true ∧ ∃ m ∈ (explicitValue py).finditer
      (place.stretch.before ++ (value ++ place.stretch.after)),
      m.start < place.stretch.before.length ∧ place.stretch.before.length < m.stop) <| by
    constructor
    · rintro (h | h | h | h | h | ⟨hend, m, hm, h⟩)
      · exact .joint h
      · exact .comma h
      · exact .front h
      · exact .back h
      · exact .longer h
      · exact .inside hend m hm h
    · rintro (h | h | h | h | h | ⟨hend, m, hm, h⟩)
      · exact .inl h
      · exact .inr (.inl h)
      · exact .inr (.inr (.inl h))
      · exact .inr (.inr (.inr (.inl h)))
      · exact .inr (.inr (.inr (.inr (.inl h))))
      · exact .inr (.inr (.inr (.inr (.inr ⟨hend, m, hm, h⟩))))

/-- A hit that states an amount. -/
def amountHit (content : Text) : RetrievalHit where
  chunkId := "amount"
  documentId := "1"
  content := content
  title := str "通知"
  sourceUrl := []
  score := .finite 1
  source := str "bm25"
  metadata := []

end

end Odirag.Rag
