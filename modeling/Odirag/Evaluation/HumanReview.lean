import Odirag.Documents.Document
import Odirag.Evaluation.Questions
import Odirag.Foundations.Ink
import Odirag.Foundations.Url

/-!
# The human review of the evaluation questions

Reference: `backend/app/evaluation/human_review.py`, with the `persist` of
`scripts/import_human_evaluation_review.py`.

`validate_review_rows` compares every row of a workbook with the stored documents and chunks and
lists what is wrong; `execute_human_review` stores the rows and, once all of them are reviewed,
replaces the verified dataset. `errors_eq_nil_iff` says what a workbook without errors is, and
`execute_attempts` what any sequence of attempts leaves behind, those included that stop between the
commit and the replacement of the file.
-/

namespace Odirag.HumanReview

open Documents (isSpace)
open Questions (EvaluationQuestion Table upsertQuestions)

/-- `VALID_VERDICTS`. -/
def validVerdicts : List Text := strs ["PASS", "FIX", "REJECT"]

/-- A row of the workbook; `τ` are the points in time. -/
structure HumanReviewRow (τ : Type*) where
  id : Text
  category : Text
  difficulty : Text
  question : Text
  expectedAnswer : Text
  expectedDocumentIds : List Text
  expectedSourceUrls : List Text
  expectedChunkIds : List Text
  evidenceExcerpt : Text
  sourceTitle : Text
  documentTitle : Text
  region : Option Text
  shouldRefuse : Bool
  humanVerdict : Option Text
  humanCorrectedAnswer : Option Text
  humanCorrectedShouldRefuse : Option Bool
  humanAdditionalChunkIds : List Text
  humanNotes : Option Text
  reviewedAt : Option τ

namespace HumanReviewRow

variable {τ : Type*} (row : HumanReviewRow τ)

/-- A corrected answer that is not empty. -/
def correction : Option Text := row.humanCorrectedAnswer.filter (· ≠ [])

def reviewed : Bool := row.humanVerdict.any (· ∈ validVerdicts)

def effectiveAnswer : Text :=
  if row.humanVerdict = some (str "FIX") then row.correction.getD row.expectedAnswer
  else row.expectedAnswer

def effectiveShouldRefuse : Bool :=
  if row.humanVerdict = some (str "FIX") then
    row.humanCorrectedShouldRefuse.getD row.shouldRefuse
  else row.shouldRefuse

def effectiveChunkIds : List Text := firsts (row.expectedChunkIds ++ row.humanAdditionalChunkIds)

def verified : Bool :=
  decide (row.humanVerdict = some (str "PASS")) ||
    decide (row.humanVerdict = some (str "FIX")) && row.correction.isSome

end HumanReviewRow

/-- What is stored of the documents and the chunks, by their identifiers. -/
structure TraceabilityIndex where
  documentUrls : Text → Option Text
  chunkDocuments : Text → Option Text
  chunkContents : Text → Option Text
  documentTitles : Text → Option Text
  sourceTitles : Text → Option Text

/-! ## Validation -/

/-- `" ".join(content.split())`. -/
def normalized (content : Text) : Text :=
  List.intercalate [' '] ((content.splitOnP isSpace).filter (· ≠ []))

/-- `_compact_excerpt`: at most `limit` characters, cut before a word. -/
def compactExcerpt (content : Text) (limit : ℕ) : Text :=
  let normalized := normalized content
  if normalized.length ≤ limit then normalized
  else
    let cut := normalized.take limit
    match Url.rpartition ' ' cut with
    | (some before, _) => if before ≠ [] then before else cut
    | (none, _) => cut

theorem ink_normalized (content : Text) : Text.ink isSpace (normalized content) =
    Text.ink isSpace content := by
  have hempty : ∀ parts : List Text, (parts.filter (· ≠ [])).flatMap (Text.ink isSpace) =
      parts.flatMap (Text.ink isSpace) := by
    intro parts
    induction parts with
    | nil => rfl
    | cons part parts ih =>
        by_cases hpart : part = []
        · simpa [hpart] using ih
        · simpa [hpart] using ih
  rw [normalized, Text.ink_intercalate (by decide), hempty, Text.ink_splitOnP fun _ h => h]

/-- Of a text that is not blank some characters are kept. -/
theorem compactExcerpt_ne_nil {content : Text} (hink : Text.ink isSpace content ≠ []) {limit : ℕ}
    (hlimit : limit ≠ 0) : compactExcerpt content limit ≠ [] := by
  have hne : normalized content ≠ [] := by
    intro hnil
    rw [← ink_normalized, hnil] at hink
    exact hink rfl
  have hcut : (normalized content).take limit ≠ [] := by
    rw [Ne, List.take_eq_nil_iff, not_or]
    exact ⟨hlimit, hne⟩
  unfold compactExcerpt
  dsimp only
  split
  · exact hne
  · split
    · split
      · assumption
      · exact hcut
    · exact hcut

theorem intercalate_ne_nil {separator text : Text} {texts : List Text} (hmem : text ∈ texts)
    (htext : text ≠ []) : List.intercalate separator texts ≠ [] := by
  induction texts with
  | nil => cases hmem
  | cons first rest ih =>
      cases rest with
      | nil =>
          rw [List.intercalate_singleton]
          rwa [← List.mem_singleton.mp hmem]
      | cons second rest =>
          rw [List.intercalate_cons_cons]
          rcases List.mem_cons.mp hmem with rfl | hmem
          · exact List.append_ne_nil_of_left_ne_nil (List.append_ne_nil_of_left_ne_nil htext _) _
          · exact List.append_ne_nil_of_right_ne_nil _ (ih hmem)

variable {τ : Type*} (index : TraceabilityIndex) (row : HumanReviewRow τ)

/-- `_evidence_excerpt_for`. -/
def evidenceExcerptFor : Text :=
  List.intercalate (str "\n\n")
    ((row.expectedChunkIds.filterMap index.chunkContents).map (compactExcerpt · 500))

/-- `_joined_titles`. -/
def joinedTitles (documentIds : List Text) (titles : Text → Option Text) : Text :=
  List.intercalate (str " | ") (documentIds.filterMap titles)

/-- An error with the identifier of its row. -/
def rowError (code : Text) : Text := code ++ str ":" ++ row.id

/-- `_validate_traceability` of one expected document. -/
def documentErrors (documentId : Text) : List Text :=
  match index.documentUrls documentId with
  | none => [rowError row (str "UNKNOWN_DOCUMENT") ++ str ":" ++ documentId]
  | some url =>
      if row.expectedSourceUrls ≠ [] ∧ url ∉ row.expectedSourceUrls then
        [rowError row (str "SOURCE_URL_MISMATCH") ++ str ":" ++ documentId]
      else []

/-- `_validate_traceability` of one chunk. -/
def chunkErrors (chunkId : Text) : List Text :=
  match index.chunkDocuments chunkId with
  | none => [rowError row (str "UNKNOWN_CHUNK") ++ str ":" ++ chunkId]
  | some documentId =>
      if documentId ∉ row.expectedDocumentIds then
        [rowError row (str "CHUNK_DOCUMENT_MISMATCH") ++ str ":" ++ chunkId]
      else []

/-- The errors of a positive case that lacks its evidence. -/
def positiveErrors : List Text :=
  (if row.expectedDocumentIds = [] then [rowError row (str "POSITIVE_CASE_MISSING_DOCUMENT")]
    else []) ++
  (if row.expectedSourceUrls = [] then [rowError row (str "POSITIVE_CASE_MISSING_SOURCE")]
    else []) ++
  (if row.effectiveChunkIds = [] then [rowError row (str "POSITIVE_CASE_MISSING_CHUNK")]
    else []) ++
  if row.evidenceExcerpt = [] then [rowError row (str "POSITIVE_CASE_MISSING_EVIDENCE")] else []

/-- `_validate_traceability`. -/
def validateTraceability : List Text :=
  row.expectedDocumentIds.flatMap (documentErrors index row) ++
    row.effectiveChunkIds.flatMap (chunkErrors index row) ++
    if row.effectiveShouldRefuse = false then positiveErrors row else []

/-- A check of a derived text: what is derived is compared unless it is empty. -/
def mismatch (expected actual code : Text) : List Text :=
  if expected ≠ [] ∧ actual ≠ expected then [rowError row code] else []

/-- The errors of one row. -/
def rowErrors : List Text :=
  if row.id = [] then [str "MISSING_ID"]
  else
    (if row.humanVerdict.any (· ∉ validVerdicts) then [rowError row (str "INVALID_VERDICT")]
      else []) ++
    (if row.humanVerdict = some (str "FIX") ∧ row.correction = none then
      [rowError row (str "FIX_REQUIRES_CORRECTED_ANSWER")] else []) ++
    mismatch row (evidenceExcerptFor index row) row.evidenceExcerpt
      (str "EVIDENCE_EXCERPT_MISMATCH") ++
    mismatch row (joinedTitles row.expectedDocumentIds index.documentTitles) row.documentTitle
      (str "DOCUMENT_TITLE_MISMATCH") ++
    mismatch row (joinedTitles row.expectedDocumentIds index.sourceTitles) row.sourceTitle
      (str "SOURCE_TITLE_MISMATCH") ++
    validateTraceability index row

/-- The identifiers of more than one row, sorted. -/
def duplicateIds (rows : List (HumanReviewRow τ)) : List Text :=
  (firsts ((rows.map (·.id)).filter fun i => 1 < (rows.map (·.id)).count i)).mergeSort
    fun i j => decide (i ≤ j)

/-- `ReviewValidation`. -/
structure ReviewValidation (τ : Type*) where
  rows : List (HumanReviewRow τ)
  errors : List Text

/-- `validate_review_rows`. -/
def validateReviewRows (rows : List (HumanReviewRow τ)) : ReviewValidation τ where
  rows := rows
  errors := firsts ((duplicateIds rows).map (str "DUPLICATE_ID:" ++ ·) ++
    rows.flatMap (rowErrors index))

/-! ### Workbooks without errors -/

/-- A derived text is empty or the one that the row holds. -/
def Matches (expected actual : Text) : Prop := expected = [] ∨ actual = expected

/-- What a row without errors says of the stored documents and chunks. -/
structure Traceable (index : TraceabilityIndex) (row : HumanReviewRow τ) : Prop where
  id_ne : row.id ≠ []
  verdict : ∀ verdict ∈ row.humanVerdict, verdict ∈ validVerdicts
  correction : row.humanVerdict = some (str "FIX") → row.correction ≠ none
  excerpt : Matches (evidenceExcerptFor index row) row.evidenceExcerpt
  documentTitle : Matches (joinedTitles row.expectedDocumentIds index.documentTitles)
    row.documentTitle
  sourceTitle : Matches (joinedTitles row.expectedDocumentIds index.sourceTitles) row.sourceTitle
  documents : ∀ documentId ∈ row.expectedDocumentIds, ∃ url,
    index.documentUrls documentId = some url ∧
      (row.expectedSourceUrls = [] ∨ url ∈ row.expectedSourceUrls)
  chunks : ∀ chunkId, chunkId ∈ row.expectedChunkIds ∨ chunkId ∈ row.humanAdditionalChunkIds →
    ∃ documentId ∈ row.expectedDocumentIds, index.chunkDocuments chunkId = some documentId
  positive : row.effectiveShouldRefuse = false →
    row.expectedDocumentIds ≠ [] ∧ row.expectedSourceUrls ≠ [] ∧
      (row.expectedChunkIds ≠ [] ∨ row.humanAdditionalChunkIds ≠ []) ∧ row.evidenceExcerpt ≠ []

variable {index row}

theorem mismatch_eq_nil_iff {expected actual code : Text} :
    mismatch row expected actual code = [] ↔ Matches expected actual := by
  by_cases hexpected : expected = []
  · simp [mismatch, Matches, hexpected]
  · by_cases hactual : actual = expected <;> simp [mismatch, Matches, hexpected, hactual]

theorem documentErrors_eq_nil_iff {documentId : Text} :
    documentErrors index row documentId = [] ↔ ∃ url,
      index.documentUrls documentId = some url ∧
        (row.expectedSourceUrls = [] ∨ url ∈ row.expectedSourceUrls) := by
  unfold documentErrors
  cases index.documentUrls documentId with
  | none => simp
  | some url =>
      by_cases hurls : row.expectedSourceUrls = []
      · simp [hurls]
      · by_cases hmem : url ∈ row.expectedSourceUrls <;> simp [hurls, hmem]

theorem chunkErrors_eq_nil_iff {chunkId : Text} :
    chunkErrors index row chunkId = [] ↔
      ∃ documentId ∈ row.expectedDocumentIds, index.chunkDocuments chunkId = some documentId := by
  unfold chunkErrors
  cases index.chunkDocuments chunkId with
  | none => simp
  | some documentId => by_cases hmem : documentId ∈ row.expectedDocumentIds <;> simp [hmem]

theorem positiveErrors_eq_nil_iff :
    positiveErrors row = [] ↔ row.expectedDocumentIds ≠ [] ∧ row.expectedSourceUrls ≠ [] ∧
      (row.expectedChunkIds ≠ [] ∨ row.humanAdditionalChunkIds ≠ []) ∧
        row.evidenceExcerpt ≠ [] := by
  have hchunks : row.effectiveChunkIds = [] ↔
      ¬ (row.expectedChunkIds ≠ [] ∨ row.humanAdditionalChunkIds ≠ []) := by
    rw [HumanReviewRow.effectiveChunkIds, firsts_eq_nil_iff, List.append_eq_nil_iff]
    tauto
  simp only [positiveErrors, List.append_eq_nil_iff, ite_eq_right_iff, List.cons_ne_self,
    imp_false, hchunks, not_not, and_assoc, ne_eq]

theorem validateTraceability_eq_nil_iff :
    validateTraceability index row = [] ↔
      (∀ documentId ∈ row.expectedDocumentIds, ∃ url, index.documentUrls documentId = some url ∧
        (row.expectedSourceUrls = [] ∨ url ∈ row.expectedSourceUrls)) ∧
      (∀ chunkId, chunkId ∈ row.expectedChunkIds ∨ chunkId ∈ row.humanAdditionalChunkIds →
        ∃ documentId ∈ row.expectedDocumentIds,
          index.chunkDocuments chunkId = some documentId) ∧
      (row.effectiveShouldRefuse = false → positiveErrors row = []) := by
  simp only [validateTraceability, List.append_eq_nil_iff, List.flatMap_eq_nil_iff,
    documentErrors_eq_nil_iff, chunkErrors_eq_nil_iff, HumanReviewRow.effectiveChunkIds,
    mem_firsts, List.mem_append, ite_eq_right_iff, and_assoc]

theorem rowErrors_eq_nil_iff : rowErrors index row = [] ↔ Traceable index row := by
  unfold rowErrors
  by_cases hid : row.id = []
  · rw [if_pos hid]
    exact iff_of_false (List.cons_ne_nil _ _) fun h => h.id_ne hid
  rw [if_neg hid]
  have hverdict : (row.humanVerdict.any (· ∉ validVerdicts)) = false ↔
      ∀ verdict ∈ row.humanVerdict, verdict ∈ validVerdicts := by
    cases row.humanVerdict <;> simp
  simp only [List.append_eq_nil_iff, mismatch_eq_nil_iff, validateTraceability_eq_nil_iff,
    positiveErrors_eq_nil_iff, ite_eq_right_iff, List.cons_ne_nil, imp_false,
    Bool.not_eq_true, hverdict, not_and, and_assoc]
  constructor
  · rintro ⟨hverdict, hcorrection, hexcerpt, htitle, hsource, hdocuments, hchunks, hpositive⟩
    exact ⟨hid, hverdict, hcorrection, hexcerpt, htitle, hsource, hdocuments, hchunks, hpositive⟩
  · rintro ⟨-, hverdict, hcorrection, hexcerpt, htitle, hsource, hdocuments, hchunks, hpositive⟩
    exact ⟨hverdict, hcorrection, hexcerpt, htitle, hsource, hdocuments, hchunks, hpositive⟩

theorem duplicateIds_eq_nil_iff {rows : List (HumanReviewRow τ)} :
    duplicateIds rows = [] ↔ (rows.map (·.id)).Nodup := by
  have hsort : duplicateIds rows = [] ↔
      (firsts ((rows.map (·.id)).filter fun i => 1 < (rows.map (·.id)).count i)) = [] := by
    rw [← List.length_eq_zero_iff, duplicateIds, List.length_mergeSort, List.length_eq_zero_iff]
  rw [hsort, firsts_eq_nil_iff, List.filter_eq_nil_iff, List.nodup_iff_count_le_one]
  constructor
  · intro h i
    by_cases hmem : i ∈ rows.map (·.id)
    · simpa using h i hmem
    · rw [List.count_eq_zero_of_not_mem hmem]
      exact Nat.zero_le 1
  · intro h i _
    simpa using h i

theorem errors_eq_nil_iff (index : TraceabilityIndex) (rows : List (HumanReviewRow τ)) :
    (validateReviewRows index rows).errors = [] ↔
      (rows.map (·.id)).Nodup ∧ ∀ row ∈ rows, Traceable index row := by
  simp only [validateReviewRows, firsts_eq_nil_iff, List.append_eq_nil_iff, List.map_eq_nil_iff,
    duplicateIds_eq_nil_iff, List.flatMap_eq_nil_iff, rowErrors_eq_nil_iff]

/-- An error says which row it is about. -/
def Names (error : Text) (row : HumanReviewRow τ) : Prop :=
  row.id = [] ∧ error = str "MISSING_ID" ∨ ∃ code rest, error = rowError row code ++ rest

theorem names_rowError (code : Text) : Names (rowError row code) row :=
  .inr ⟨code, [], (List.append_nil _).symm⟩

theorem names_of_mem_validateTraceability {e : Text} (h : e ∈ validateTraceability index row) :
    Names e row := by
  rcases List.mem_append.mp h with h | h
  · rcases List.mem_append.mp h with h | h
    · obtain ⟨documentId, -, h⟩ := List.mem_flatMap.mp h
      unfold documentErrors at h
      split at h
      · cases List.mem_singleton.mp h
        exact .inr ⟨_, str ":" ++ documentId, List.append_assoc _ _ _⟩
      · split at h
        · cases List.mem_singleton.mp h
          exact .inr ⟨_, str ":" ++ documentId, List.append_assoc _ _ _⟩
        · cases h
    · obtain ⟨chunkId, -, h⟩ := List.mem_flatMap.mp h
      unfold chunkErrors at h
      split at h
      · cases List.mem_singleton.mp h
        exact .inr ⟨_, str ":" ++ chunkId, List.append_assoc _ _ _⟩
      · split at h
        · cases List.mem_singleton.mp h
          exact .inr ⟨_, str ":" ++ chunkId, List.append_assoc _ _ _⟩
        · cases h
  · split at h
    · simp only [positiveErrors, List.mem_append, List.mem_ite_nil_right, List.mem_singleton] at h
      rcases h with ((⟨-, rfl⟩ | ⟨-, rfl⟩) | ⟨-, rfl⟩) | ⟨-, rfl⟩ <;> exact names_rowError _
    · cases h

theorem names_of_mem_rowErrors {e : Text} (h : e ∈ rowErrors index row) : Names e row := by
  unfold rowErrors at h
  split at h
  · next hid => exact .inl ⟨hid, List.mem_singleton.mp h⟩
  · simp only [mismatch, List.mem_append, List.mem_ite_nil_right, List.mem_singleton] at h
    rcases h with ((((⟨-, rfl⟩ | ⟨-, rfl⟩) | ⟨-, rfl⟩) | ⟨-, rfl⟩) | ⟨-, rfl⟩) | h
    all_goals first | exact names_rowError _ | exact names_of_mem_validateTraceability h

theorem mem_duplicateIds {rows : List (HumanReviewRow τ)} {i : Text} :
    i ∈ duplicateIds rows ↔ 1 < (rows.map (·.id)).count i := by
  simp only [duplicateIds, List.mem_mergeSort, mem_firsts, List.mem_filter, decide_eq_true_eq,
    and_iff_right_iff_imp]
  exact fun h => List.count_pos_iff.mp (by omega)

/-- A workbook has no errors exactly if its identifiers are distinct and every row is traceable.
Each row that is not has an error that names it, every error names such a row or an identifier of
several rows, and none is listed twice. -/
theorem validateReviewRows_spec (index : TraceabilityIndex) (rows : List (HumanReviewRow τ)) :
    let errors := (validateReviewRows index rows).errors
    (errors = [] ↔ (rows.map (·.id)).Nodup ∧ ∀ row ∈ rows, Traceable index row) ∧
      (∀ row ∈ rows, ¬ Traceable index row → ∃ e ∈ errors, Names e row) ∧
      (∀ e ∈ errors,
        (∃ i, 1 < (rows.map (·.id)).count i ∧ e = str "DUPLICATE_ID:" ++ i) ∨
          ∃ row ∈ rows, ¬ Traceable index row ∧ Names e row) ∧
      errors.Nodup := by
  have hmem : ∀ e, e ∈ (validateReviewRows index rows).errors ↔
      (∃ i, 1 < (rows.map (·.id)).count i ∧ str "DUPLICATE_ID:" ++ i = e) ∨
        ∃ row ∈ rows, e ∈ rowErrors index row := by
    intro e
    simp only [validateReviewRows, mem_firsts, List.mem_append, List.mem_map, List.mem_flatMap,
      mem_duplicateIds]
  refine ⟨errors_eq_nil_iff index rows, fun row hrow htraceable => ?_, fun e he => ?_,
    nodup_firsts _⟩
  · obtain ⟨e, he⟩ := List.exists_mem_of_ne_nil _ (mt rowErrors_eq_nil_iff.mp htraceable)
    exact ⟨e, (hmem e).mpr (.inr ⟨row, hrow, he⟩), names_of_mem_rowErrors he⟩
  · rcases (hmem e).mp he with ⟨i, hi, rfl⟩ | ⟨row, hrow, hrowErrors⟩
    · exact .inl ⟨i, hi, rfl⟩
    · refine .inr ⟨row, hrow, fun htraceable => ?_, names_of_mem_rowErrors hrowErrors⟩
      rw [rowErrors_eq_nil_iff.mpr htraceable] at hrowErrors
      cases hrowErrors

/-! ## Execution -/

/-- `_evaluation_question`. -/
def evaluationQuestion (row : HumanReviewRow τ) : EvaluationQuestion where
  questionId := row.id
  question := row.question
  queryType := str "rag"
  expectedDocumentIds := row.expectedDocumentIds
  expectedChunkIds := row.effectiveChunkIds
  expectedAnswerPoints := if row.effectiveAnswer ≠ [] then [row.effectiveAnswer] else []
  expectedFilters :=
    match row.region.filter (· ≠ []) with
    | some region => [(str "region", .str region)]
    | none => []
  shouldRefuse := row.effectiveShouldRefuse
  difficulty := some row.difficulty
  category := some row.category
  createdBy := some (str "human-evaluation-review")
  verified := row.verified

/-- `ReviewValidation.counts`. -/
structure Counts where
  total : ℕ
  reviewed : ℕ
  unreviewed : ℕ
  pass : ℕ
  fix : ℕ
  reject : ℕ
  verified : ℕ
  traceabilityErrors : ℕ
deriving DecidableEq

namespace ReviewValidation

variable (validation : ReviewValidation τ)

/-- The rows with a verdict. -/
def withVerdict (verdict : Text) : ℕ :=
  validation.rows.countP fun row => row.humanVerdict = some verdict

def counts : Counts where
  total := validation.rows.length
  reviewed := validation.rows.countP (·.reviewed)
  unreviewed := validation.rows.countP fun row => !row.reviewed
  pass := validation.withVerdict (str "PASS")
  fix := validation.withVerdict (str "FIX")
  reject := validation.withVerdict (str "REJECT")
  verified := validation.rows.countP (·.verified)
  traceabilityErrors := validation.errors.length

/-- The status is `REVIEW_STATUS_COMPLETE`. -/
def complete : Bool :=
  validation.errors.isEmpty && decide (0 < validation.counts.total) &&
    decide (validation.counts.unreviewed = 0)

def status : Text :=
  if validation.complete then str "HUMAN_REVIEW_COMPLETE" else str "PARTIAL_HUMAN_REVIEW"

end ReviewValidation

/-- A question of the verified dataset. -/
structure VerifiedQuestion (τ : Type*) where
  questionId : Text
  question : Text
  queryType : Text
  expectedAnswer : Text
  expectedDocumentIds : List Text
  expectedSourceUrls : List Text
  expectedChunkIds : List Text
  evidenceExcerpt : Text
  shouldRefuse : Bool
  difficulty : Text
  category : Text
  humanVerdict : Option Text
  humanNotes : Option Text
  reviewedAt : Option τ
  verified : Bool

/-- The verified dataset. -/
structure VerifiedOutput (τ : Type*) where
  schemaVersion : ℕ
  status : Text
  questionCount : ℕ
  humanVerifiedCount : ℕ
  reviewedCount : ℕ
  questions : List (VerifiedQuestion τ)

def verifiedQuestion (row : HumanReviewRow τ) : VerifiedQuestion τ where
  questionId := row.id
  question := row.question
  queryType := str "rag"
  expectedAnswer := row.effectiveAnswer
  expectedDocumentIds := row.expectedDocumentIds
  expectedSourceUrls := row.expectedSourceUrls
  expectedChunkIds := row.effectiveChunkIds
  evidenceExcerpt := row.evidenceExcerpt
  shouldRefuse := row.effectiveShouldRefuse
  difficulty := row.difficulty
  category := row.category
  humanVerdict := row.humanVerdict
  humanNotes := row.humanNotes
  reviewedAt := row.reviewedAt
  verified := row.verified

/-- The payload of `_write_verified_output`. -/
def verifiedOutput (rows : List (HumanReviewRow τ)) : VerifiedOutput τ where
  schemaVersion := 1
  status := str "HUMAN_REVIEW_COMPLETE"
  questionCount := rows.length
  humanVerifiedCount := rows.countP (·.verified)
  reviewedCount := rows.countP (·.reviewed)
  questions := rows.map verifiedQuestion

/-- The rows as they are applied: a reviewed row has the time of its review. -/
def appliedRows (stamp : τ) (rows : List (HumanReviewRow τ)) : List (HumanReviewRow τ) :=
  rows.map fun row =>
    if row.reviewed then { row with reviewedAt := row.reviewedAt.or (some stamp) } else row

/-- Where an attempt stops. -/
inductive Stop
  | goesThrough
  | beforeCommit
  | afterCommit
  /-- So many characters are in the temporary file. -/
  | writing (n : ℕ)
  | beforeReplace
deriving DecidableEq

/-- One call of the program on the workbook. -/
structure Attempt (τ : Type*) where
  apply : Bool
  stamp : τ
  stop : Stop

/-- The table of questions, the dataset and the file that it is written to first. -/
@[ext]
structure State where
  table : Table
  output : Option Text
  temporary : Option Text

/-- `ReviewExecution`. -/
structure ReviewExecution where
  status : Text
  applied : Bool
  finalOutputWritten : Bool
  counts : Counts
  errors : List Text
deriving DecidableEq

/-- `execute_human_review`: the state it leaves and, when it does not stop, what it returns. The
text of the dataset is `json.dumps` of its payload. -/
def executeHumanReview (dumps : VerifiedOutput τ → Text) (validation : ReviewValidation τ)
    (a : Attempt τ) (s : State) : State × Option ReviewExecution :=
  let execution (applied written : Bool) : ReviewExecution :=
    ⟨validation.status, applied, written, validation.counts, validation.errors⟩
  if validation.errors ≠ [] then (s, some (execution false false))
  else if a.apply = false then (s, some (execution false false))
  else
    let rows := appliedRows a.stamp validation.rows
    if a.stop = .beforeCommit then (s, none)
    else
      match upsertQuestions s.table (rows.map evaluationQuestion) with
      | none => (s, none)
      | some table =>
          if a.stop = .afterCommit then ({ s with table := table }, none)
          else if validation.complete = false then
            ({ s with table := table }, some (execution true false))
          else
            let text := dumps (verifiedOutput rows)
            match a.stop with
            | .writing n => ({ s with table := table, temporary := some (text.take n) }, none)
            | .beforeReplace => ({ s with table := table, temporary := some text }, none)
            | _ =>
                ({ table := table, output := some text, temporary := none },
                  some (execution true true))

/-- The state after several attempts. -/
def attempts (dumps : VerifiedOutput τ → Text) (validation : ReviewValidation τ)
    (as : List (Attempt τ)) (start : State) : State :=
  as.foldl (fun s a => (executeHumanReview dumps validation a s).1) start

/-! ### Repeated attempts -/

section Attempts

variable {rows : List (HumanReviewRow τ)} {validation : ReviewValidation τ}
  {dumps : VerifiedOutput τ → Text} {a : Attempt τ} {s start : State}

/-- What is stored of a row does not depend on the time of its review. -/
theorem map_evaluationQuestion_appliedRows (stamp : τ) :
    (appliedRows stamp rows).map evaluationQuestion = rows.map evaluationQuestion := by
  rw [appliedRows, List.map_map]
  refine List.map_congr_left fun row _ => ?_
  simp only [Function.comp_apply]
  split <;> rfl

theorem map_questionId_evaluationQuestion :
    (rows.map evaluationQuestion).map (·.questionId) = rows.map (·.id) := by
  rw [List.map_map]
  rfl

/-- Rows with distinct identifiers are stored, whatever is in the table. -/
theorem upsertQuestions_rows {table : Table} (hrows : (rows.map (·.id)).Nodup)
    (htable : (table.map (·.questionId)).Nodup) (stamp : τ) :
    upsertQuestions table ((appliedRows stamp rows).map evaluationQuestion) =
      some (Keyed.putAll (·.questionId) table (rows.map evaluationQuestion)) := by
  rw [map_evaluationQuestion_appliedRows, Questions.upsertQuestions_eq _ htable, if_pos]
  refine List.Nodup.sublist (List.filter_sublist.map _) ?_
  rwa [map_questionId_evaluationQuestion]

variable (dumps a) in
/-- An attempt leaves everything as it was, or it stores the rows and then, when the review is
complete, replaces the dataset or not. -/
theorem executeHumanReview_spec (hrows : (validation.rows.map (·.id)).Nodup)
    (htable : (s.table.map (·.questionId)).Nodup) :
    let r := executeHumanReview dumps validation a s
    r.1 = s ∨
      a.apply = true ∧
        r.1.table = Keyed.putAll (·.questionId) s.table (validation.rows.map evaluationQuestion) ∧
        (r.1.output = s.output ∨ validation.complete = true ∧
          r.1.output = some (dumps (verifiedOutput (appliedRows a.stamp validation.rows)))) := by
  intro r
  simp only [r, executeHumanReview, upsertQuestions_rows hrows htable]
  split
  · exact .inl rfl
  split
  · exact .inl rfl
  next happly =>
  split
  · exact .inl rfl
  split
  · exact .inr ⟨by simpa using happly, rfl, .inl rfl⟩
  split
  · exact .inr ⟨by simpa using happly, rfl, .inl rfl⟩
  next hcomplete =>
  refine .inr ⟨by simpa using happly, ?_⟩
  cases a.stop with
  | writing n => exact ⟨rfl, .inl rfl⟩
  | beforeReplace => exact ⟨rfl, .inl rfl⟩
  | goesThrough => exact ⟨rfl, .inr ⟨by simpa using hcomplete, rfl⟩⟩
  | beforeCommit => exact ⟨rfl, .inr ⟨by simpa using hcomplete, rfl⟩⟩
  | afterCommit => exact ⟨rfl, .inr ⟨by simpa using hcomplete, rfl⟩⟩

variable (dumps) in
/-- An attempt that goes through. -/
theorem executeHumanReview_goesThrough (herrors : validation.errors = [])
    (hrows : (validation.rows.map (·.id)).Nodup) (htable : (s.table.map (·.questionId)).Nodup)
    (stamp : τ) :
    let r := executeHumanReview dumps validation ⟨true, stamp, .goesThrough⟩ s
    r.1.table = Keyed.putAll (·.questionId) s.table (validation.rows.map evaluationQuestion) ∧
      r.1.output = (if validation.complete then
        some (dumps (verifiedOutput (appliedRows stamp validation.rows))) else s.output) ∧
      r.2 = some ⟨validation.status, true, validation.complete, validation.counts, []⟩ := by
  intro r
  simp only [r, executeHumanReview, upsertQuestions_rows hrows htable, herrors, ne_eq,
    not_true_eq_false, Bool.true_eq_false, reduceCtorEq, if_false]
  cases hcomplete : validation.complete <;> simp

/-- The states between the start and the stored review. -/
structure Between (dumps : VerifiedOutput τ → Text) (validation : ReviewValidation τ)
    (start : State) (as : List (Attempt τ)) (s : State) : Prop where
  table : s.table = start.table ∨
    s.table = Keyed.putAll (·.questionId) start.table (validation.rows.map evaluationQuestion)
  output : s.output = start.output ∨
    validation.complete = true ∧
      s.table = Keyed.putAll (·.questionId) start.table (validation.rows.map evaluationQuestion) ∧
      ∃ a ∈ as, a.apply = true ∧
        s.output = some (dumps (verifiedOutput (appliedRows a.stamp validation.rows)))

variable {as : List (Attempt τ)}

theorem Between.nodup (h : Between dumps validation start as s)
    (hstart : (start.table.map (·.questionId)).Nodup) : (s.table.map (·.questionId)).Nodup := by
  rcases h.table with heq | heq
  · rwa [heq]
  · rw [heq]
    exact Keyed.nodup_putAll hstart

/-- Storing the rows again changes nothing. -/
theorem Between.putAll (h : Between dumps validation start as s)
    (hrows : (validation.rows.map (·.id)).Nodup)
    (hstart : (start.table.map (·.questionId)).Nodup) :
    Keyed.putAll (·.questionId) s.table (validation.rows.map evaluationQuestion) =
      Keyed.putAll (·.questionId) start.table (validation.rows.map evaluationQuestion) := by
  rcases h.table with heq | heq
  · rw [heq]
  · rw [heq]
    exact Keyed.putAll_putAll hstart (by rwa [map_questionId_evaluationQuestion])

theorem Between.step (h : Between dumps validation start as s)
    (hrows : (validation.rows.map (·.id)).Nodup)
    (hstart : (start.table.map (·.questionId)).Nodup) :
    Between dumps validation start (as ++ [a]) (executeHumanReview dumps validation a s).1 := by
  have hmono : ∀ {text}, (∃ b ∈ as, b.apply = true ∧ text =
        some (dumps (verifiedOutput (appliedRows b.stamp validation.rows)))) →
      ∃ b ∈ as ++ [a], b.apply = true ∧ text =
        some (dumps (verifiedOutput (appliedRows b.stamp validation.rows))) :=
    fun ⟨b, hb, hrest⟩ => ⟨b, List.mem_append_left _ hb, hrest⟩
  rcases executeHumanReview_spec dumps a hrows (h.nodup hstart) with
    heq | ⟨happly, htable, houtput⟩
  · rw [heq]
    exact ⟨h.table, h.output.imp_right fun ⟨hc, ht, ha⟩ => ⟨hc, ht, hmono ha⟩⟩
  · rw [h.putAll hrows hstart] at htable
    refine ⟨.inr htable, ?_⟩
    rcases houtput with hsame | ⟨hcomplete, hnew⟩
    · rw [hsame]
      exact h.output.imp_right fun ⟨hc, _, ha⟩ => ⟨hc, htable, hmono ha⟩
    · exact .inr ⟨hcomplete, htable, a, by simp, happly, hnew⟩

theorem between_attempts (hrows : (validation.rows.map (·.id)).Nodup)
    (hstart : (start.table.map (·.questionId)).Nodup) (as : List (Attempt τ)) :
    Between dumps validation start as (attempts dumps validation as start) := by
  induction as using List.reverseRecOn with
  | nil => exact ⟨.inl rfl, .inl rfl⟩
  | append_singleton as a ih =>
      rw [attempts, List.foldl_append]
      exact ih.step hrows hstart

/-- Attempts that find errors or only look change nothing. -/
theorem attempts_eq_self (h : validation.errors ≠ [] ∨ ∀ a ∈ as, a.apply = false) :
    attempts dumps validation as s = s := by
  induction as with
  | nil => rfl
  | cons a as ih =>
      have hstep : (executeHumanReview dumps validation a s).1 = s := by
        rcases h with herrors | hlook
        · simp only [executeHumanReview, if_pos herrors]
        · simp only [executeHumanReview, if_pos (hlook a List.mem_cons_self)]
          split <;> rfl
      rw [attempts, List.foldl_cons, hstep]
      exact ih (h.imp_right fun hlook b hb => hlook b (List.mem_cons_of_mem _ hb))

/-- Whatever attempts are made, and wherever they stop: the table is as it was or holds the rows of
the workbook, and the dataset is as it was or the one of a complete review whose rows are stored. An
attempt that goes through after them leaves what it would have left alone. A workbook with errors
changes nothing, nor does an attempt that only looks. -/
theorem execute_attempts (dumps : VerifiedOutput τ → Text) (index : TraceabilityIndex)
    (rows : List (HumanReviewRow τ)) (start : State) (hstart : (start.table.map (·.questionId)).Nodup)
    (as : List (Attempt τ)) :
    let validation := validateReviewRows index rows
    let saved := Keyed.putAll (·.questionId) start.table (rows.map evaluationQuestion)
    let s := attempts dumps validation as start
    (validation.errors ≠ [] ∨ (∀ a ∈ as, a.apply = false) → s = start) ∧
      Between dumps validation start as s ∧
      (validation.errors = [] →
        (∀ stamp,
          let last := executeHumanReview dumps validation ⟨true, stamp, .goesThrough⟩ s
          last.1.table = saved ∧
            last.1.output = (if validation.complete then
              some (dumps (verifiedOutput (appliedRows stamp rows))) else start.output) ∧
            last.2 = some ⟨validation.status, true, validation.complete, validation.counts, []⟩) ∧
        ∀ i, Keyed.find? (·.questionId) i saved =
          (Keyed.find? (·.questionId) i (rows.map evaluationQuestion)).or
            (Keyed.find? (·.questionId) i start.table)) := by
  intro validation saved s
  refine ⟨attempts_eq_self, ?_, fun herrors => ?_⟩
  · by_cases herrors : validation.errors = []
    · exact between_attempts ((errors_eq_nil_iff index rows).mp herrors).1 hstart as
    · have hsame : s = start := attempts_eq_self (.inl herrors)
      rw [hsame]
      exact ⟨.inl rfl, .inl rfl⟩
  have hrows : (rows.map (·.id)).Nodup := ((errors_eq_nil_iff index rows).mp herrors).1
  have hbetween : Between dumps validation start as s := between_attempts hrows hstart as
  refine ⟨fun stamp => ?_, fun i => ?_⟩
  · obtain ⟨htable, houtput, hresult⟩ := executeHumanReview_goesThrough dumps herrors hrows
      (hbetween.nodup hstart) stamp
    refine ⟨htable.trans (hbetween.putAll hrows hstart), houtput.trans ?_, hresult⟩
    split
    · rfl
    · next hcomplete =>
        exact hbetween.output.resolve_right fun h => hcomplete h.1
  · exact Keyed.find?_putAll (by rwa [map_questionId_evaluationQuestion])

end Attempts

/-- A refusal that the reviewer confirms. -/
def confirmedRefusal : HumanReviewRow ℕ where
  id := str "phase-j-draft-001"
  category := str "no_evidence"
  difficulty := str "easy"
  question := str "Is there a park on Mars?"
  expectedAnswer := []
  expectedDocumentIds := []
  expectedSourceUrls := []
  expectedChunkIds := []
  evidenceExcerpt := []
  sourceTitle := []
  documentTitle := []
  region := none
  shouldRefuse := true
  humanVerdict := some (str "PASS")
  humanCorrectedAnswer := none
  humanCorrectedShouldRefuse := none
  humanAdditionalChunkIds := []
  humanNotes := none
  reviewedAt := none

theorem errors_confirmedRefusal (index : TraceabilityIndex) :
    (validateReviewRows index [confirmedRefusal]).errors = [] := by
  refine (errors_eq_nil_iff index _).mpr ⟨by decide, fun row hrow => ?_⟩
  cases List.mem_singleton.mp hrow
  refine ⟨by decide, by decide, by decide, .inl rfl, .inl rfl, .inl rfl, ?_, ?_, by decide⟩
  · intro documentId hmem
    cases hmem
  · rintro chunkId (hmem | hmem) <;> cases hmem

/-- Nothing is stored. -/
def emptyIndex : TraceabilityIndex :=
  ⟨fun _ => none, fun _ => none, fun _ => none, fun _ => none, fun _ => none⟩

/-- The identifiers of the questions. -/
def dumpIds (output : VerifiedOutput ℕ) : Text := Text.joinLines (output.questions.map (·.questionId))

/-- The first attempt stops after the commit, the second before the file is replaced, and the third
goes through. -/
theorem execute_attempts_confirmedRefusal :
    (executeHumanReview dumpIds (validateReviewRows emptyIndex [confirmedRefusal])
      ⟨true, 3, .goesThrough⟩
      (attempts dumpIds (validateReviewRows emptyIndex [confirmedRefusal])
        [⟨true, 1, .afterCommit⟩, ⟨true, 2, .beforeReplace⟩] ⟨[], none, none⟩)).1.table =
      [evaluationQuestion confirmedRefusal] :=
  (((execute_attempts dumpIds emptyIndex [confirmedRefusal] ⟨[], none, none⟩ (by decide)
    [⟨true, 1, .afterCommit⟩, ⟨true, 2, .beforeReplace⟩]).2.2
      (errors_confirmedRefusal emptyIndex)).1 3).1

end Odirag.HumanReview
