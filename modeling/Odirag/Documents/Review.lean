import Odirag.Documents.Document
import Odirag.Foundations.Orm

/-!
# Operations that decide a document

Reference: `ReviewService` of `backend/app/services/review.py`, `DataDebtCleanupService.run` of
`backend/app/services/data_quality.py`, `add_review` of `backend/app/repositories/reviews.py`.

Each operation works on the row its session holds: `loaded` is what the queries of the transaction
see, `current` is what its commit stores. They differ where a decision is assigned after the last
flush.
-/

namespace Odirag.Documents

/-- `FilterDecision` of the rule filter. -/
inductive FilterDecision
  | accept | review | reject
deriving DecidableEq, Repr

/-- The decision of the model's review. -/
inductive LlmDecision
  | approve | reject | manualReview
deriving DecidableEq, Repr

/-- The decision of a human reviewer. -/
inductive ManualDecision
  | approve | reject
deriving DecidableEq, Repr

/-- `rule_result.decision.value`, as the rule status stores it. -/
def FilterDecision.status : FilterDecision → AutoReviewStatus
  | .accept => .accept
  | .review => .review
  | .reject => .reject

/-- `llm_result.decision`, as the LLM status stores it. -/
def LlmDecision.status : LlmDecision → AutoReviewStatus
  | .approve => .approve
  | .reject => .reject
  | .manualReview => .manualReview

/-- The manual status that a reviewer's decision stores. -/
def ManualDecision.status : ManualDecision → ManualReviewStatus
  | .approve => .approve
  | .reject => .reject

/-- The final status that a reviewer's decision stores. -/
def ManualDecision.finalStatus : ManualDecision → FinalStatus
  | .approve => .approved
  | .reject => .rejected

/-- A reviewer decides the document. -/
@[simp] theorem ManualDecision.decided_finalStatus (d : ManualDecision) :
    d.finalStatus.decided = true := by
  cases d <;> rfl

/-- `ExtractedField`. -/
structure ExtractedField where
  value : String
  evidenceQuote : String
deriving DecidableEq, Repr

/-- The model's review; a field that `ExtractedField` does not accept is the text of its
validation error. -/
structure ReviewResult where
  decision : LlmDecision
  documentType : Option String := none
  extractedFields : List (String × (String ⊕ ExtractedField)) := []
  rawResponse : String := ""
deriving DecidableEq, Repr

/-- How `_review_with_retry` ends. -/
inductive LlmOutcome
  /-- Three attempts raised a provider error. -/
  | unavailable
  | reviewed (r : ReviewResult)
deriving DecidableEq, Repr

/-- Why `ReviewService.run` raises. -/
inductive ReviewError
  /-- The error of the last attempt, raised again. -/
  | providerError
  /-- `ProviderResponseError`. -/
  | providerResponse (provider message : String)
deriving DecidableEq, Repr

namespace ReviewService

/-- `ALLOWED_STRUCTURED_FIELDS`. -/
def allowedStructuredFields : List String :=
  ["issuing_authority", "document_number", "policy_target", "support_measures",
    "application_conditions", "funding_amount", "deadline", "department", "region", "industry",
    "contact_information", "key_indicators"]

/-- The check of one extracted field. -/
def validateField (content : String) (name : String) (raw : String ⊕ ExtractedField) :
    Except ReviewError (String × ExtractedField) :=
  if name ∉ allowedStructuredFields then
    .error (.providerResponse "llm_review" ("unsupported field: " ++ name))
  else
    match raw with
    | .inl error => .error (.providerResponse "llm_review" error)
    | .inr field =>
        if field.evidenceQuote.toList <:+: content.toList then .ok (name, field)
        else
          .error (.providerResponse "llm_review"
            ("evidence quote is not present for field: " ++ name))

/-- `_validate_extracted_fields`. -/
def validateExtractedFields (document : Document) (r : ReviewResult) :
    Except ReviewError (List (String × ExtractedField)) :=
  r.extractedFields.mapM fun f => validateField document.content f.1 f.2

/-- `ReviewRepository.add_review`: its flush writes the assignments made so far. -/
def addReview (m : Held Document) (review : DocumentReview) : Held Document :=
  (m.assign (·.addReview review)).flush

/-- The rule review: the status is assigned before `add_review`. -/
def ruleReview (rule : FilterDecision) (document : Document) : Held Document :=
  addReview ((Held.fresh document).assign fun d => { d with ruleFilterStatus := rule.status })
    { reviewType := .rule }

/-- The final status after the model's review. -/
def llmFinalStatus (rule : FilterDecision) (decision : LlmDecision) : FinalStatus :=
  if decision = .reject then .rejected
  else if decision = .manualReview ∨ rule = .review then .pendingManualReview
  else .approved

/-- Only the approvals of both approve the document. -/
theorem llmFinalStatus_eq_approved {rule : FilterDecision} {decision : LlmDecision} :
    llmFinalStatus rule decision = .approved ↔ decision = .approve ∧ rule ≠ .review := by
  cases rule <;> cases decision <;> decide

/-- Only the model's rejection rejects the document. -/
theorem llmFinalStatus_eq_rejected {rule : FilterDecision} {decision : LlmDecision} :
    llmFinalStatus rule decision = .rejected ↔ decision = .reject := by
  cases rule <;> cases decision <;> decide

/-- The model's review: the statuses are assigned after the last flush. -/
def llmReview (rule : FilterDecision) (r : ReviewResult) (m : Held Document) : Held Document :=
  (addReview m { reviewType := .llm, rawResponse := some r.rawResponse }).assign fun d =>
    { d with
      llmReviewStatus := r.decision.status
      metadata := Function.update d.metadata .documentType
        (orElse r.documentType (d.metadata .documentType))
      finalStatus := llmFinalStatus rule r.decision }

/-- How `run` ends: with a reconciliation and a commit, or with an exception after the commits
that lead to `document`. -/
inductive Ending
  | decides (m : Held Document)
  | raises (document : Document) (error : ReviewError)

/-- `ReviewService.run`. -/
def run (rule : FilterDecision) (llm : LlmOutcome) (document : Document) : Ending :=
  let m := ruleReview rule document
  if rule = .reject then .decides (m.assign fun d => { d with finalStatus := .rejected })
  else
    match llm with
    | .unavailable =>
        .raises { m.current with llmReviewStatus := .unavailable, finalStatus := .pendingLlm }
          .providerError
    | .reviewed r =>
        match validateExtractedFields m.current r with
        | .error e => .raises m.current e
        | .ok _ => .decides (llmReview rule r m)

/-- The committed row after `run`. -/
def Ending.document : Ending → Document
  | .decides m => m.current
  | .raises document _ => document

/-- `ReviewService.manual_decision`: the decision is assigned before `add_review`. -/
def manualDecision (decision : ManualDecision) (document : Document) : Held Document :=
  addReview
    ((Held.fresh document).assign fun d =>
      { d with manualReviewStatus := decision.status, finalStatus := decision.finalStatus })
    { reviewType := .manual }

/-- The row that the flush of a manual decision writes over the stored one. -/
def flushDecision (decision : ManualDecision) (loaded stored : Document) : Document :=
  Document.save ⟨loaded, (manualDecision decision loaded).current⟩ stored

/-- A flushed row is decided, if the stored row is decided wherever the loaded one was. -/
theorem decided_flushDecision (decision : ManualDecision) {loaded stored : Document}
    (h : loaded.finalStatus.decided = true → stored.finalStatus.decided = true) :
    (flushDecision decision loaded stored).finalStatus.decided = true := by
  change (column loaded.finalStatus decision.finalStatus stored.finalStatus).decided = true
  rcases column_cases loaded.finalStatus decision.finalStatus stored.finalStatus with
    ⟨hcol, hsame⟩ | ⟨hcol, -⟩
  · rw [hcol]
    refine h ?_
    rw [← hsame]
    exact decision.decided_finalStatus
  · rw [hcol]
    exact decision.decided_finalStatus

end ReviewService

namespace DataDebtCleanupService

/-- The document has a review of the type. -/
def hasReview (document : Document) (reviewType : ReviewType) : Bool :=
  document.reviews.any (·.reviewType == reviewType)

/-- Too little text to review, and no attachment that could hold more. -/
def undersized (hardMinimumChars : ℕ) (hasAttachments : Bool) (document : Document) : Bool :=
  decide ((strip document.content).length < hardMinimumChars) && !hasAttachments

/-- The cleanup rejects the document. -/
def rejects (hardMinimumChars : ℕ) (hasAttachments : Bool) (document : Document) : Bool :=
  document.finalStatus.reviewable && undersized hardMinimumChars hasAttachments document &&
    !hasReview document .dataDebtHardReject

/-- `DataDebtCleanupService.run` for one document; it selects the reviewable ones. -/
def run (hardMinimumChars : ℕ) (hasAttachments : Bool) (document : Document) : Document :=
  if document.finalStatus.reviewable = false then document
  else if undersized hardMinimumChars hasAttachments document then
    if hasReview document .dataDebtHardReject then document
    else
      { document with
        ruleFilterStatus := .rejected
        llmReviewStatus := .rejected
        manualReviewStatus := .notRequired
        finalStatus := .rejected }.addReview { reviewType := .dataDebtHardReject }
  else if hasReview document .dataDebtAudit then document
  else document.addReview { reviewType := .dataDebtAudit }

end DataDebtCleanupService

/-! ## What a decision leaves alone -/

/-- The text, its version and its index status are the same. -/
structure Document.SameText (document document' : Document) : Prop where
  content : document'.content = document.content
  contentHash : document'.contentHash = document.contentHash
  version : document'.version = document.version
  indexStatus : document'.indexStatus = document.indexStatus

@[simp] theorem Document.SameText.rfl {document : Document} : document.SameText document :=
  ⟨Eq.refl _, Eq.refl _, Eq.refl _, Eq.refl _⟩

/-- What `run` can do to the row: it keeps the text, and it leaves the final status alone only if
the model's fields do not pass their check. -/
theorem ReviewService.run_cases (rule : FilterDecision) (llm : LlmOutcome) (document : Document) :
    let document' := (run rule llm document).document
    document.SameText document' ∧
      ((rule = .reject ∧ document'.finalStatus = .rejected) ∨
        (rule ≠ .reject ∧ llm = .unavailable ∧ document'.finalStatus = .pendingLlm) ∨
        (rule ≠ .reject ∧ (∃ r e, llm = .reviewed r ∧
          validateExtractedFields (ruleReview rule document).current r = .error e) ∧
          document'.finalStatus = document.finalStatus) ∨
        (rule ≠ .reject ∧ ∃ r fields, llm = .reviewed r ∧
          validateExtractedFields (ruleReview rule document).current r = .ok fields ∧
          document'.finalStatus = llmFinalStatus rule r.decision)) := by
  intro document'
  -- The four endings of `run`, in its order.
  by_cases hrule : rule = .reject
  · have hrun : document' = { (ruleReview rule document).current with finalStatus := .rejected } :=
      by simp [document', run, hrule, Ending.document]
    rw [hrun]
    exact ⟨⟨rfl, rfl, rfl, rfl⟩, .inl ⟨hrule, rfl⟩⟩
  · cases llm with
    | unavailable =>
        have hrun : document' = { (ruleReview rule document).current with
            llmReviewStatus := .unavailable, finalStatus := .pendingLlm } := by
          simp [document', run, hrule, Ending.document]
        rw [hrun]
        exact ⟨⟨rfl, rfl, rfl, rfl⟩, .inr (.inl ⟨hrule, rfl, rfl⟩)⟩
    | reviewed r =>
        cases hval : validateExtractedFields (ruleReview rule document).current r with
        | error e =>
            have hrun : document' = (ruleReview rule document).current := by
              simp [document', run, hrule, hval, Ending.document]
            rw [hrun]
            exact ⟨⟨rfl, rfl, rfl, rfl⟩, .inr (.inr (.inl ⟨hrule, ⟨r, e, rfl, hval⟩, rfl⟩))⟩
        | ok fields =>
            have hrun : document' = (llmReview rule r (ruleReview rule document)).current := by
              simp [document', run, hrule, hval, Ending.document]
            rw [hrun]
            exact ⟨⟨rfl, rfl, rfl, rfl⟩, .inr (.inr (.inr ⟨hrule, r, fields, rfl, hval, rfl⟩))⟩

/-- A review arrives at a reviewer's decision, or leaves the final status alone because the model's
fields do not pass their check. -/
def ReviewService.Agrees (rule : FilterDecision) (llm : LlmOutcome) (document : Document) :
    ManualDecision → Prop
  | .approve => rule ≠ .reject ∧ ∃ r, llm = .reviewed r ∧
      ((∃ e, validateExtractedFields document r = .error e) ∨
        (r.decision = .approve ∧ rule ≠ .review))
  | .reject => rule = .reject ∨ ∃ r, llm = .reviewed r ∧
      ((∃ e, validateExtractedFields document r = .error e) ∨ r.decision = .reject)

/-- A review keeps the final status of a reviewer's decision exactly if it agrees with it. -/
theorem ReviewService.finalStatus_run_iff {rule : FilterDecision} {llm : LlmOutcome}
    {document : Document} {decision : ManualDecision}
    (hdecided : document.finalStatus = decision.finalStatus) :
    (run rule llm document).document.finalStatus = decision.finalStatus ↔
      Agrees rule llm document decision := by
  rcases (run_cases rule llm document).2 with ⟨hrule, hfinal⟩ | ⟨hrule, hllm, hfinal⟩ |
    ⟨hrule, ⟨r, e, hllm, hinvalid⟩, hfinal⟩ | ⟨hrule, r, fields, hllm, hvalid, hfinal⟩
  · rw [hfinal]
    cases decision <;> simp [Agrees, hrule, ManualDecision.finalStatus]
  · rw [hfinal]
    cases decision <;> simp [Agrees, hrule, hllm, ManualDecision.finalStatus]
  · rw [hfinal]
    refine iff_of_true hdecided ?_
    cases decision with
    | approve => exact ⟨hrule, r, hllm, .inl ⟨e, hinvalid⟩⟩
    | reject => exact .inr ⟨r, hllm, .inl ⟨e, hinvalid⟩⟩
  · -- The fields pass, so both decisions count.
    have hfields : ∀ e, validateExtractedFields document r ≠ .error e := by
      intro e herror
      have hok : validateExtractedFields document r = .ok fields := hvalid
      rw [hok] at herror
      cases herror
    rw [hfinal]
    cases decision with
    | approve =>
        rw [ManualDecision.finalStatus, llmFinalStatus_eq_approved]
        simp [Agrees, hrule, hllm, hfields]
    | reject =>
        rw [ManualDecision.finalStatus, llmFinalStatus_eq_rejected]
        simp [Agrees, hrule, hllm, hfields]

/-- A review keeps the id of the document. -/
@[simp] theorem ReviewService.run_documentId (rule : FilterDecision) (llm : LlmOutcome)
    (document : Document) : (run rule llm document).document.documentId = document.documentId := by
  unfold run
  dsimp only
  split
  · rfl
  · split
    · rfl
    · split <;> rfl

/-- The cleanup keeps the text, and rejects the document or keeps its final status. -/
theorem DataDebtCleanupService.run_cases (hardMinimumChars : ℕ) (hasAttachments : Bool)
    (document : Document) :
    let document' := run hardMinimumChars hasAttachments document
    document.SameText document' ∧
      (if rejects hardMinimumChars hasAttachments document then document'.finalStatus = .rejected
        else document'.finalStatus = document.finalStatus) := by
  intro document'
  cases hr : document.finalStatus.reviewable
  · have hrun : document' = document := by simp [document', run, hr]
    rw [hrun]
    simp [rejects, hr]
  · cases hu : undersized hardMinimumChars hasAttachments document
    · by_cases ha : hasReview document .dataDebtAudit
      · have hrun : document' = document := by simp [document', run, hr, hu, ha]
        rw [hrun]
        simp [rejects, hu]
      · have hrun : document' = document.addReview { reviewType := .dataDebtAudit } := by
          simp [document', run, hr, hu, ha]
        rw [hrun]
        exact ⟨⟨rfl, rfl, rfl, rfl⟩, by simp [rejects, hu]⟩
    · by_cases hh : hasReview document .dataDebtHardReject
      · have hrun : document' = document := by simp [document', run, hr, hu, hh]
        rw [hrun]
        simp [rejects, hh]
      · have hrejects : rejects hardMinimumChars hasAttachments document = true := by
          simp [rejects, hr, hu, hh]
        simp only [document', run, hr, hu, hh, hrejects, if_true, if_false, Bool.true_eq_false]
        exact ⟨⟨rfl, rfl, rfl, rfl⟩, rfl⟩

end Odirag.Documents
