import Mathlib.Data.Char
import Mathlib.Data.Finset.Sort
import Mathlib.Data.List.Lex
import Odirag.Evaluation.Metrics
import Odirag.Foundations.Json

/-!
# Running an evaluation and writing its report

Reference: `backend/app/evaluation/runner.py`, the JSON report of
`backend/app/evaluation/reports.py`.

The two callbacks are arbitrary and have a state of their own; either may raise at any question.
Latencies, tokens, costs and scores are left out, and so are the filters and the measures that a
report repeats. Traces and metadata are what `_json_safe` makes of them, and a report that was
written and read again is the value that was written.
-/

namespace Odirag.Evaluation

open Json (Fields)

/-- `EvaluationCase`. -/
structure EvaluationCase where
  questionId : Text
  question : Text
  expectedDocumentIds : Finset Text := ∅
  expectedChunkIds : Finset Text := ∅
  expectedAnswerPoints : Finset Text := ∅
  expectedCitationIds : Finset Text := ∅
  shouldRefuse : Bool := false
  difficulty : Option Text := none
  category : Option Text := none

/-- `RetrievedItem`. -/
structure RetrievedItem where
  documentId : Text
  chunkId : Text

/-- `RetrievalResult`. -/
structure RetrievalResult where
  items : List RetrievedItem := []
  trace : Fields := []

/-- `ChatResult`. -/
structure ChatResult where
  answer : Text
  citedChunkIds : Finset Text := ∅
  citedDocumentIds : Finset Text := ∅
  coveredAnswerPoints : Finset Text := ∅
  refused : Bool := false
  claimCount : ℕ := 0
  hallucinatedClaims : ℕ := 0
  metadata : Fields := []
  groundingValidated : Option Bool := none

/-- An exception of a callback. -/
structure CallbackError where
  className : Text
  message : Text

/-- The two callbacks, over the state they keep between questions. -/
structure Callbacks (σ : Type) where
  retrieval : EvaluationCase → σ → Except CallbackError RetrievalResult × σ
  chat : EvaluationCase → RetrievalResult → σ → Except CallbackError ChatResult × σ

/-- `EvaluationQuestionResult`. -/
structure EvaluationQuestionResult where
  case : EvaluationCase
  sample : EvaluationSample
  metrics : EvaluationSampleMetrics
  retrieval : Option RetrievalResult
  chat : Option ChatResult
  errorStage : Option Text := none
  error : Option Text := none

/-- `EvaluationRunResult`. -/
structure EvaluationRunResult where
  runName : Text
  aggregate : EvaluationAggregate
  questions : List EvaluationQuestionResult

/-- `_sample`. -/
def makeSample (case : EvaluationCase) (retrieval : Option RetrievalResult)
    (chat : Option ChatResult) (evaluationFailed : Bool) : EvaluationSample :=
  let items := (retrieval.map (·.items)).getD []
  { retrievedIds := (items.map (·.chunkId)).filter (· ≠ [])
    relevantIds := case.expectedChunkIds
    expectedAnswerPoints := case.expectedAnswerPoints
    coveredAnswerPoints := (chat.map (·.coveredAnswerPoints)).getD ∅
    expectedCitationIds :=
      if case.expectedCitationIds = ∅ then case.expectedChunkIds else case.expectedCitationIds
    citedIds := (chat.map (·.citedChunkIds)).getD ∅
    shouldRefuse := case.shouldRefuse
    refused := (chat.map (·.refused)).getD false
    hallucinatedClaims := (chat.map (·.hallucinatedClaims)).getD 0
    claimCount := (chat.map (·.claimCount)).getD 0
    retrievedDocumentIds := firsts ((items.map (·.documentId)).filter (· ≠ []))
    relevantDocumentIds := case.expectedDocumentIds
    citedDocumentIds := (chat.map (·.citedDocumentIds)).getD ∅
    groundingValidated := chat.bind (·.groundingValidated)
    evaluationFailed := evaluationFailed }

/-- The text of an exception in a report. -/
def CallbackError.describe (error : CallbackError) : Text :=
  error.className ++ str ": " ++ error.message

/-- The result of a question after both callbacks. -/
def questionResult (case : EvaluationCase) (retrieval : Option RetrievalResult)
    (chat : Option ChatResult) (failure : Option (Text × CallbackError)) :
    EvaluationQuestionResult :=
  let sample := makeSample case retrieval chat failure.isSome
  { case := case
    sample := sample
    metrics := evaluateSample sample
    retrieval := retrieval
    chat := chat
    errorStage := failure.map Prod.fst
    error := failure.map fun failed => failed.2.describe }

variable {σ : Type}

/-- `_run_case`; with `fail_fast` an exception goes through. -/
def runCase (callbacks : Callbacks σ) (failFast : Bool) (case : EvaluationCase) (s : σ) :
    Except CallbackError EvaluationQuestionResult × σ :=
  match callbacks.retrieval case s with
  | (.error error, s) =>
      if failFast then (.error error, s)
      else (.ok (questionResult case none none (some (str "retrieval", error))), s)
  | (.ok retrieval, s) =>
      match callbacks.chat case retrieval s with
      | (.error error, s) =>
          if failFast then (.error error, s)
          else (.ok (questionResult case (some retrieval) none (some (str "chat", error))), s)
      | (.ok chat, s) => (.ok (questionResult case (some retrieval) (some chat) none), s)

/-- The loop of `run` over the cases. -/
def runCases (callbacks : Callbacks σ) (failFast : Bool) :
    List EvaluationCase → σ → Except CallbackError (List EvaluationQuestionResult)
  | [], _ => .ok []
  | case :: cases, s =>
      match runCase callbacks failFast case s with
      | (.error error, _) => .error error
      | (.ok result, s) => (runCases callbacks failFast cases s).map (result :: ·)

/-- `run`. -/
def run (callbacks : Callbacks σ) (failFast : Bool) (cases : List EvaluationCase)
    (runName : Text) (s : σ) : Except CallbackError EvaluationRunResult :=
  (runCases callbacks failFast cases s).map fun results =>
    { runName := runName
      aggregate := evaluateSamples (results.map (·.sample))
      questions := results }

/-! ## The report -/

/-- A list of texts. -/
def texts (items : List Text) : Json := .arr (items.map .str)

/-- `sorted` of a set of texts; texts are compared by their code points. -/
def sorted (items : Finset Text) : Json := texts (items.sort (· ≤ ·))

/-- A text that may be missing. -/
def optionalText (value : Option Text) : Json := (value.map .str).getD .null

/-- `_question_payload`. -/
def questionPayload (result : EvaluationQuestionResult) : Json :=
  .obj
    [(str "question_id", .str result.case.questionId),
     (str "question", .str result.case.question),
     (str "difficulty", optionalText result.case.difficulty),
     (str "category", optionalText result.case.category),
     (str "expected_document_ids", sorted result.case.expectedDocumentIds),
     (str "expected_chunk_ids", sorted result.case.expectedChunkIds),
     (str "expected_answer_points", sorted result.case.expectedAnswerPoints),
     (str "expected_citation_ids", sorted result.sample.expectedCitationIds),
     (str "should_refuse", .bool result.case.shouldRefuse),
     (str "retrieved_document_ids", texts result.sample.retrievedDocumentIds),
     (str "retrieved_chunk_ids", texts result.sample.retrievedIds),
     (str "covered_answer_points", sorted result.sample.coveredAnswerPoints),
     (str "cited_chunk_ids", sorted result.sample.citedIds),
     (str "cited_document_ids", sorted result.sample.citedDocumentIds),
     (str "refused", .bool result.sample.refused),
     (str "answer", optionalText (result.chat.map (·.answer))),
     (str "claim_count", .int result.sample.claimCount),
     (str "hallucinated_claims", .int result.sample.hallucinatedClaims),
     (str "retrieval_trace", (result.retrieval.map fun r => .obj r.trace).getD .null),
     (str "chat_metadata", (result.chat.map fun c => .obj c.metadata).getD .null),
     (str "error_stage", optionalText result.errorStage),
     (str "error", optionalText result.error),
     (str "evaluation_failed", .bool result.sample.evaluationFailed)]

/-- `_run_payload`. -/
def runPayload (result : EvaluationRunResult) : Fields :=
  [(str "run_name", .str result.runName),
   (str "questions", .arr (result.questions.map questionPayload))]

/-! ## What a run gives -/

/-- A question result as the runner makes it: the sample repeats the case and the answer, and it
counts as failed exactly when there is an error text, which is never empty. -/
structure WellFormed (result : EvaluationQuestionResult) : Prop where
  shouldRefuse_eq : result.case.shouldRefuse = result.sample.shouldRefuse
  failed_iff : result.sample.evaluationFailed = (optionalText result.error).truthy

theorem describe_ne_nil (error : CallbackError) : error.describe ≠ [] := by
  simp [CallbackError.describe, str]

theorem wellFormed_questionResult (case : EvaluationCase) (retrieval : Option RetrievalResult)
    (chat : Option ChatResult) (failure : Option (Text × CallbackError)) :
    WellFormed (questionResult case retrieval chat failure) := by
  refine ⟨rfl, ?_⟩
  cases failure with
  | none => rfl
  | some failed =>
      have htext := (Json.truthy_str_iff _).mpr (describe_ne_nil failed.2)
      exact htext.symm

theorem wellFormed_runCase {callbacks : Callbacks σ} {failFast : Bool} {case : EvaluationCase}
    {s s' : σ} {result : EvaluationQuestionResult}
    (h : runCase callbacks failFast case s = (.ok result, s')) : WellFormed result := by
  unfold runCase at h
  split at h
  · split at h
    · cases h
    · cases h
      exact wellFormed_questionResult ..
  · split at h
    · split at h
      · cases h
      · cases h
        exact wellFormed_questionResult ..
    · cases h
      exact wellFormed_questionResult ..

theorem wellFormed_runCases {callbacks : Callbacks σ} {failFast : Bool}
    {cases : List EvaluationCase} {s : σ} {results : List EvaluationQuestionResult}
    (h : runCases callbacks failFast cases s = .ok results) :
    ∀ result ∈ results, WellFormed result := by
  induction cases generalizing s results with
  | nil =>
      cases h
      simp
  | cons case cases ih =>
      unfold runCases at h
      split at h
      · cases h
      · next result s' hcase =>
          cases hrest : runCases callbacks failFast cases s' with
          | error error => simp [hrest, Except.map] at h
          | ok rest =>
              simp only [hrest, Except.map, Except.ok.injEq] at h
              subst h
              intro r hr
              rcases List.mem_cons.mp hr with rfl | hr
              · exact wellFormed_runCase hcase
              · exact ih hrest r hr

/-- Every question of a run has a case with the same flags as its sample, and the aggregate is that
of the samples. -/
theorem run_ok {callbacks : Callbacks σ} {failFast : Bool} {cases : List EvaluationCase}
    {runName : Text} {s : σ} {result : EvaluationRunResult}
    (h : run callbacks failFast cases runName s = .ok result) :
    (∀ question ∈ result.questions, WellFormed question) ∧
      result.aggregate = evaluateSamples (result.questions.map (·.sample)) := by
  unfold run at h
  cases hcases : runCases callbacks failFast cases s with
  | error error => simp [hcases, Except.map] at h
  | ok results =>
      simp only [hcases, Except.map, Except.ok.injEq] at h
      subst h
      exact ⟨wellFormed_runCases hcases, rfl⟩

/-- Without `fail_fast` every run gives a result. -/
theorem run_returns (callbacks : Callbacks σ) (cases : List EvaluationCase) (runName : Text)
    (s : σ) : ∃ result, run callbacks false cases runName s = .ok result := by
  have hcase : ∀ case s, ∃ result s', runCase callbacks false case s = (.ok result, s') := by
    intro case s
    unfold runCase
    split
    · exact ⟨_, _, rfl⟩
    · split <;> exact ⟨_, _, rfl⟩
  have hcases : ∀ s, ∃ results, runCases callbacks false cases s = .ok results := by
    induction cases with
    | nil => exact fun _ => ⟨[], rfl⟩
    | cons case cases ih =>
        intro s
        obtain ⟨result, s', hresult⟩ := hcase case s
        obtain ⟨results, hresults⟩ := ih s'
        exact ⟨result :: results, by simp [runCases, hresult, hresults, Except.map]⟩
  obtain ⟨results, hresults⟩ := hcases s
  exact ⟨_, by rw [run, hresults]; rfl⟩

end Odirag.Evaluation
