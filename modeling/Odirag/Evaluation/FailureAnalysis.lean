import Odirag.Documents.Document
import Odirag.Evaluation.Runner
import Odirag.Foundations.Except

/-!
# The failure analysis of a report

Reference: `backend/app/evaluation/failure_analysis.py`.

Each question of a written report is joined to its stage trace and to the Gold dataset, gets a
root cause, and the refusal metrics are counted again from the result. Reading a value of the
wrong shape raises. The metric failures, the answer status, the retention funnel and the citation
audit are left out. Whatever the traces say, only a question with an error gets the cause of an
error, so the report counts the same decisions as the run (`refusal_metrics_agree`).
-/

namespace Odirag.Evaluation

open Json (Fields get mapping)

/-- What reading a value can raise. -/
inductive AnalysisError
  | typeError
  | keyError
deriving DecidableEq, Repr

/-- `root_cause_category`. -/
inductive RootCause
  | noFailure
  | correctRefusal
  | other
  | evaluationError
  | retrievalMiss
  | rerankDroppedRequiredEvidence
  | contextPackingDroppedEvidence
  | evidenceGateFalseNegative
  | postAnswerValidationUnresolved
  | incorrectRefusal
  | citationExpectationMismatch
  | citationMappingError
  | multiChunkCitationIncomplete
deriving DecidableEq, Repr

/-! ## Reading values -/

section

variable (render : Json → Text)

/-- `_hit_ids`: a text or an object is iterated too, but has no mapping in it. -/
def hitIds (value : Json) : Except AnalysisError (List Text) :=
  match value.orElse (.arr []) with
  | .arr items => .ok (items.filterMap fun item =>
      let chunkId := get (mapping item) (str "chunk_id")
      if chunkId.truthy then some (chunkId.toText render) else none)
  | .str _ | .obj _ => .ok []
  | _ => .error .typeError

/-- `_strings`. -/
def strings (value : Json) : Except AnalysisError (List Text) :=
  match value with
  | .null => .ok []
  | .str s => .ok (if s = [] then [] else [s])
  | .arr items =>
      .ok (((items.filter fun item => !item.isNull).map (·.toText render)).filter (· ≠ []))
  | .obj fields => .ok ((fields.map Prod.fst).filter (· ≠ []))
  | _ => .error .typeError

end

/-- `_overlap`. -/
def overlap (expected actual : List Text) : Bool :=
  expected = [] || expected.any fun item => decide (item ∈ actual)

/-- `_contains_all`. -/
def containsAll (actual expected : List Text) : Bool :=
  expected.all fun item => decide (item ∈ actual)

/-! ## One question -/

/-- What `_root_cause` looks at. -/
structure RootCauseInput where
  shouldRefuse : Bool
  refused : Bool
  refusalReasons : List Text
  expectedChunks : List Text
  expectedDocuments : List Text
  citedChunks : List Text
  citedDocuments : List Text
  retrievalChunks : List Text
  rerankedChunks : List Text
  finalContextChunks : List Text
  selectedChunks : List Text
  evidence : Fields
  rerankApplied : Bool
  answerPresent : Bool

/-- `_root_cause`. -/
def rootCause (render : Json → Text) (c : RootCauseInput) : RootCause × Text :=
  if c.shouldRefuse then
    if c.refused then
      (.correctRefusal, str "Gold refusal was preserved with no emitted answer.")
    else (.other, str "Gold refusal case emitted an answer.")
  else if !overlap c.expectedChunks c.retrievalChunks then
    (.retrievalMiss, str "No expected Gold chunk was present before rerank.")
  else if c.rerankApplied && overlap c.expectedChunks c.retrievalChunks
      && !overlap c.expectedChunks c.rerankedChunks then
    (.rerankDroppedRequiredEvidence,
      str "Expected Gold evidence was present before rerank and absent afterward.")
  else if !overlap c.expectedChunks c.finalContextChunks then
    (.contextPackingDroppedEvidence,
      str "Expected Gold evidence was absent from the final retrieval context.")
  else if (get c.evidence (str "sufficient")).isBool false then
    (.evidenceGateFalseNegative,
      ((get c.evidence (str "reason")).orElse
        (.str (str "evidence gate rejected a Gold-supported case"))).toText render)
  else if c.refused then
    if c.refusalReasons.any fun reason =>
        (str "answer_").isPrefixOf reason || reason == str "citations_do_not_cover_query" then
      (.postAnswerValidationUnresolved,
        let joined := List.intercalate (str "|") c.refusalReasons
        if joined = [] then str "post-answer validation rejected the generated output" else joined)
    else (.incorrectRefusal, str "Gold-supported case was refused after evidence passed.")
  else if !c.answerPresent then
    (.incorrectRefusal, str "Gold-supported case has no answer payload.")
  else if c.citedChunks ≠ [] ∧ !overlap c.expectedChunks c.citedChunks then
    if overlap c.expectedDocuments c.citedDocuments then
      (.citationExpectationMismatch,
        str "Emitted citations passed safety validation and cite an expected document, " ++
          str "but do not overlap the exact Gold seed chunks.")
    else (.citationMappingError, str "Emitted citations miss Gold chunks and documents.")
  else if c.expectedChunks ≠ [] ∧ !containsAll c.citedChunks c.expectedChunks then
    (.multiChunkCitationIncomplete, str "Only part of the exact Gold chunk set was cited.")
  else if c.selectedChunks ≠ [] ∧ c.citedChunks = [] then
    (.citationMappingError, str "Selected evidence produced no final citation.")
  else (.noFailure, str "No failure under the current exact Gold contract.")

/-- `relation_validation_result`. -/
structure RelationResult where
  stage : Text
  status : Text
  reason : Json
  confidence : Json := .null
  unsupportedAspects : List Text := []

/-- `_relation_result`. -/
def relationResult (render : Json → Text) (evidence answerValidation : Fields)
    (refusalReasons : List Text) : Except AnalysisError RelationResult :=
  if (get evidence (str "reason")).isText (str "evidence_missing_required_relation") then
    .ok
      { stage := str "pre_answer_evidence_gate"
        status := str "rejected"
        reason := get evidence (str "reason") }
  else if str "answer_contains_unsupported_relation" ∈ refusalReasons then do
    let unsupported ← strings render (get answerValidation (str "unsupported_aspects"))
    return {
      stage := str "post_answer_validation"
      status := str "rejected"
      reason := (get answerValidation (str "reason")).orElse
        (.str (str "answer_contains_unsupported_relation"))
      confidence := get answerValidation (str "confidence")
      unsupportedAspects := unsupported }
  else
    .ok
      { stage := str "not_triggered"
        status := str "passed_or_not_applicable"
        reason := .null }

/-- A row of `cases`. -/
structure CaseAnalysis where
  id : Json
  category : Json
  shouldRefuse : Bool
  expectedAnswer : Json
  expectedDocumentIds : List Text
  expectedChunkIds : List Text
  retrievalChunks : List Text
  rerankedChunks : List Text
  effectivePostRerankChunks : List Text
  finalContextChunks : List Text
  selectedEvidenceChunks : List Text
  finalCitedChunkIds : List Text
  generatedCitedChunkIds : List Text
  finalCitedDocumentIds : List Text
  refusal : Bool
  refusalReason : List Text
  relationValidation : RelationResult
  answerPresent : Bool
  rootCauseCategory : RootCause
  rootCauseDetail : Text

/-- The stage traces by their id; no fields where there is no trace. -/
abbrev Traces := Text → Fields

/-- `_case_analysis`. -/
def caseAnalysis (render : Json → Text) (traces : Traces) (case gold : Fields) :
    Except AnalysisError CaseAnalysis := do
  let traceId :=
    ((get (mapping (get case (str "retrieval_trace"))) (str "trace_id")).orElse (.str [])).toText
      render
  let trace := traces traceId
  let evidence := mapping (get trace (str "evidence_decision"))
  let answerValidation := mapping (get evidence (str "answer_validation_decision"))
  let rerankMetadata := mapping (get trace (str "rerank_metadata"))
  let expectedChunks ← strings render (get case (str "expected_chunk_ids"))
  let expectedDocuments ← strings render (get case (str "expected_document_ids"))
  let fusionChunks ← hitIds render (get trace (str "fusion_results"))
  let reportedChunks ← strings render (get case (str "retrieved_chunk_ids"))
  let retrievalChunks := if fusionChunks = [] then reportedChunks else fusionChunks
  let rerankedChunks ← hitIds render (get trace (str "rerank_results"))
  let contextChunks ← hitIds render (get trace (str "final_context"))
  let finalContextChunks := if contextChunks = [] then reportedChunks else contextChunks
  let rerankApplied := (get rerankMetadata (str "applied")).isBool true
  let effectiveRerankChunks := if rerankApplied then rerankedChunks else finalContextChunks
  let selectedChunks ← strings render
    ((get evidence (str "selected_context_chunk_ids")).orElse
      (get evidence (str "supported_chunk_ids")))
  let generatedCitedChunks ← strings render (get evidence (str "generated_cited_chunk_ids"))
  let citedChunks ← strings render (get case (str "cited_chunk_ids"))
  let citedDocuments ← strings render (get case (str "cited_document_ids"))
  let shouldRefuse := (get case (str "should_refuse")).truthy
  let refused := (get case (str "refused")).truthy
  let refusalReasons ← strings render
    (get (mapping (get case (str "chat_metadata"))) (str "refusal_reasons"))
  let answer := ((get case (str "answer")).orElse (.str [])).toText render
  let answerPresent := Text.stripBy Documents.isSpace answer ≠ [] && !refused
  let error := get case (str "error")
  let cause :=
    if error.truthy then (.evaluationError, error.toText render)
    else
      rootCause render
        { shouldRefuse := shouldRefuse
          refused := refused
          refusalReasons := refusalReasons
          expectedChunks := expectedChunks
          expectedDocuments := expectedDocuments
          citedChunks := citedChunks
          citedDocuments := citedDocuments
          retrievalChunks := retrievalChunks
          rerankedChunks := effectiveRerankChunks
          finalContextChunks := finalContextChunks
          selectedChunks := selectedChunks
          evidence := evidence
          rerankApplied := rerankApplied
          answerPresent := answerPresent }
  let relation ← relationResult render evidence answerValidation refusalReasons
  return {
    id := get case (str "question_id")
    category := get case (str "category")
    shouldRefuse := shouldRefuse
    expectedAnswer := get gold (str "expected_answer")
    expectedDocumentIds := expectedDocuments
    expectedChunkIds := expectedChunks
    retrievalChunks := retrievalChunks
    rerankedChunks := rerankedChunks
    effectivePostRerankChunks := effectiveRerankChunks
    finalContextChunks := finalContextChunks
    selectedEvidenceChunks := selectedChunks
    finalCitedChunkIds := citedChunks
    generatedCitedChunkIds := generatedCitedChunks
    finalCitedDocumentIds := citedDocuments
    refusal := refused
    refusalReason := refusalReasons
    relationValidation := relation
    answerPresent := answerPresent
    rootCauseCategory := cause.1
    rootCauseDetail := cause.2 }

/-! ## A report -/

/-- `_refusal_metrics`. -/
def refusalMetrics (cases : List CaseAnalysis) : RefusalMetrics :=
  let assessed := cases.filter fun item => item.rootCauseCategory ≠ .evaluationError
  let goldAnswerPredAnswer := assessed.countP fun item => !item.shouldRefuse && !item.refusal
  let goldAnswerPredRefuse := assessed.countP fun item => !item.shouldRefuse && item.refusal
  let goldRefusePredAnswer := assessed.countP fun item => item.shouldRefuse && !item.refusal
  let goldRefusePredRefuse := assessed.countP fun item => item.shouldRefuse && item.refusal
  let predictedRefusals := goldAnswerPredRefuse + goldRefusePredRefuse
  let goldRefusals := goldRefusePredAnswer + goldRefusePredRefuse
  let goldAnswers := goldAnswerPredAnswer + goldAnswerPredRefuse
  let correct := goldAnswerPredAnswer + goldRefusePredRefuse
  { refusalPrecision := ratio goldRefusePredRefuse predictedRefusals
    refusalRecall := ratio goldRefusePredRefuse goldRefusals
    refusalAccuracy := ratio correct assessed.length
    supportedAnswerRecall := ratio goldAnswerPredAnswer goldAnswers
    evaluationErrorCount := cases.length - assessed.length
    qualityAssessedQuestions := assessed.length }

/-- What `build_failure_analysis` returns. -/
structure FailureAnalysis where
  runName : Json
  questionCount : ℕ
  refusalConfusionMatrix : RefusalMetrics
  cases : List CaseAnalysis

/-- The questions of the Gold dataset by their id; of two with one id the later one counts. -/
def goldById (render : Json → Text) :
    List Fields → Except AnalysisError (List (Text × Fields))
  | [] => .ok []
  | item :: items => do
      let rest ← goldById render items
      match item.find? (fun field => field.1 == str "question_id") with
      | none => .error .keyError
      | some (_, id) => .ok (rest ++ [(id.toText render, item)])

/-- The items of a list; the elements of the other values that can be iterated are no mappings, and
a report has none of those. -/
def questions (evaluation : Fields) : List Fields :=
  match get evaluation (str "questions") with
  | .arr items => items.map mapping
  | _ => []

/-- `build_failure_analysis`. -/
def buildFailureAnalysis (render : Json → Text) (evaluation : Fields) (goldDataset : List Fields)
    (traces : Traces) : Except AnalysisError FailureAnalysis := do
  let gold ← goldById render goldDataset
  let cases ← (questions evaluation).mapM fun item =>
    let id := (get item (str "question_id")).toText render
    caseAnalysis render traces item (((gold.find? (·.1 == id)).map Prod.snd).getD [])
  return {
    runName := get evaluation (str "run_name")
    questionCount := cases.length
    refusalConfusionMatrix := refusalMetrics cases
    cases := cases }

/-! ## Agreement with the run -/

theorem fst_ite_ne {α β : Type} {p : Prop} [Decidable p] {x y : α × β} {a : α} (hx : x.1 ≠ a)
    (hy : y.1 ≠ a) : (if p then x else y).1 ≠ a := by
  split
  · exact hx
  · exact hy

theorem rootCause_ne_evaluationError (render : Json → Text) (c : RootCauseInput) :
    (rootCause render c).1 ≠ .evaluationError := by
  unfold rootCause
  repeat' apply fst_ite_ne
  all_goals exact RootCause.noConfusion

/-- The traces have no say in the flags of a row, nor in whether it is a row of an error. -/
theorem caseAnalysis_ok {render : Json → Text} {traces : Traces} {case gold : Fields}
    {row : CaseAnalysis} (h : caseAnalysis render traces case gold = .ok row) :
    row.shouldRefuse = (get case (str "should_refuse")).truthy ∧
      row.refusal = (get case (str "refused")).truthy ∧
      (row.rootCauseCategory = .evaluationError ↔ (get case (str "error")).truthy) := by
  unfold caseAnalysis at h
  simp only [bind_eq_ok] at h
  obtain ⟨_, -, _, -, _, -, _, -, _, -, _, -, _, -, _, -, _, -, _, -, _, -, _, -, hrow⟩ := h
  cases hrow
  refine ⟨rfl, rfl, ?_⟩
  generalize get case (str "error") = error
  cases herror : error.truthy with
  | true => exact iff_of_true rfl rfl
  | false => exact iff_of_false (rootCause_ne_evaluationError _ _) nofun

/-- What a row says about its question: what was expected, what happened, and whether it failed. -/
def CaseAnalysis.outcome (row : CaseAnalysis) : (Bool × Bool) × Bool :=
  ((row.shouldRefuse, row.refusal), row.rootCauseCategory = .evaluationError)

/-- The same of a sample. -/
def EvaluationSample.outcome (sample : EvaluationSample) : (Bool × Bool) × Bool :=
  (sample.decision, sample.evaluationFailed)

/-- A row of a question of a run says what its sample says. -/
theorem outcome_caseAnalysis {render : Json → Text} {traces : Traces} {gold : Fields}
    {question : EvaluationQuestionResult} {row : CaseAnalysis} (hq : WellFormed question)
    (h : caseAnalysis render traces (mapping (questionPayload question)) gold = .ok row) :
    row.outcome = question.sample.outcome := by
  obtain ⟨hshould, hrefused, herror⟩ := caseAnalysis_ok h
  have hpayload :
      get (mapping (questionPayload question)) (str "should_refuse")
          = .bool question.case.shouldRefuse ∧
        get (mapping (questionPayload question)) (str "refused")
          = .bool question.sample.refused ∧
        get (mapping (questionPayload question)) (str "error") = optionalText question.error :=
    ⟨rfl, rfl, rfl⟩
  rw [hpayload.1, Json.truthy_bool, hq.shouldRefuse_eq] at hshould
  rw [hpayload.2.1, Json.truthy_bool] at hrefused
  rw [hpayload.2.2, ← hq.failed_iff] at herror
  unfold CaseAnalysis.outcome EvaluationSample.outcome EvaluationSample.decision
  rw [hshould, hrefused, Bool.decide_congr herror, Bool.decide_eq_true]

theorem questions_runPayload (result : EvaluationRunResult) :
    questions (runPayload result)
      = result.questions.map fun q => mapping (questionPayload q) := by
  rw [← Function.comp_def, ← List.map_map]
  rfl

/-- The rows of the questions of a run say what the samples say. -/
theorem map_outcome_mapM {render : Json → Text} {traces : Traces} {goldOf : Fields → Fields}
    {questions : List EvaluationQuestionResult} {rows : List CaseAnalysis}
    (hq : ∀ question ∈ questions, WellFormed question)
    (h : (questions.map fun q => mapping (questionPayload q)).mapM
      (fun item => caseAnalysis render traces item (goldOf item)) = .ok rows) :
    rows.map (·.outcome) = questions.map (·.sample.outcome) := by
  induction questions generalizing rows with
  | nil =>
      cases h
      rfl
  | cons question questions ih =>
      rw [List.map_cons, List.mapM_cons] at h
      simp only [bind_eq_ok] at h
      obtain ⟨row, hrow, rest, hrest, hrows⟩ := h
      cases hrows
      rw [List.map_cons, List.map_cons, outcome_caseAnalysis (hq question List.mem_cons_self) hrow,
        ih (fun q hmem => hq q (List.mem_cons_of_mem _ hmem)) hrest]

/-- The refusal metrics of a report are those of the matrix of the rows without an error. -/
theorem refusalMetrics_eq (rows : List CaseAnalysis) :
    refusalMetrics rows
      = .ofConfusion
          (Confusion.tally (((rows.map (·.outcome)).filter fun o => !o.2).map Prod.fst))
          ((rows.map (·.outcome)).countP (·.2)) := by
  have hassessed : ((rows.map (·.outcome)).filter fun o => !o.2).map Prod.fst
      = (rows.filter fun row => row.rootCauseCategory ≠ .evaluationError).map
          fun row => (row.shouldRefuse, row.refusal) := by
    rw [List.filter_map, List.map_map]
    congr 1
    exact List.filter_congr fun row _ => (decide_not ..).symm
  have herrors : (rows.map (·.outcome)).countP (·.2)
      = rows.length
        - (rows.filter fun row => row.rootCauseCategory ≠ .evaluationError).length := by
    rw [List.countP_map, ← List.countP_eq_length_filter]
    have hsplit := rows.length_eq_countP_add_countP
      (fun row => decide (row.rootCauseCategory = .evaluationError))
    simp only [decide_eq_true_eq, ne_eq, Function.comp_def, CaseAnalysis.outcome] at hsplit ⊢
    omega
  rw [hassessed, herrors]
  unfold refusalMetrics RefusalMetrics.ofConfusion
  rw [← Confusion.length_eq_total, List.length_map]
  unfold Confusion.tally Confusion.predicted Confusion.expected Confusion.notExpected
    Confusion.correct
  simp only [List.countP_map]
  rfl

theorem evaluateSamples_refusal_outcome (samples : List EvaluationSample) :
    (evaluateSamples samples).refusal
      = .ofConfusion
          (Confusion.tally (((samples.map (·.outcome)).filter fun o => !o.2).map Prod.fst))
          ((samples.map (·.outcome)).countP (·.2)) := by
  rw [evaluateSamples_refusal, List.filter_map, List.map_map, List.countP_map]
  rfl

/-! ### The analysis returns -/

section

variable {render : Json → Text}

theorem strings_returns {value : Json} (h : value.iterable) :
    ∃ items, strings render value = .ok items := by
  cases value with
  | null | str | arr | obj => exact ⟨_, rfl⟩
  | bool | int | float => cases h

theorem hitIds_returns {value : Json} (h : value.iterable) :
    ∃ items, hitIds render value = .ok items := by
  unfold hitIds
  have horElse := Json.iterable_orElse h (show (Json.arr []).iterable from rfl)
  cases hvalue : value.orElse (.arr []) with
  | str | arr | obj => exact ⟨_, rfl⟩
  | null | bool | int | float =>
      -- Nothing that is not true is left.
      rw [hvalue] at horElse
      unfold Json.orElse at hvalue
      split at hvalue
      · subst hvalue
        contradiction
      · cases hvalue

/-- A stage trace that can be read: what is looped over can be. -/
structure Readable (trace : Fields) : Prop where
  fusion : (get trace (str "fusion_results")).iterable
  rerank : (get trace (str "rerank_results")).iterable
  context : (get trace (str "final_context")).iterable
  selected : (get (mapping (get trace (str "evidence_decision")))
    (str "selected_context_chunk_ids")).iterable
  supported : (get (mapping (get trace (str "evidence_decision")))
    (str "supported_chunk_ids")).iterable
  generated : (get (mapping (get trace (str "evidence_decision")))
    (str "generated_cited_chunk_ids")).iterable
  unsupported : (get (mapping (get (mapping (get trace (str "evidence_decision")))
    (str "answer_validation_decision"))) (str "unsupported_aspects")).iterable

theorem relationResult_returns {evidence answerValidation : Fields} (reasons : List Text)
    (h : (get answerValidation (str "unsupported_aspects")).iterable) :
    ∃ relation, relationResult render evidence answerValidation reasons = .ok relation := by
  obtain ⟨items, hitems⟩ := @strings_returns render _ h
  unfold relationResult
  rw [hitems]
  split
  · exact ⟨_, rfl⟩
  · split <;> exact ⟨_, rfl⟩

/-- The reasons of an answer can be looped over. -/
def ReadableAnswer (question : EvaluationQuestionResult) : Prop :=
  ∀ chat, question.chat = some chat → (get chat.metadata (str "refusal_reasons")).iterable

theorem caseAnalysis_returns {traces : Traces} {gold : Fields}
    {question : EvaluationQuestionResult} (htraces : ∀ id, Readable (traces id))
    (hanswer : ReadableAnswer question) :
    ∃ row, caseAnalysis render traces (mapping (questionPayload question)) gold = .ok row := by
  have hmetadata : get (mapping (questionPayload question)) (str "chat_metadata")
      = (question.chat.map fun c => Json.obj c.metadata).getD .null := rfl
  have hreasons : (get (mapping (get (mapping (questionPayload question)) (str "chat_metadata")))
      (str "refusal_reasons")).iterable := by
    rw [hmetadata]
    cases hchat : question.chat with
    | none => rfl
    | some chat => exact hanswer chat hchat
  have htrace := htraces
    (((get (mapping (get (mapping (questionPayload question)) (str "retrieval_trace")))
      (str "trace_id")).orElse (.str [])).toText render)
  unfold caseAnalysis
  refine bind_returns (strings_returns rfl) fun _ => ?_
  refine bind_returns (strings_returns rfl) fun _ => ?_
  refine bind_returns (hitIds_returns htrace.fusion) fun _ => ?_
  refine bind_returns (strings_returns rfl) fun _ => ?_
  refine bind_returns (hitIds_returns htrace.rerank) fun _ => ?_
  refine bind_returns (hitIds_returns htrace.context) fun _ => ?_
  refine bind_returns (strings_returns (Json.iterable_orElse htrace.selected htrace.supported))
    fun _ => ?_
  refine bind_returns (strings_returns htrace.generated) fun _ => ?_
  refine bind_returns (strings_returns rfl) fun _ => ?_
  refine bind_returns (strings_returns rfl) fun _ => ?_
  refine bind_returns (strings_returns hreasons) fun _ => ?_
  refine bind_returns (relationResult_returns _ htrace.unsupported) fun _ => ?_
  exact ⟨_, rfl⟩

theorem goldById_returns {goldDataset : List Fields}
    (h : ∀ item ∈ goldDataset, ∃ id, (str "question_id", id) ∈ item) :
    ∃ gold, goldById render goldDataset = .ok gold := by
  induction goldDataset with
  | nil => exact ⟨[], rfl⟩
  | cons item items ih =>
      refine bind_returns (ih fun i hi => h i (List.mem_cons_of_mem _ hi)) fun rest => ?_
      obtain ⟨id, hid⟩ := h item List.mem_cons_self
      cases hfind : item.find? (fun field => field.1 == str "question_id") with
      | none => exact absurd (List.find?_eq_none.mp hfind _ hid) (by simp)
      | some field => exact ⟨_, rfl⟩

/-- With readable traces, readable reasons and a Gold dataset that names its questions, the report
of every run is analysed. -/
theorem buildFailureAnalysis_returns {goldDataset : List Fields} {traces : Traces}
    {result : EvaluationRunResult} (htraces : ∀ id, Readable (traces id))
    (hgold : ∀ item ∈ goldDataset, ∃ id, (str "question_id", id) ∈ item)
    (hanswers : ∀ question ∈ result.questions, ReadableAnswer question) :
    ∃ analysis, buildFailureAnalysis render (runPayload result) goldDataset traces
      = .ok analysis := by
  refine bind_returns (goldById_returns hgold) fun gold => ?_
  refine bind_returns ?_ fun rows => ⟨_, rfl⟩
  rw [questions_runPayload]
  generalize result.questions = items at hanswers
  induction items with
  | nil => exact ⟨[], rfl⟩
  | cons question items ih =>
      rw [List.map_cons, List.mapM_cons]
      refine bind_returns (caseAnalysis_returns htraces (hanswers _ List.mem_cons_self)) fun _ => ?_
      refine bind_returns (ih fun q hq => hanswers q (List.mem_cons_of_mem _ hq)) fun _ => ?_
      exact ⟨_, rfl⟩

end

/-- **The metrics agree.** The refusal metrics counted again from the written report of a run are
those of its aggregate, whatever the callbacks did, the traces hold and the Gold dataset says. -/
theorem refusal_metrics_agree {σ : Type} (callbacks : Callbacks σ) (failFast : Bool)
    (cases : List EvaluationCase) (runName : Text) (s : σ) (render : Json → Text)
    (goldDataset : List Fields) (traces : Traces) (result : EvaluationRunResult)
    (analysis : FailureAnalysis) (hrun : run callbacks failFast cases runName s = .ok result)
    (h : buildFailureAnalysis render (runPayload result) goldDataset traces = .ok analysis) :
    analysis.refusalConfusionMatrix = result.aggregate.refusal := by
  obtain ⟨hquestions, haggregate⟩ := run_ok hrun
  unfold buildFailureAnalysis at h
  simp only [bind_eq_ok] at h
  obtain ⟨gold, -, rows, hrows, hanalysis⟩ := h
  cases hanalysis
  rw [questions_runPayload] at hrows
  have houtcomes := map_outcome_mapM hquestions hrows
  rw [haggregate, evaluateSamples_refusal_outcome, List.map_map]
  simp only [refusalMetrics_eq, houtcomes]
  rfl

/-- A run of two questions: one is refused as it should be, the retrieval of the other one fails. -/
def refusalAndFailure : Callbacks ℕ where
  retrieval := fun _ asked =>
    if asked = 0 then (.ok {}, 1)
    else (.error { className := str "TimeoutError", message := [] }, asked)
  chat := fun _ _ asked => (.ok { answer := [], refused := true }, asked)

theorem refusal_metrics_agree_refusalAndFailure :
    ∃ result analysis,
      run refusalAndFailure false
        [{ questionId := str "1", question := str "Who?", shouldRefuse := true },
          { questionId := str "2", question := str "What?" }] (str "run") 0 = .ok result ∧
      buildFailureAnalysis (fun _ => []) (runPayload result) [] (fun _ => []) = .ok analysis ∧
      analysis.refusalConfusionMatrix = result.aggregate.refusal ∧
      analysis.refusalConfusionMatrix.qualityAssessedQuestions = 1 ∧
      analysis.refusalConfusionMatrix.evaluationErrorCount = 1 := by
  obtain ⟨result, hresult⟩ := run_returns refusalAndFailure
    [{ questionId := str "1", question := str "Who?", shouldRefuse := true },
      { questionId := str "2", question := str "What?" }] (str "run") 0
  obtain ⟨analysis, hanalysis⟩ : ∃ analysis, buildFailureAnalysis (fun _ => [])
      (runPayload result) [] (fun _ => []) = .ok analysis := by
    refine buildFailureAnalysis_returns (fun _ => ⟨rfl, rfl, rfl, rfl, rfl, rfl, rfl⟩) nofun ?_
    cases hresult
    intro question hquestion chat hchat
    simp only [List.mem_cons, List.not_mem_nil, or_false] at hquestion
    rcases hquestion with rfl | rfl
    · cases hchat
      rfl
    · cases hchat
  have hagree := refusal_metrics_agree _ _ _ _ _ _ _ _ _ _ hresult hanalysis
  refine ⟨result, analysis, hresult, hanalysis, hagree, ?_⟩
  rw [hagree]
  cases hresult
  exact ⟨rfl, rfl⟩

end Odirag.Evaluation
