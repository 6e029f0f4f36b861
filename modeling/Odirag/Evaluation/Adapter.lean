import Mathlib.Algebra.Order.BigOperators.Group.List
import Odirag.Evaluation.Claims
import Odirag.Evaluation.Runner

/-!
# Evaluating the chat service

Reference: `_ChatEvaluationAdapter` and `_run_resolved` of `backend/app/services/evaluation.py`.

The two callbacks with which the service runs the evaluation. `retrieve` asks the chat service and
keeps the answer, `chat` takes it back and counts its claims. So whatever fails does so in
`retrieve`, the dictionary of answers is empty between two questions (`step_runCase`), and a run
has the `outcomes` of its questions, which are functions of what the service answers or raises.
Each of them is `Graded`.

What the trace and the metadata of the results record of an answer is a parameter, and so is what the
metadata of the retrieved items holds; latencies, tokens and costs are left out.
-/

namespace Odirag.Evaluation.Adapter

open Claims Chat Rag Retrieval
open Json (Fields)

/-- The adapter, over a state of the world behind the chat service. -/
structure ChatEvaluationAdapter (ω : Type) where
  /-- `service.answer`. -/
  answer : EvaluationCase → ω → Except CallbackError ChatAnswer × ω
  /-- `service.get_trace`, as far as it can fail. -/
  getTrace : ChatAnswer → ω → Except CallbackError Unit × ω
  trace : ChatAnswer → Fields
  metadata : ChatAnswer → Fields
  /-- The contents in the metadata of the items. -/
  contents : ChatAnswer → RetrievalResult → List (String × Text)
  /-- What `pop` raises. -/
  keyError : Text → CallbackError

/-- `_answers`, and the world. -/
structure AdapterState (ω : Type) where
  answers : Text → Option ChatAnswer
  world : ω

variable {ω : Type} (py : Python) (adapter : ChatEvaluationAdapter ω)

/-- What `retrieve` returns for an answer. -/
def retrievalResult (answer : ChatAnswer) : RetrievalResult where
  items := (answer.finalResults.getD []).map fun hit =>
    { documentId := hit.documentId.toList, chunkId := hit.chunkId.toList }
  trace := adapter.trace answer

/-- `retrieve`. -/
def retrieve (case : EvaluationCase) (s : AdapterState ω) :
    Except CallbackError RetrievalResult × AdapterState ω :=
  match adapter.answer case s.world with
  | (.error error, world) => (.error error, { s with world })
  | (.ok answer, world) =>
      match adapter.getTrace answer world with
      | (.error error, world) => (.error error, { s with world })
      | (.ok (), world) =>
          (.ok (retrievalResult adapter answer),
            { answers := Function.update s.answers case.questionId (some answer), world })

/-- What `chat` returns for an answer. -/
def chatResult (case : EvaluationCase) (retrieval : RetrievalResult) (answer : ChatAnswer) :
    ChatResult :=
  let claims := citationClaims py (adapter.contents answer retrieval) answer
  { answer := answer.answer
    citedChunkIds := (answer.citations.map fun citation => citation.chunkId.toList).toFinset
    citedDocumentIds := (answer.citations.map fun citation => citation.documentId.toList).toFinset
    coveredAnswerPoints := case.expectedAnswerPoints.filter fun point =>
      containsNormalized py answer.answer point = true
    refused := answer.refusal
    claimCount := claims.1
    hallucinatedClaims := claims.2
    metadata := adapter.metadata answer
    groundingValidated := none }

/-- `chat`. -/
def chat (case : EvaluationCase) (retrieval : RetrievalResult) (s : AdapterState ω) :
    Except CallbackError ChatResult × AdapterState ω :=
  match s.answers case.questionId with
  | none => (.error (adapter.keyError case.questionId), s)
  | some answer =>
      (.ok (chatResult py adapter case retrieval answer),
        { s with answers := Function.update s.answers case.questionId none })

/-- The callbacks of the runner. -/
def callbacks : Callbacks (AdapterState ω) where
  retrieval := retrieve adapter
  chat := chat py adapter

/-! ## One question -/

/-- No answer is kept. -/
def Idle (s : AdapterState ω) : Prop := ∀ id, s.answers id = none

/-- What the chat service makes of a question: it answers and has the trace of the answer, or it
raises. -/
def ask (case : EvaluationCase) (world : ω) : Except CallbackError ChatAnswer × ω :=
  match adapter.answer case world with
  | (.error error, world) => (.error error, world)
  | (.ok answer, world) =>
      match adapter.getTrace answer world with
      | (.error error, world) => (.error error, world)
      | (.ok (), world) => (.ok answer, world)

/-- What comes of a question: a failure of the retrieval, or the answer is evaluated. -/
def outcome (case : EvaluationCase) : Except CallbackError ChatAnswer → EvaluationQuestionResult
  | .error error => questionResult case none none (some (str "retrieval", error))
  | .ok answer =>
      questionResult case (some (retrievalResult adapter answer))
        (some (chatResult py adapter case (retrievalResult adapter answer) answer)) none

/-- What comes of the questions, asked one after the other. -/
def outcomes : List EvaluationCase → ω → List EvaluationQuestionResult
  | [], _ => []
  | case :: cases, world =>
      outcome py adapter case (ask adapter case world).1 :: outcomes cases (ask adapter case world).2

variable {py adapter} {case : EvaluationCase} {s s' : AdapterState ω}

/-- The answer that was kept is the one that is taken back. -/
theorem chat_kept (answers : Text → Option ChatAnswer) (retrieval : RetrievalResult)
    (answer : ChatAnswer) (world : ω) :
    chat py adapter case retrieval
        { answers := Function.update answers case.questionId (some answer), world } =
      (.ok (chatResult py adapter case retrieval answer),
        { answers := Function.update answers case.questionId none, world }) := by
  unfold chat
  dsimp only
  rw [Function.update_self, Function.update_idem]

/-- Without `fail_fast` a question gives its outcome, and leaves no answer behind. -/
theorem step_runCase (case : EvaluationCase) (hidle : Idle s) :
    ∃ s', runCase (callbacks py adapter) false case s =
        (.ok (outcome py adapter case (ask adapter case s.world).1), s') ∧
      s'.world = (ask adapter case s.world).2 ∧ Idle s' := by
  unfold runCase callbacks retrieve ask
  dsimp only
  cases hanswer : adapter.answer case s.world with
  | mk answered world =>
      cases answered with
      | error error => exact ⟨_, rfl, rfl, hidle⟩
      | ok answer =>
          dsimp only
          cases adapter.getTrace answer world with
          | mk stored world' =>
              cases stored with
              | error error => exact ⟨_, rfl, rfl, hidle⟩
              | ok _ =>
                  dsimp only
                  rw [chat_kept]
                  refine ⟨_, rfl, rfl, fun id => ?_⟩
                  dsimp only
                  rw [Function.update_apply]
                  split
                  · rfl
                  · exact hidle id

/-- Without `fail_fast` a run gives the outcomes of the questions, in the order of the cases. -/
theorem runCases_eq (py : Python) (adapter : ChatEvaluationAdapter ω) (cases : List EvaluationCase)
    (hidle : Idle s) :
    runCases (callbacks py adapter) false cases s = .ok (outcomes py adapter cases s.world) := by
  induction cases generalizing s with
  | nil => rfl
  | cons case cases ih =>
      obtain ⟨s', hcase, hworld, hidle'⟩ := step_runCase case hidle
      rw [runCases, hcase]
      dsimp only
      rw [ih hidle', hworld]
      rfl

@[simp] theorem outcome_case (answered : Except CallbackError ChatAnswer) :
    (outcome py adapter case answered).case = case := by
  cases answered <;> rfl

theorem map_case_outcomes (cases : List EvaluationCase) (world : ω) :
    (outcomes py adapter cases world).map (·.case) = cases := by
  induction cases generalizing world with
  | nil => rfl
  | cons case cases ih => rw [outcomes, List.map_cons, outcome_case, ih]

/-- Each outcome is of what the service makes of its question at some time. -/
theorem mem_outcomes {result : EvaluationQuestionResult} {cases : List EvaluationCase} {world : ω}
    (h : result ∈ outcomes py adapter cases world) :
    ∃ world', result = outcome py adapter result.case (ask adapter result.case world').1 := by
  induction cases generalizing world with
  | nil => cases h
  | cons case cases ih =>
      rcases List.mem_cons.mp h with rfl | h
      · exact ⟨world, by rw [outcome_case]⟩
      · exact ih h

/-- What is answered is an answer of the service. -/
theorem answer_of_ask {world : ω} {answer : ChatAnswer} (h : (ask adapter case world).1 = .ok answer) :
    ∃ world', adapter.answer case world = (.ok answer, world') := by
  unfold ask at h
  split at h
  · cases h
  · next served world' hserved =>
      split at h
      · cases h
      · obtain rfl := Except.ok.inj h
        exact ⟨world', hserved⟩

/-! ## What is graded -/

variable {service : ChatService}

/-- An answer of the chat service, over hits of distinct chunks. -/
def Served (py : Python) (service : ChatService) (answer : ChatAnswer) : Prop :=
  ∃ queryType count query finalHits, (finalHits.map RetrievalHit.chunkId).Nodup ∧
    Chat.answer py service queryType count query finalHits = .ok answer

/-- A question of a run, whatever the chat service did. -/
structure Graded (result : EvaluationQuestionResult) : Prop where
  /-- Each failure counts as one of the retrieval, also one of the model. -/
  stage : result.sample.evaluationFailed = true → result.errorStage = some (str "retrieval") ∧
    result.sample.retrievedIds = [] ∧ result.sample.citedIds = ∅
  /-- What is cited was retrieved. -/
  cited : ∀ id ∈ result.sample.citedIds, id ≠ [] → id ∈ result.sample.retrievedIds
  citedDocuments : ∀ id ∈ result.sample.citedDocumentIds, id ≠ [] →
    id ∈ result.sample.retrievedDocumentIds
  /-- A refusal cites nothing, and an answer from what was retrieved cites some of it. -/
  refused : result.sample.refused = true → result.sample.citedIds = ∅
  answered : result.sample.evaluationFailed = false → result.sample.refused = false →
    result.sample.retrievedIds ≠ [] → result.sample.citedIds ≠ ∅
  claims : result.sample.claimCount = 0 ↔ result.sample.citedIds = ∅
  hallucinated : result.sample.hallucinatedClaims ≤ result.sample.claimCount
  /-- The answer is grounded if it has claims and none of them is hallucinated. -/
  grounded : result.metrics.answerGrounded =
    float (0 < result.sample.claimCount ∧ result.sample.hallucinatedClaims = 0)

/-- The citations of a served answer. -/
structure Cites (answer : ChatAnswer) : Prop where
  refused : answer.refusal = true → answer.citations = []
  answered : answer.refusal = false → answer.finalResults.getD [] ≠ [] → answer.citations ≠ []
  retrieved : ∀ citation ∈ answer.citations, ∃ hit ∈ answer.finalResults.getD [],
    hit.chunkId = citation.chunkId ∧ hit.documentId = citation.documentId

theorem cites_of_served (hminimum : 1 ≤ service.grounding.minimumHits) {answer : ChatAnswer}
    (h : Served py service answer) : Cites answer := by
  obtain ⟨queryType, count, query, finalHits, hids, hanswer⟩ := h
  by_cases hpath : queryType = .sql
  · rw [Chat.answer, if_pos hpath] at hanswer
    cases hanswer
    exact ⟨fun h => (Bool.false_ne_true h).elim, fun _ hresults => absurd rfl hresults, by
      simp [GroundedAnswer.refused]⟩
  · have hresults := finalResults_answer hpath hanswer
    refine ⟨fun hrefusal => ?_, fun hrefusal _ =>
      citations_of_answered hpath hminimum hids hanswer hrefusal, fun citation hcitation => ?_⟩
    · rcases answer_spec hpath hanswer with ⟨-, hnil⟩ | ⟨hfalse, -⟩
      · exact hnil
      · rw [hfalse] at hrefusal
        cases hrefusal
    · obtain ⟨hit, hhit, rfl⟩ := hit_of_mem_citations hpath hanswer hcitation
      rw [hresults]
      exact ⟨hit, hhit, rfl, rfl⟩

theorem Cites.claims_eq_zero {answer : ChatAnswer} (h : Cites answer) {items : List (String × Text)} :
    (citationClaims py items answer).1 = 0 ↔ answer.citations = [] := by
  rw [claims_eq_zero_iff]
  exact or_iff_right_of_imp h.refused

/-- The grounding of a sample that was not assessed elsewhere. -/
theorem answerGrounded_eq {sample : EvaluationSample} (hassessed : sample.groundingValidated = none)
    (hrefused : sample.refused = true → sample.citedIds = ∅)
    (hclaims : sample.claimCount = 0 ↔ sample.citedIds = ∅)
    (hdocuments : sample.citedDocumentIds = ∅ ↔ sample.citedIds = ∅) :
    (evaluateSample sample).answerGrounded =
      float (0 < sample.claimCount ∧ sample.hallucinatedClaims = 0) := by
  have hsets : (citationSets sample).1 = ∅ ↔ sample.citedIds = ∅ := by
    unfold citationSets
    split
    · rfl
    · split
      · exact hdocuments
      · rfl
  have heq : (evaluateSample sample).answerGrounded =
      Evaluation.answerGrounded sample (citationSets sample).1 := rfl
  rw [heq, Evaluation.answerGrounded, hassessed]
  dsimp only
  by_cases hcited : sample.citedIds = ∅
  · have hzero := hclaims.mpr hcited
    rw [if_pos (hsets.mpr hcited), hzero]
    simp [float]
  · have hpos : 0 < sample.claimCount := Nat.pos_of_ne_zero fun hzero => hcited (hclaims.mp hzero)
    have hanswered : ¬ sample.refused = true := fun h => hcited (hrefused h)
    rw [if_neg hanswered, if_neg (hsets.not.mpr hcited), if_pos hpos]
    simp [hpos]

theorem graded_failed (case : EvaluationCase) (error : CallbackError) :
    Graded (questionResult case none none (some (str "retrieval", error))) where
  stage _ := ⟨rfl, rfl, rfl⟩
  cited id hid := absurd hid (Finset.notMem_empty id)
  citedDocuments id hid := absurd hid (Finset.notMem_empty id)
  refused h := absurd h Bool.false_ne_true
  answered h := absurd h (by simp [questionResult, makeSample])
  claims := iff_of_true rfl rfl
  hallucinated := le_rfl
  grounded := answerGrounded_eq rfl (fun h => absurd h Bool.false_ne_true) (iff_of_true rfl rfl)
    (iff_of_true rfl rfl)

/-- The ids of the citations that the hits have too. -/
theorem mem_of_mem_toFinset {answer : ChatAnswer} {idOf : Citation → String}
    {itemId : RetrievalHit → String} {id : Text}
    (hitems : ∀ citation ∈ answer.citations, ∃ hit ∈ answer.finalResults.getD [],
      itemId hit = idOf citation)
    (hid : id ∈ (answer.citations.map fun citation => (idOf citation).toList).toFinset) :
    id ∈ (answer.finalResults.getD []).map fun hit => (itemId hit).toList := by
  obtain ⟨citation, hcitation, rfl⟩ := List.mem_map.mp (List.mem_toFinset.mp hid)
  obtain ⟨hit, hhit, heq⟩ := hitems citation hcitation
  exact List.mem_map.mpr ⟨hit, hhit, congrArg String.toList heq⟩

theorem graded_answered (case : EvaluationCase) {answer : ChatAnswer} (h : Cites answer) :
    Graded (questionResult case (some (retrievalResult adapter answer))
      (some (chatResult py adapter case (retrievalResult adapter answer) answer)) none) := by
  have hnone : ∀ idOf : Citation → String,
      (answer.citations.map fun citation => (idOf citation).toList).toFinset = ∅ ↔
        answer.citations = [] := by
    intro idOf
    rw [List.toFinset_eq_empty_iff, List.map_eq_nil_iff]
  have hclaims : (citationClaims py (adapter.contents answer (retrievalResult adapter answer))
      answer).1 = 0 ↔
        (answer.citations.map fun citation => citation.chunkId.toList).toFinset = ∅ :=
    h.claims_eq_zero.trans (hnone Citation.chunkId).symm
  have hrefused : answer.refusal = true →
      (answer.citations.map fun citation => citation.chunkId.toList).toFinset = ∅ :=
    fun hrefusal => (hnone Citation.chunkId).mpr (h.refused hrefusal)
  constructor
  case stage => exact fun hfailed => absurd hfailed Bool.false_ne_true
  case cited =>
    intro id hid hne
    have hmem := mem_of_mem_toFinset (fun citation hcitation =>
      (h.retrieved citation hcitation).imp fun hit hhit => ⟨hhit.1, hhit.2.1⟩) hid
    refine List.mem_filter.mpr ⟨?_, by simpa using hne⟩
    rw [Option.map_some, Option.getD_some, retrievalResult, List.map_map]
    exact hmem
  case citedDocuments =>
    intro id hid hne
    have hmem := mem_of_mem_toFinset (fun citation hcitation =>
      (h.retrieved citation hcitation).imp fun hit hhit => ⟨hhit.1, hhit.2.2⟩) hid
    refine mem_firsts.mpr (List.mem_filter.mpr ⟨?_, by simpa using hne⟩)
    rw [Option.map_some, Option.getD_some, retrievalResult, List.map_map]
    exact hmem
  case refused => exact hrefused
  case answered =>
    intro _ hanswer hretrieved hnil
    refine h.answered hanswer (fun hresults => hretrieved ?_) ((hnone Citation.chunkId).mp hnil)
    simp [questionResult, makeSample, retrievalResult, hresults]
  case claims => exact hclaims
  case hallucinated => exact hallucinated_le py _ answer
  case grounded =>
    exact answerGrounded_eq rfl hrefused hclaims
      ((hnone Citation.documentId).trans (hnone Citation.chunkId).symm)

/-! ## A run -/

/-- The quotient of the hallucinated claims of some samples and all their claims. -/
theorem hallucinationRate_eq (samples : List EvaluationSample) :
    (evaluateSamples samples).hallucinationRate =
      ratio ((samples.filter fun sample => 0 < sample.claimCount).map (·.hallucinatedClaims)).sum
        ((samples.filter fun sample => 0 < sample.claimCount).map (·.claimCount)).sum := by
  unfold evaluateSamples
  split
  · next hnil =>
      rw [hnil]
      rfl
  · rfl

theorem ratio_mem_unit {m n : ℕ} (h : m ≤ n) : ratio m n ∈ Set.Icc 0 1 := by
  unfold ratio
  split
  · exact ⟨le_rfl, zero_le_one⟩
  · have hunit : (m : ℚ) / n ∈ Set.Icc 0 1 :=
      ⟨by positivity, div_le_one_of_le₀ (Nat.cast_le.mpr h) (Nat.cast_nonneg n)⟩
    refine ⟨Binary64.round_nonneg hunit.1, ?_⟩
    calc Binary64.round (m / n) ≤ Binary64.round 1 := Binary64.round_mono hunit.1 hunit.2
      _ = 1 := Binary64.round_one

theorem ratio_eq_zero {m n : ℕ} (h : m ≤ n) : ratio m n = 0 ↔ m = 0 := by
  unfold ratio
  split
  · next hn => exact iff_of_true rfl (Nat.le_zero.mp (hn ▸ h))
  · next hn =>
      constructor
      · intro hzero
        by_contra hm
        have hpos : (0 : ℚ) < m / n := div_pos (Nat.cast_pos.mpr (Nat.pos_of_ne_zero hm))
          (Nat.cast_pos.mpr (Nat.pos_of_ne_zero hn))
        exact (Binary64.round_pos hpos).ne' hzero
      · rintro rfl
        rw [Binary64.div, Nat.cast_zero, zero_div, Binary64.round_zero]

/-- Where no sample has more hallucinated claims than claims, the rate is a share, and zero exactly if no
sample has any. -/
theorem hallucinationRate_spec (samples : List EvaluationSample)
    (h : ∀ sample ∈ samples, sample.hallucinatedClaims ≤ sample.claimCount) :
    (evaluateSamples samples).hallucinationRate ∈ Set.Icc 0 1 ∧
      ((evaluateSamples samples).hallucinationRate = 0 ↔
        ∀ sample ∈ samples, sample.hallucinatedClaims = 0) := by
  have hsum : ((samples.filter fun sample => 0 < sample.claimCount).map (·.hallucinatedClaims)).sum ≤
      ((samples.filter fun sample => 0 < sample.claimCount).map (·.claimCount)).sum :=
    List.sum_le_sum fun sample hsample => h sample (List.mem_of_mem_filter hsample)
  rw [hallucinationRate_eq]
  refine ⟨ratio_mem_unit hsum, (ratio_eq_zero hsum).trans ?_⟩
  rw [List.sum_eq_zero_iff_forall_eq_nat]
  constructor
  · intro hzero sample hsample
    by_cases hclaims : 0 < sample.claimCount
    · exact hzero _ (List.mem_map_of_mem (List.mem_filter.mpr ⟨hsample, by simpa using hclaims⟩))
    · have hle := h sample hsample
      omega
  · intro hzero n hn
    obtain ⟨sample, hsample, rfl⟩ := List.mem_map.mp hn
    exact hzero sample (List.mem_of_mem_filter hsample)

/-- A run over the chat service returns the outcome of each question, graded, and its hallucination rate
is the share of the claims that are hallucinated. -/
theorem run_graded (hminimum : 1 ≤ service.grounding.minimumHits)
    (hserved : ∀ case world answer world', adapter.answer case world = (.ok answer, world') →
      Served py service answer)
    (cases : List EvaluationCase) (runName : Text) (world : ω) :
    ∃ result, run (callbacks py adapter) false cases runName { answers := fun _ => none, world } =
        .ok result ∧
      result.questions = outcomes py adapter cases world ∧
      result.questions.map (·.case) = cases ∧
      (∀ question ∈ result.questions, Graded question) ∧
      result.aggregate.hallucinationRate ∈ Set.Icc 0 1 ∧
      (result.aggregate.hallucinationRate = 0 ↔
        ∀ question ∈ result.questions, question.sample.hallucinatedClaims = 0) := by
  have hidle : Idle ({ answers := fun _ => none, world } : AdapterState ω) := fun _ => rfl
  have hresults := runCases_eq py adapter cases hidle
  have hgraded : ∀ question ∈ outcomes py adapter cases world, Graded question := by
    intro question hquestion
    obtain ⟨w, houtcome⟩ := mem_outcomes hquestion
    rw [houtcome]
    cases hask : (ask adapter question.case w).1 with
    | error error => exact graded_failed question.case error
    | ok answer =>
        obtain ⟨w', hanswer⟩ := answer_of_ask hask
        exact graded_answered question.case
          (cites_of_served hminimum (hserved question.case w answer w' hanswer))
  obtain ⟨hunit, hzero⟩ := hallucinationRate_spec
      ((outcomes py adapter cases world).map (·.sample)) fun sample hsample => by
    obtain ⟨question, hquestion, rfl⟩ := List.mem_map.mp hsample
    exact (hgraded question hquestion).hallucinated
  rw [List.forall_mem_map] at hzero
  rw [run, hresults]
  exact ⟨_, rfl, rfl, map_case_outcomes cases world, hgraded, hunit, hzero⟩

/-- The route of a case. -/
def routeOf (case : EvaluationCase) : QueryType :=
  if case.questionId = str "count" then .sql else .rag

/-- A service that answers the four questions, counts documents, and fails at one case. -/
def fourQuestionsAdapter : ChatEvaluationAdapter ℕ where
  answer case calls :=
    (if case.questionId = str "other" then .error ⟨str "TimeoutError", []⟩
      else (Chat.answer .basic extractiveService (routeOf case) calls fourQuestions fourHits).mapError
        fun _ => ⟨str "ProviderResponseError", []⟩, calls + 1)
  getTrace _ calls := (.ok (), calls)
  trace _ := []
  metadata _ := []
  contents _ _ := []
  keyError id := ⟨str "KeyError", id⟩

/-- A question that is answered, one that fails, one that is counted, and the first once more. -/
def fourCases : List EvaluationCase :=
  [⟨str "four", fourQuestions, ∅, ∅, ∅, ∅, false, none, none⟩,
    ⟨str "other", fourQuestions, ∅, ∅, ∅, ∅, false, none, none⟩,
    ⟨str "count", fourQuestions, ∅, ∅, ∅, ∅, false, none, none⟩,
    ⟨str "four", fourQuestions, ∅, ∅, ∅, ∅, false, none, none⟩]

theorem served_fourQuestions : ∀ case world answer world',
    fourQuestionsAdapter.answer case world = (.ok answer, world') →
      Served .basic extractiveService answer := by
  intro case world answer world' h
  have hanswer := congrArg Prod.fst h
  simp only [fourQuestionsAdapter] at hanswer
  split at hanswer
  · cases hanswer
  · refine ⟨routeOf case, world, fourQuestions, fourHits, by decide, ?_⟩
    cases hchat : Chat.answer .basic extractiveService (routeOf case) world fourQuestions fourHits with
    | error error =>
        rw [hchat] at hanswer
        cases hanswer
    | ok result =>
        rw [hchat] at hanswer
        cases hanswer
        rfl

/-- The failed question is one of the four outcomes. -/
theorem run_graded_fourCases :
    ∃ result, run (callbacks .basic fourQuestionsAdapter) false fourCases (str "run")
        { answers := fun _ => none, world := 0 } = .ok result ∧
      result.questions[1]?.map (·.sample.evaluationFailed) = some true ∧
      result.questions.map (·.case) = fourCases ∧ ∀ question ∈ result.questions, Graded question := by
  obtain ⟨result, hrun, houtcomes, hcases, hgraded, -⟩ :=
    run_graded (by decide : 1 ≤ extractiveService.grounding.minimumHits) served_fourQuestions fourCases
      (str "run") 0
  refine ⟨result, hrun, ?_, hcases, hgraded⟩
  rw [houtcomes]
  rfl

end Odirag.Evaluation.Adapter
