import Mathlib.Data.Finset.Card
import Odirag.Foundations.Binary64
import Odirag.Foundations.Confusion
import Odirag.Foundations.Distinct
import Odirag.Foundations.Text

/-!
# Online metrics

Reference: `backend/app/evaluation/metrics.py`.

The measures of one question and their aggregate over a run. Identities are texts, sets of them
are finite sets, and a quotient is the double nearest to it (a mean of doubles is computed exactly
and rounded once). The discounted gain, the latencies, the tokens and the costs are left out. The
refusal figures all come from the confusion matrix of the questions that did not fail
(`evaluateSamples_refusal`).
-/

namespace Odirag.Evaluation

/-- `EvaluationSample`. -/
structure EvaluationSample where
  retrievedIds : List Text
  relevantIds : Finset Text
  expectedAnswerPoints : Finset Text := ∅
  coveredAnswerPoints : Finset Text := ∅
  expectedCitationIds : Finset Text := ∅
  citedIds : Finset Text := ∅
  shouldRefuse : Bool := false
  refused : Bool := false
  hallucinatedClaims : ℕ := 0
  claimCount : ℕ := 0
  retrievedDocumentIds : List Text := []
  relevantDocumentIds : Finset Text := ∅
  citedDocumentIds : Finset Text := ∅
  groundingValidated : Option Bool := none
  evaluationFailed : Bool := false
deriving DecidableEq

/-- `EvaluationSampleMetrics`. -/
structure EvaluationSampleMetrics where
  documentHit : ℚ
  chunkHit : ℚ
  recallAt1 : ℚ
  recallAt5 : ℚ
  recallAt10 : ℚ
  reciprocalRank : ℚ
  answerPointCoverage : ℚ
  citationAccuracy : ℚ
  citationCompleteness : ℚ
  documentCitationAccuracy : ℚ
  documentCitationCompleteness : ℚ
  refusalCorrect : ℚ
  hallucinationRate : ℚ
  answerGrounded : ℚ
  unsupportedAnswer : ℚ
  evaluationSuccess : ℚ
deriving DecidableEq

/-- `EvaluationAggregate`. -/
structure EvaluationAggregate where
  questionCount : ℕ
  recallAt1 : ℚ := 0
  recallAt5 : ℚ := 0
  recallAt10 : ℚ := 0
  mrr : ℚ := 0
  answerPointCoverage : ℚ := 0
  refusalAccuracy : ℚ := 0
  hallucinationRate : ℚ := 0
  citationPrecision : ℚ := 0
  citationRecall : ℚ := 0
  emittedCitationPrecision : ℚ := 0
  emittedCitationRecall : ℚ := 0
  documentCitationPrecision : ℚ := 0
  documentCitationRecall : ℚ := 0
  emittedDocumentCitationPrecision : ℚ := 0
  emittedDocumentCitationRecall : ℚ := 0
  answerGroundingRate : ℚ := 0
  unsupportedAnswerRate : ℚ := 0
  refusalPrecision : ℚ := 0
  refusalRecall : ℚ := 0
  supportedAnswerRecall : ℚ := 0
  documentHitRate : ℚ := 0
  chunkHitRate : ℚ := 0
  hallucinationAssessedClaims : ℕ := 0
  hallucinationAssessedQuestions : ℕ := 0
  citationAssessedQuestions : ℕ := 0
  answerGroundingAssessedQuestions : ℕ := 0
  unsupportedAnswerAssessedQuestions : ℕ := 0
  emittedCitationAssessedQuestions : ℕ := 0
  evaluationErrorCount : ℕ := 0
  qualityAssessedQuestions : ℕ := 0
deriving DecidableEq

/-! ## One question -/

/-- `float` of a truth value. -/
def float (b : Bool) : ℚ := if b then 1 else 0

/-- The quotient of two counts, zero where there is nothing to divide by. -/
def ratio (numerator denominator : ℕ) : ℚ :=
  if denominator = 0 then 0 else Binary64.div numerator denominator

/-- `_ranking_sets`. -/
def rankingSets (sample : EvaluationSample) : List Text × Finset Text :=
  if sample.relevantIds = ∅ then (sample.retrievedDocumentIds, sample.relevantDocumentIds)
  else (sample.retrievedIds, sample.relevantIds)

/-- `_citation_sets`. -/
def citationSets (sample : EvaluationSample) : Finset Text × Finset Text :=
  if sample.expectedCitationIds ≠ ∅ ∨ sample.shouldRefuse then
    (sample.citedIds, sample.expectedCitationIds)
  else if sample.relevantDocumentIds ≠ ∅ then
    (sample.citedDocumentIds, sample.relevantDocumentIds)
  else (sample.citedIds, sample.expectedCitationIds)

/-- `_hit`. -/
def hit (retrieved : List Text) (relevant : Finset Text) : ℚ :=
  if relevant = ∅ then 1 else float (retrieved.any fun item => decide (item ∈ relevant))

/-- `_recall`. -/
def recallAt (sample : EvaluationSample) (k : ℕ) : ℚ :=
  let (retrieved, relevant) := rankingSets sample
  if relevant = ∅ then 1
  else Binary64.div ((retrieved.take k).toFinset ∩ relevant).card relevant.card

/-- `_reciprocal_rank`. -/
def reciprocalRank (sample : EvaluationSample) : ℚ :=
  let (retrieved, relevant) := rankingSets sample
  match (firsts retrieved).findIdx? (fun item => decide (item ∈ relevant)) with
  | some index => Binary64.div 1 (index + 1)
  | none => if relevant = ∅ then 1 else 0

/-- `_set_precision`. -/
def setPrecision (actual expected : Finset Text) : ℚ :=
  ratio (actual ∩ expected).card actual.card

/-- `_set_recall`. -/
def setRecall (actual expected : Finset Text) : ℚ :=
  if expected = ∅ then 1 else Binary64.div (actual ∩ expected).card expected.card

/-- `_citation_recall`. -/
def citationRecall (actual expected : Finset Text) : ℚ :=
  ratio (actual ∩ expected).card expected.card

/-- `_answer_grounded`. -/
def answerGrounded (sample : EvaluationSample) (cited : Finset Text) : ℚ :=
  if sample.refused then 0
  else
    match sample.groundingValidated with
    | some validated => float validated
    | none =>
        if cited = ∅ then 0
        else if 0 < sample.claimCount then float (sample.hallucinatedClaims = 0)
        else 1

/-- `evaluate_sample`. -/
def evaluateSample (sample : EvaluationSample) : EvaluationSampleMetrics :=
  let (cited, expectedCitations) := citationSets sample
  { documentHit := hit sample.retrievedDocumentIds sample.relevantDocumentIds
    chunkHit := hit sample.retrievedIds sample.relevantIds
    recallAt1 := recallAt sample 1
    recallAt5 := recallAt sample 5
    recallAt10 := recallAt sample 10
    reciprocalRank := reciprocalRank sample
    answerPointCoverage := setRecall sample.coveredAnswerPoints sample.expectedAnswerPoints
    citationAccuracy := setPrecision cited expectedCitations
    citationCompleteness := citationRecall cited expectedCitations
    documentCitationAccuracy := setPrecision sample.citedDocumentIds sample.relevantDocumentIds
    documentCitationCompleteness :=
      citationRecall sample.citedDocumentIds sample.relevantDocumentIds
    refusalCorrect := float (!sample.evaluationFailed && sample.refused == sample.shouldRefuse)
    hallucinationRate := ratio sample.hallucinatedClaims sample.claimCount
    answerGrounded := answerGrounded sample cited
    unsupportedAnswer := float (!sample.evaluationFailed && sample.shouldRefuse && !sample.refused)
    evaluationSuccess := float (!sample.evaluationFailed) }

/-! ## A run -/

/-- `mean` of a list that may be empty; this is also `_mean_metric`. -/
def mean (values : List ℚ) : ℚ :=
  if values = [] then 0 else Binary64.div values.sum values.length

/-- `evaluate_samples`. -/
def evaluateSamples (samples : List EvaluationSample) : EvaluationAggregate :=
  if samples = [] then { questionCount := 0 }
  else
    let scoredPairs := (samples.map fun sample => (sample, evaluateSample sample)).filter
      fun pair => !pair.1.evaluationFailed
    let scored := scoredPairs.map Prod.snd
    let claimed := samples.filter fun sample => 0 < sample.claimCount
    let assessedClaims := (claimed.map (·.claimCount)).sum
    let hallucinatedClaims := (claimed.map (·.hallucinatedClaims)).sum
    let answeredMetrics := (scoredPairs.filter fun pair => !pair.1.refused).map Prod.snd
    let refusalCases := (scoredPairs.filter fun pair => pair.1.shouldRefuse).map Prod.snd
    let citationSamples :=
      (scoredPairs.filter fun pair => !(pair.1.shouldRefuse && pair.1.refused)).map Prod.snd
    let scoredSamples := scoredPairs.map Prod.fst
    let predictedRefusals := scoredSamples.countP fun s => s.refused
    let expectedRefusals := scoredSamples.countP fun s => s.shouldRefuse
    let correctRefusals := scoredSamples.countP fun s => s.refused && s.shouldRefuse
    let supportedQuestions := scoredSamples.countP fun s => !s.shouldRefuse
    let supportedAnswers := scoredSamples.countP fun s => !s.shouldRefuse && !s.refused
    { questionCount := samples.length
      recallAt1 := mean (scored.map (·.recallAt1))
      recallAt5 := mean (scored.map (·.recallAt5))
      recallAt10 := mean (scored.map (·.recallAt10))
      mrr := mean (scored.map (·.reciprocalRank))
      answerPointCoverage := mean (scored.map (·.answerPointCoverage))
      refusalAccuracy := mean (scored.map (·.refusalCorrect))
      hallucinationRate := ratio hallucinatedClaims assessedClaims
      citationPrecision := mean (citationSamples.map (·.citationAccuracy))
      citationRecall := mean (citationSamples.map (·.citationCompleteness))
      emittedCitationPrecision := mean (answeredMetrics.map (·.citationAccuracy))
      emittedCitationRecall := mean (answeredMetrics.map (·.citationCompleteness))
      documentCitationPrecision := mean (citationSamples.map (·.documentCitationAccuracy))
      documentCitationRecall := mean (citationSamples.map (·.documentCitationCompleteness))
      emittedDocumentCitationPrecision := mean (answeredMetrics.map (·.documentCitationAccuracy))
      emittedDocumentCitationRecall := mean (answeredMetrics.map (·.documentCitationCompleteness))
      answerGroundingRate := mean (answeredMetrics.map (·.answerGrounded))
      unsupportedAnswerRate := mean (refusalCases.map (·.unsupportedAnswer))
      refusalPrecision := ratio correctRefusals predictedRefusals
      refusalRecall := ratio correctRefusals expectedRefusals
      supportedAnswerRecall := ratio supportedAnswers supportedQuestions
      documentHitRate := mean (scored.map (·.documentHit))
      chunkHitRate := mean (scored.map (·.chunkHit))
      hallucinationAssessedClaims := assessedClaims
      hallucinationAssessedQuestions := claimed.length
      citationAssessedQuestions := citationSamples.length
      answerGroundingAssessedQuestions := answeredMetrics.length
      unsupportedAnswerAssessedQuestions := refusalCases.length
      emittedCitationAssessedQuestions := answeredMetrics.length
      evaluationErrorCount := samples.countP fun s => s.evaluationFailed
      qualityAssessedQuestions := scored.length }

/-! ## The refusal figures -/

/-- The figures about refusals that both reports give. -/
structure RefusalMetrics where
  refusalPrecision : ℚ
  refusalRecall : ℚ
  refusalAccuracy : ℚ
  supportedAnswerRecall : ℚ
  evaluationErrorCount : ℕ
  qualityAssessedQuestions : ℕ
deriving DecidableEq

/-- The figures that follow from the matrix of the assessed questions and the number of the other
ones. -/
def RefusalMetrics.ofConfusion (matrix : Confusion) (errors : ℕ) : RefusalMetrics where
  refusalPrecision := ratio matrix.both matrix.predicted
  refusalRecall := ratio matrix.both matrix.expected
  refusalAccuracy := ratio matrix.correct matrix.total
  supportedAnswerRecall := ratio matrix.neither matrix.notExpected
  evaluationErrorCount := errors
  qualityAssessedQuestions := matrix.total

/-- The refusal figures of an aggregate. -/
def EvaluationAggregate.refusal (aggregate : EvaluationAggregate) : RefusalMetrics where
  refusalPrecision := aggregate.refusalPrecision
  refusalRecall := aggregate.refusalRecall
  refusalAccuracy := aggregate.refusalAccuracy
  supportedAnswerRecall := aggregate.supportedAnswerRecall
  evaluationErrorCount := aggregate.evaluationErrorCount
  qualityAssessedQuestions := aggregate.qualityAssessedQuestions

/-- What was expected of a question and what happened. -/
def EvaluationSample.decision (sample : EvaluationSample) : Bool × Bool :=
  (sample.shouldRefuse, sample.refused)

/-- The decisions of the questions that did not fail. -/
def scoredDecisions (samples : List EvaluationSample) : List (Bool × Bool) :=
  (samples.filter fun sample => !sample.evaluationFailed).map (·.decision)

/-- The scored samples, taken from the pairs of a sample and its metrics. -/
theorem map_fst_scoredPairs (samples : List EvaluationSample) :
    ((samples.map fun sample => (sample, evaluateSample sample)).filter
      fun pair => !pair.1.evaluationFailed).map Prod.fst
      = samples.filter fun sample => !sample.evaluationFailed := by
  rw [List.filter_map, List.map_map]
  exact List.map_id _

theorem map_snd_scoredPairs (samples : List EvaluationSample) :
    ((samples.map fun sample => (sample, evaluateSample sample)).filter
      fun pair => !pair.1.evaluationFailed).map Prod.snd
      = (samples.filter fun sample => !sample.evaluationFailed).map evaluateSample := by
  rw [List.filter_map, List.map_map]
  rfl

/-- A mean of outcomes that are one or zero is a ratio of counts. -/
theorem mean_indicator {α : Type*} (p : α → Bool) (l : List α) :
    mean (l.map fun a => float (p a)) = ratio (l.countP p) l.length := by
  unfold mean ratio float
  rw [Confusion.sum_indicator, List.length_map]
  simp only [List.map_eq_nil_iff, List.length_eq_zero_iff]

/-- Among scored samples a refusal is correct exactly when the two decisions agree. -/
theorem mean_refusalCorrect (samples : List EvaluationSample) :
    mean (((samples.filter fun sample => !sample.evaluationFailed).map evaluateSample).map
      (·.refusalCorrect))
      = ratio (Confusion.tally (scoredDecisions samples)).correct
          (Confusion.tally (scoredDecisions samples)).total := by
  have hmap : ((samples.filter fun sample => !sample.evaluationFailed).map evaluateSample).map
      (·.refusalCorrect)
      = (scoredDecisions samples).map fun d => float (d.2 == d.1) := by
    unfold scoredDecisions
    rw [List.map_map, List.map_map]
    refine List.map_congr_left fun sample hsample => ?_
    have hscored : sample.evaluationFailed = false := by simpa using (List.mem_filter.mp hsample).2
    simp [evaluateSample, hscored, EvaluationSample.decision]
  rw [hmap, mean_indicator, Confusion.countP_correct, Confusion.length_eq_total]

/-- The refusal figures of an aggregate are those of the matrix of the questions that did not
fail. -/
theorem evaluateSamples_refusal (samples : List EvaluationSample) :
    (evaluateSamples samples).refusal
      = .ofConfusion (Confusion.tally (scoredDecisions samples))
          (samples.countP fun sample => sample.evaluationFailed) := by
  by_cases hempty : samples = []
  · subst hempty
    rfl
  have hcount : ∀ p : Bool × Bool → Bool,
      (samples.filter fun sample => !sample.evaluationFailed).countP (fun s => p s.decision)
        = (scoredDecisions samples).countP p := by
    intro p
    rw [scoredDecisions, List.countP_map]
    rfl
  have hlength : (samples.filter fun sample => !sample.evaluationFailed).length
      = (Confusion.tally (scoredDecisions samples)).total := by
    rw [← Confusion.length_eq_total, scoredDecisions, List.length_map]
  have hboth := hcount fun d => d.2 && d.1
  have hneither := hcount fun d => !d.1 && !d.2
  have hpredicted := hcount fun d => d.2
  have hexpected := hcount fun d => d.1
  have hnot := hcount fun d => !d.1
  rw [Confusion.countP_predicted] at hpredicted
  rw [Confusion.countP_expected] at hexpected
  rw [Confusion.countP_notExpected] at hnot
  have hcomm : (scoredDecisions samples).countP (fun d => d.2 && d.1)
      = (Confusion.tally (scoredDecisions samples)).both := by
    simp only [Confusion.tally, Bool.and_comm]
  rw [hcomm] at hboth
  unfold evaluateSamples EvaluationAggregate.refusal RefusalMetrics.ofConfusion
  rw [if_neg hempty]
  simp only [map_fst_scoredPairs, map_snd_scoredPairs, mean_refusalCorrect, List.length_map]
  refine RefusalMetrics.mk.injEq .. |>.mpr ⟨?_, ?_, rfl, ?_, rfl, hlength⟩
  · exact congrArg₂ ratio hboth hpredicted
  · exact congrArg₂ ratio hboth hexpected
  · exact congrArg₂ ratio hneither hnot

end Odirag.Evaluation
