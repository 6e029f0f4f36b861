import Odirag.Foundations.Best
import Odirag.Foundations.Binary64
import Odirag.Foundations.Keyed
import Odirag.Foundations.Text
import Mathlib.Data.Char
import Mathlib.Data.List.Lex

/-!
# Experiments

Reference: `backend/app/experiments/service.py`, `backend/app/experiments/comparison.py`.

An experiment evaluates a baseline and a candidate on the same cases and says whether the candidate
is worse. `run_verdict` says when it does, in terms of the two outcomes alone, and `report_swapped` what
the same experiment says with the two exchanged. Differences are rounded to double precision.
-/

namespace Odirag.Experiments

variable {D : Type}

/-- `EvaluationCaseResult`. -/
structure EvaluationCaseResult (D : Type) where
  caseId : Text
  passed : Bool
  failureReason : Option Text
  details : D
  require_failure_reason : passed = false → ∃ reason ≠ [], failureReason = some reason

/-- `EvaluationOutcome`, as its validators leave it. -/
structure EvaluationOutcome (D : Type) where
  metrics : List (Text × ℚ)
  cases : List (EvaluationCaseResult D)
  metrics_ne_nil : metrics ≠ []
  nodup_metrics : (metrics.map (·.1)).Nodup
  require_unique_case_ids : (cases.map (·.caseId)).Nodup

/-- `ExperimentVariantConfig`, with parameters that only the runner reads. -/
structure ExperimentVariantConfig (A : Type) where
  name : Text
  parameters : A

/-- `ExperimentConfig`, as far as an experiment reads it. -/
structure ExperimentConfig (A : Type) where
  name : Text
  experimentType : Text
  dataset : Text
  regressionTolerance : ℚ
  lowerIsBetter : List Text
  baseline : ExperimentVariantConfig A
  candidate : ExperimentVariantConfig A
  tolerance_nonneg : 0 ≤ regressionTolerance

/-- `EvaluationRequest.role`. -/
inductive Role
  | baseline
  | candidate
deriving DecidableEq, Repr

/-- `EvaluationRequest`. -/
structure EvaluationRequest (A : Type) where
  experimentName : Text
  experimentType : Text
  dataset : Text
  role : Role
  variantName : Text
  parameters : A

/-- What a runner does: it raises, or returns an outcome or something else. -/
inductive RunnerReply (D : Type)
  | raises (className message : Text)
  | returnsOther (typeName : Text)
  | outcome (outcome : EvaluationOutcome D)

/-- `ExperimentExecutionError`, by what its message says. -/
inductive ExecutionError
  | evaluationFailed (role : Role) (variant className message : Text)
  | unexpectedResult (role : Role) (variant typeName : Text)
  | caseIdsDiffer (missingFromCandidate candidateOnly : List Text)
  | metricsNotComparable

/-- `MetricComparison`. -/
structure MetricComparison where
  name : Text
  baseline : ℚ
  candidate : ℚ
  delta : ℚ
  regression : Bool
deriving DecidableEq

/-- `CandidateFailure`. -/
structure CandidateFailure (D : Type) where
  caseId : Text
  failureReason : Text
  baselinePassed : Option Bool
  newRegression : Bool
  details : D

/-- `ExperimentRunResult`, without the times. -/
structure ExperimentRunResult (D : Type) where
  baseline : EvaluationOutcome D
  candidate : EvaluationOutcome D
  comparisons : List MetricComparison
  candidateFailures : List (CandidateFailure D)
  hasRegression : Bool

/-- Equality of sets of keys. -/
def sameKeys (xs ys : List Text) : Bool := xs.all (· ∈ ys) && ys.all (· ∈ xs)

/-- The value of a metric. -/
def metric (metrics : List (Text × ℚ)) (name : Text) : ℚ :=
  ((Keyed.find? (·.1) name metrics).map (·.2)).getD 0

/-- The candidate is worse than the tolerance allows. -/
def isRegression (lowerIsBetter : List Text) (tolerance : ℚ) (name : Text) (delta : ℚ) : Bool :=
  if name ∈ lowerIsBetter then tolerance < delta else delta < -tolerance

/-- `compare_metrics`; `none` is the `ValueError`. -/
def compareMetrics (baseline candidate : List (Text × ℚ)) (lowerIsBetter : List Text)
    (tolerance : ℚ) : Option (List MetricComparison) :=
  if sameKeys (baseline.map (·.1)) (candidate.map (·.1)) then
    some ((sortedBy id (baseline.map (·.1))).map fun name =>
      let before := metric baseline name
      let after := metric candidate name
      let delta := Binary64.sub after before
      ⟨name, before, after, delta, isRegression lowerIsBetter tolerance name delta⟩)
  else none

/-- One round of the loop of `_candidate_failures`. -/
def candidateFailure (baseline : List (EvaluationCaseResult D)) (c : EvaluationCaseResult D) :
    Option (CandidateFailure D) :=
  if c.passed then none
  else
    let baselinePassed := (Keyed.find? (·.caseId) c.caseId baseline).map (·.passed)
    some ⟨c.caseId, (c.failureReason.filter (· ≠ [])).getD (str "unspecified failure"),
      baselinePassed, baselinePassed ≠ some false, c.details⟩

/-- `_candidate_failures`. -/
def candidateFailures (baseline candidate : EvaluationOutcome D) : List (CandidateFailure D) :=
  sortedBy (·.caseId) (candidate.cases.filterMap (candidateFailure baseline.cases))

/-- `_validate_case_sets`. -/
def validateCaseSets (baseline candidate : EvaluationOutcome D) : Except ExecutionError Unit :=
  let baselineIds := baseline.cases.map (·.caseId)
  let candidateIds := candidate.cases.map (·.caseId)
  if sameKeys baselineIds candidateIds then .ok ()
  else .error (.caseIdsDiffer (sortedBy id (baselineIds.filter (· ∉ candidateIds)))
    (sortedBy id (candidateIds.filter (· ∉ baselineIds))))

section

variable {A σ : Type} (runner : σ → EvaluationRequest A → RunnerReply D × σ)

/-- `_evaluate`. -/
def evaluate (config : ExperimentConfig A) (variant : ExperimentVariantConfig A) (role : Role)
    (s : σ) : Except ExecutionError (EvaluationOutcome D) × σ :=
  match runner s ⟨config.name, config.experimentType, config.dataset, role, variant.name,
      variant.parameters⟩ with
  | (.raises className message, s) =>
      (.error (.evaluationFailed role variant.name className message), s)
  | (.returnsOther typeName, s) => (.error (.unexpectedResult role variant.name typeName), s)
  | (.outcome outcome, s) => (.ok outcome, s)

/-- What `run` makes of two outcomes. -/
def report (config : ExperimentConfig A) (baseline candidate : EvaluationOutcome D) :
    Except ExecutionError (ExperimentRunResult D) :=
  match validateCaseSets baseline candidate with
  | .error e => .error e
  | .ok () =>
      match compareMetrics baseline.metrics candidate.metrics config.lowerIsBetter
          config.regressionTolerance with
      | none => .error .metricsNotComparable
      | some comparisons =>
          let failures := candidateFailures baseline candidate
          .ok ⟨baseline, candidate, comparisons, failures,
            comparisons.any (·.regression) || failures.any (·.newRegression)⟩

/-- `ExperimentService.run`. -/
def run (config : ExperimentConfig A) (s : σ) :
    Except ExecutionError (ExperimentRunResult D) × σ :=
  match evaluate runner config config.baseline .baseline s with
  | (.error e, s) => (.error e, s)
  | (.ok baseline, s) =>
      match evaluate runner config config.candidate .candidate s with
      | (.error e, s) => (.error e, s)
      | (.ok candidate, s) => (report config baseline candidate, s)

end

/-! ## Metrics -/

theorem sameKeys_iff {xs ys : List Text} : sameKeys xs ys = true ↔ ∀ k, k ∈ xs ↔ k ∈ ys := by
  simp only [sameKeys, Bool.and_eq_true, List.all_eq_true, decide_eq_true_eq]
  exact ⟨fun h k => ⟨h.1 k, h.2 k⟩, fun h => ⟨fun k => (h k).mp, fun k => (h k).mpr⟩⟩

theorem metric_of_mem {metrics : List (Text × ℚ)} (hnodup : (metrics.map (·.1)).Nodup)
    {name : Text} {x : ℚ} (h : (name, x) ∈ metrics) : metric metrics name = x := by
  have hfind : Keyed.find? (·.1) name metrics = some (name, x) :=
    (Keyed.find?_eq_some_iff hnodup).mpr ⟨h, rfl⟩
  rw [metric, hfind]
  rfl

theorem mem_metric {metrics : List (Text × ℚ)} {name : Text} (h : name ∈ metrics.map (·.1)) :
    (name, metric metrics name) ∈ metrics := by
  unfold metric
  cases hfind : Keyed.find? (·.1) name metrics with
  | none => exact absurd h (Keyed.find?_eq_none_iff.mp hfind)
  | some row =>
      obtain ⟨hmem, rfl⟩ := Keyed.find?_some hfind
      exact hmem

section

variable {A : Type} {config : ExperimentConfig A} {baseline candidate : EvaluationOutcome D}
  {result : ExperimentRunResult D}

/-- What a report consists of. -/
structure IsReport (config : ExperimentConfig A) (baseline candidate : EvaluationOutcome D)
    (result : ExperimentRunResult D) : Prop where
  cases : ∀ k, k ∈ baseline.cases.map (·.caseId) ↔ k ∈ candidate.cases.map (·.caseId)
  names : ∀ k, k ∈ baseline.metrics.map (·.1) ↔ k ∈ candidate.metrics.map (·.1)
  baseline_eq : result.baseline = baseline
  candidate_eq : result.candidate = candidate
  comparisons : compareMetrics baseline.metrics candidate.metrics config.lowerIsBetter
    config.regressionTolerance = some result.comparisons
  failures : result.candidateFailures = candidateFailures baseline candidate
  verdict : result.hasRegression = (result.comparisons.any (·.regression) ||
    result.candidateFailures.any (·.newRegression))

theorem isReport_of_report (h : report config baseline candidate = .ok result) :
    IsReport config baseline candidate result := by
  unfold report validateCaseSets at h
  by_cases hcases : sameKeys (baseline.cases.map (·.caseId)) (candidate.cases.map (·.caseId)) = true
  · by_cases hnames : sameKeys (baseline.metrics.map (·.1)) (candidate.metrics.map (·.1)) = true
    · simp only [hcases, if_true, compareMetrics, hnames, Except.ok.injEq] at h
      subst h
      exact ⟨sameKeys_iff.mp hcases, sameKeys_iff.mp hnames, rfl, rfl, if_pos hnames, rfl, rfl⟩
    · simp [hcases, compareMetrics, hnames] at h
  · simp [hcases] at h

/-- Outcomes with the same cases and the same metrics can be compared. -/
theorem exists_report
    (hcases : ∀ k, k ∈ baseline.cases.map (·.caseId) ↔ k ∈ candidate.cases.map (·.caseId))
    (hnames : ∀ k, k ∈ baseline.metrics.map (·.1) ↔ k ∈ candidate.metrics.map (·.1)) :
    ∃ result, report config baseline candidate = .ok result := by
  simp [report, validateCaseSets, sameKeys_iff.mpr hcases, compareMetrics, sameKeys_iff.mpr hnames]

/-- The comparison of a metric that both outcomes have. -/
def comparison (config : ExperimentConfig A) (name : Text) (before after : ℚ) : MetricComparison :=
  let delta := Binary64.sub after before
  ⟨name, before, after, delta,
    isRegression config.lowerIsBetter config.regressionTolerance name delta⟩

theorem IsReport.comparisons_eq (h : IsReport config baseline candidate result) :
    result.comparisons = (sortedBy id (baseline.metrics.map (·.1))).map fun name =>
      comparison config name (metric baseline.metrics name) (metric candidate.metrics name) := by
  have hcomparisons := h.comparisons
  rw [compareMetrics, if_pos (sameKeys_iff.mpr h.names)] at hcomparisons
  exact (Option.some_inj.mp hcomparisons).symm

/-- There is one comparison for each metric. -/
theorem IsReport.mem_comparisons (h : IsReport config baseline candidate result)
    {m : MetricComparison} : m ∈ result.comparisons ↔
      ∃ name before after, (name, before) ∈ baseline.metrics ∧ (name, after) ∈ candidate.metrics ∧
        m = comparison config name before after := by
  rw [h.comparisons_eq, List.mem_map]
  constructor
  · rintro ⟨name, hname, rfl⟩
    rw [mem_sortedBy] at hname
    exact ⟨name, _, _, mem_metric hname, mem_metric ((h.names name).mp hname), rfl⟩
  · rintro ⟨name, before, after, hbefore, hafter, rfl⟩
    refine ⟨name, mem_sortedBy.mpr (List.mem_map_of_mem hbefore), ?_⟩
    rw [metric_of_mem baseline.nodup_metrics hbefore, metric_of_mem candidate.nodup_metrics hafter]

theorem IsReport.pairwise_comparisons (h : IsReport config baseline candidate result) :
    result.comparisons.Pairwise fun m m' => m.name < m'.name := by
  have hkeys : ((baseline.metrics.map (·.1)).map id).Nodup := by
    rw [List.map_id]
    exact baseline.nodup_metrics
  rw [h.comparisons_eq, List.pairwise_map]
  exact pairwise_sortedBy_lt hkeys

/-! ## Cases -/

/-- A failure is what becomes of a failed case, which the baseline has too. -/
theorem IsReport.mem_failures (h : IsReport config baseline candidate result)
    {f : CandidateFailure D} : f ∈ result.candidateFailures ↔
      ∃ b ∈ baseline.cases, ∃ c ∈ candidate.cases, b.caseId = c.caseId ∧ c.passed = false ∧
        ∃ reason ≠ [], c.failureReason = some reason ∧
          f = ⟨c.caseId, reason, some b.passed, b.passed, c.details⟩ := by
  rw [h.failures, candidateFailures, mem_sortedBy, List.mem_filterMap]
  -- The failure of a case, once its reason and the case of the baseline are known.
  have hfailure : ∀ b ∈ baseline.cases, ∀ c : EvaluationCaseResult D, b.caseId = c.caseId →
      c.passed = false → ∀ reason ≠ [], c.failureReason = some reason →
        candidateFailure baseline.cases c =
          some ⟨c.caseId, reason, some b.passed, b.passed, c.details⟩ := by
    intro b hb c hid hfailed reason hne hreason
    have hfind : Keyed.find? (·.caseId) c.caseId baseline.cases = some b :=
      (Keyed.find?_eq_some_iff baseline.require_unique_case_ids).mpr ⟨hb, hid⟩
    have hpassed : decide (some b.passed ≠ some false) = b.passed := by cases b.passed <;> rfl
    simp only [candidateFailure, hfailed, hfind, hreason, Option.map_some, hpassed]
    simp [Option.filter, hne]
  constructor
  · rintro ⟨c, hc, hf⟩
    cases hpassed : c.passed with
    | true => simp [candidateFailure, hpassed] at hf
    | false =>
        obtain ⟨reason, hne, hreason⟩ := c.require_failure_reason hpassed
        have hmem := (h.cases c.caseId).mpr (List.mem_map_of_mem hc)
        obtain ⟨b, hb, hid⟩ := List.mem_map.mp hmem
        rw [hfailure b hb c hid hpassed reason hne hreason] at hf
        exact ⟨b, hb, c, hc, hid, hpassed, reason, hne, hreason, (Option.some_inj.mp hf).symm⟩
  · rintro ⟨b, hb, c, hc, hid, hpassed, reason, hne, hreason, rfl⟩
    exact ⟨c, hc, hfailure b hb c hid hpassed reason hne hreason⟩

theorem caseId_of_candidateFailure {cases : List (EvaluationCaseResult D)}
    {c : EvaluationCaseResult D} {f : CandidateFailure D}
    (h : candidateFailure cases c = some f) : f.caseId = c.caseId := by
  unfold candidateFailure at h
  split at h
  · cases h
  · cases h
    rfl

theorem nodup_caseId_failures (baseline candidate : EvaluationOutcome D) :
    ((candidate.cases.filterMap (candidateFailure baseline.cases)).map (·.caseId)).Nodup := by
  have hids := candidate.require_unique_case_ids
  generalize candidate.cases = cases at hids
  refine hids.sublist ?_
  induction cases with
  | nil => exact List.Sublist.refl _
  | cons c cases ih =>
      have htail := ih (List.nodup_cons.mp hids).2
      cases hf : candidateFailure baseline.cases c with
      | none => simpa [hf] using htail.cons c.caseId
      | some f => simpa [hf, caseId_of_candidateFailure hf] using htail

theorem IsReport.pairwise_failures (h : IsReport config baseline candidate result) :
    result.candidateFailures.Pairwise fun f f' => f.caseId < f'.caseId := by
  rw [h.failures]
  exact pairwise_sortedBy_lt (nodup_caseId_failures baseline candidate)

/-! ## Verdicts -/

/-- The candidate is worse in this metric than the tolerance allows. -/
def Worse (config : ExperimentConfig A) (baseline candidate : EvaluationOutcome D) (name : Text) :
    Prop :=
  ∃ before after, (name, before) ∈ baseline.metrics ∧ (name, after) ∈ candidate.metrics ∧
    if name ∈ config.lowerIsBetter then
      config.regressionTolerance < Binary64.sub after before
    else Binary64.sub after before < -config.regressionTolerance

/-- The candidate fails this case, which the baseline passes. -/
def NewlyFailing (baseline candidate : EvaluationOutcome D) (caseId : Text) : Prop :=
  ∃ b ∈ baseline.cases, ∃ c ∈ candidate.cases, b.caseId = caseId ∧ c.caseId = caseId ∧
    b.passed = true ∧ c.passed = false

theorem comparison_regression_iff {name : Text} {before after : ℚ} :
    (comparison config name before after).regression = true ↔
      if name ∈ config.lowerIsBetter then
        config.regressionTolerance < Binary64.sub after before
      else Binary64.sub after before < -config.regressionTolerance := by
  unfold comparison isRegression
  split <;> simp

theorem IsReport.regression_iff (h : IsReport config baseline candidate result)
    {m : MetricComparison} (hm : m ∈ result.comparisons) :
    m.regression = true ↔ Worse config baseline candidate m.name := by
  obtain ⟨name, before, after, hbefore, hafter, rfl⟩ := h.mem_comparisons.mp hm
  rw [comparison_regression_iff]
  constructor
  · exact fun hworse => ⟨before, after, hbefore, hafter, hworse⟩
  · rintro ⟨before', after', hbefore', hafter', hworse⟩
    have hb := (metric_of_mem baseline.nodup_metrics hbefore).symm.trans
      (metric_of_mem baseline.nodup_metrics hbefore')
    have ha := (metric_of_mem candidate.nodup_metrics hafter).symm.trans
      (metric_of_mem candidate.nodup_metrics hafter')
    rwa [hb, ha]

theorem IsReport.newRegression_iff (h : IsReport config baseline candidate result)
    {f : CandidateFailure D} (hf : f ∈ result.candidateFailures) :
    f.newRegression = true ↔ NewlyFailing baseline candidate f.caseId := by
  obtain ⟨b, hb, c, hc, hid, hfailed, reason, hne, hreason, rfl⟩ := h.mem_failures.mp hf
  constructor
  · exact fun hpassed => ⟨b, hb, c, hc, hid, rfl, hpassed, hfailed⟩
  · rintro ⟨b', hb', c', hc', hid', -, hpassed, -⟩
    rwa [List.inj_on_of_nodup_map baseline.require_unique_case_ids hb hb' (hid.trans hid'.symm)]

/-- The verdict, in terms of the two outcomes. -/
theorem IsReport.hasRegression_iff (h : IsReport config baseline candidate result) :
    result.hasRegression = true ↔ (∃ name, Worse config baseline candidate name) ∨
      ∃ caseId, NewlyFailing baseline candidate caseId := by
  rw [h.verdict, Bool.or_eq_true, List.any_eq_true, List.any_eq_true]
  refine or_congr ⟨?_, ?_⟩ ⟨?_, ?_⟩
  · rintro ⟨m, hm, hregression⟩
    exact ⟨m.name, (h.regression_iff hm).mp hregression⟩
  · rintro ⟨name, hworse⟩
    have hworse' := hworse
    obtain ⟨before, after, hbefore, hafter, -⟩ := hworse'
    have hm := h.mem_comparisons.mpr ⟨name, before, after, hbefore, hafter, rfl⟩
    exact ⟨_, hm, (h.regression_iff hm).mpr hworse⟩
  · rintro ⟨f, hf, hnew⟩
    exact ⟨f.caseId, (h.newRegression_iff hf).mp hnew⟩
  · rintro ⟨caseId, hnew⟩
    have hnew' := hnew
    obtain ⟨b, hb, c, hc, hid, rfl, hpassed, hfailed⟩ := hnew'
    obtain ⟨reason, hne, hreason⟩ := c.require_failure_reason hfailed
    have hf := h.mem_failures.mpr ⟨b, hb, c, hc, hid, hfailed, reason, hne, hreason, rfl⟩
    exact ⟨_, hf, (h.newRegression_iff hf).mpr hnew⟩

end

/-- A run returns a report exactly if both evaluations return outcomes, with the same cases and the
same metrics. -/
theorem run_ok {A σ : Type} {runner : σ → EvaluationRequest A → RunnerReply D × σ}
    {config : ExperimentConfig A} {s : σ} {result : ExperimentRunResult D}
    (h : (run runner config s).1 = .ok result) :
    IsReport config result.baseline result.candidate result := by
  unfold run at h
  split at h
  · cases h
  · split at h
    · cases h
    · have hreport := isReport_of_report h
      rwa [← hreport.baseline_eq, ← hreport.candidate_eq] at hreport

/-- An experiment that goes through compares each metric once, in the order of the names, and lists
each failed case of the candidate once, in the order of the identifiers. It reports a regression
exactly if the candidate is worse in a metric than the tolerance allows or fails a case that the
baseline passes, and which metrics and cases these are. -/
theorem run_verdict {A σ : Type} (runner : σ → EvaluationRequest A → RunnerReply D × σ)
    (config : ExperimentConfig A) (s : σ) {result : ExperimentRunResult D}
    (h : (run runner config s).1 = .ok result) :
    (result.hasRegression = true ↔
      (∃ name, Worse config result.baseline result.candidate name) ∨
        ∃ caseId, NewlyFailing result.baseline result.candidate caseId) ∧
    result.comparisons.Pairwise (fun m m' => m.name < m'.name) ∧
    (∀ name before after, (name, before) ∈ result.baseline.metrics →
      (name, after) ∈ result.candidate.metrics → ∃ m ∈ result.comparisons,
        m.name = name ∧ m.baseline = before ∧ m.candidate = after ∧
          m.delta = Binary64.sub after before ∧
          (m.regression = true ↔ Worse config result.baseline result.candidate name)) ∧
    (∀ name, name ∈ result.comparisons.map (·.name) ↔ name ∈ result.candidate.metrics.map (·.1)) ∧
    result.candidateFailures.Pairwise (fun f f' => f.caseId < f'.caseId) ∧
    (∀ caseId, caseId ∈ result.candidateFailures.map (·.caseId) ↔
      ∃ c ∈ result.candidate.cases, c.caseId = caseId ∧ c.passed = false) ∧
    ∀ f ∈ result.candidateFailures, f.newRegression = true ↔
      NewlyFailing result.baseline result.candidate f.caseId := by
  have hreport := run_ok h
  refine ⟨hreport.hasRegression_iff, hreport.pairwise_comparisons, ?_, ?_,
    hreport.pairwise_failures, ?_, fun f hf => hreport.newRegression_iff hf⟩
  · intro name before after hbefore hafter
    have hm := hreport.mem_comparisons.mpr ⟨name, before, after, hbefore, hafter, rfl⟩
    exact ⟨_, hm, rfl, rfl, rfl, rfl, hreport.regression_iff hm⟩
  · intro name
    rw [← hreport.names name, hreport.comparisons_eq, List.map_map]
    have hnames : ∀ xs : List Text, xs.map ((·.name) ∘ fun name => comparison config name
        (metric result.baseline.metrics name) (metric result.candidate.metrics name)) = xs :=
      fun xs => List.map_id xs
    rw [hnames, mem_sortedBy]
  · intro caseId
    constructor
    · intro hmem
      obtain ⟨f, hf, rfl⟩ := List.mem_map.mp hmem
      obtain ⟨b, hb, c, hc, hid, hfailed, reason, hne, hreason, rfl⟩ := hreport.mem_failures.mp hf
      exact ⟨c, hc, rfl, hfailed⟩
    · rintro ⟨c, hc, rfl, hfailed⟩
      obtain ⟨b, hb, hid⟩ := List.mem_map.mp
        ((hreport.cases c.caseId).mpr (List.mem_map_of_mem hc))
      obtain ⟨reason, hne, hreason⟩ := c.require_failure_reason hfailed
      exact List.mem_map.mpr ⟨_, hreport.mem_failures.mpr
        ⟨b, hb, c, hc, hid, hfailed, reason, hne, hreason, rfl⟩, rfl⟩

/-- A case that passes, and the same case when it fails. -/
def passing : EvaluationCaseResult Unit := ⟨str "q-1", true, none, (), by simp⟩

def failing : EvaluationCaseResult Unit :=
  ⟨str "q-1", false, some (str "no answer"), (), fun _ => ⟨str "no answer", by decide, rfl⟩⟩

/-- An outcome with one metric and one case. -/
def oneCase (c : EvaluationCaseResult Unit) : EvaluationOutcome Unit :=
  ⟨[(str "recall", 1)], [c], by simp, by simp, by simp⟩

def oneExperiment : ExperimentConfig Unit :=
  ⟨str "exp", str "rerank", str "database:verified", 0, [], ⟨str "baseline", ()⟩,
    ⟨str "candidate", ()⟩, le_refl 0⟩

/-- The candidate fails the case. -/
def oneRunner (s : Unit) (request : EvaluationRequest Unit) : RunnerReply Unit × Unit :=
  (.outcome (oneCase (if request.role = .baseline then passing else failing)), s)

theorem run_verdict_oneRunner :
    ∃ result, (run oneRunner oneExperiment ()).1 = .ok result ∧ result.hasRegression = true := by
  obtain ⟨result, h⟩ : ∃ result, report oneExperiment (oneCase passing) (oneCase failing) =
      .ok result := exists_report (fun _ => Iff.rfl) fun _ => Iff.rfl
  have hrun : (run oneRunner oneExperiment ()).1 = .ok result := h
  have hreport := isReport_of_report h
  refine ⟨result, hrun, (run_verdict oneRunner oneExperiment () hrun).1.mpr (.inr ⟨str "q-1", ?_⟩)⟩
  rw [hreport.baseline_eq, hreport.candidate_eq]
  exact ⟨passing, List.mem_singleton_self _, failing, List.mem_singleton_self _, rfl, rfl, rfl, rfl⟩

/-- The same experiment with baseline and candidate exchanged goes through too. The differences have
the other sign, and no metric and no case is a regression both ways; in particular no outcome is a
regression from itself. -/
theorem report_swapped {A : Type} (config : ExperimentConfig A)
    (baseline candidate : EvaluationOutcome D) {result : ExperimentRunResult D}
    (h : report config baseline candidate = .ok result) :
    ∃ swapped, report config candidate baseline = .ok swapped ∧
      (∀ m ∈ result.comparisons, ∃ m' ∈ swapped.comparisons, m'.name = m.name ∧
        m'.delta = -m.delta ∧ (m.regression = true → m'.regression = false)) ∧
      (∀ f ∈ result.candidateFailures, f.newRegression = true →
        f.caseId ∉ swapped.candidateFailures.map (·.caseId)) ∧
      (baseline = candidate → result.hasRegression = false) := by
  have hreport := isReport_of_report h
  obtain ⟨swapped, hswapped⟩ : ∃ swapped, report config candidate baseline = .ok swapped :=
    exists_report (fun k => (hreport.cases k).symm) fun k => (hreport.names k).symm
  have hreport' := isReport_of_report hswapped
  have htol := config.tolerance_nonneg
  refine ⟨swapped, hswapped, fun m hm => ?_, fun f hf hnew hmem => ?_, fun heq => ?_⟩
  · obtain ⟨name, before, after, hbefore, hafter, rfl⟩ := hreport.mem_comparisons.mp hm
    refine ⟨_, hreport'.mem_comparisons.mpr ⟨name, after, before, hafter, hbefore, rfl⟩, rfl,
      (Binary64.neg_sub after before).symm, fun hworse => ?_⟩
    rw [Bool.eq_false_iff]
    intro hworse'
    rw [comparison_regression_iff] at hworse hworse'
    rw [← Binary64.neg_sub after before] at hworse'
    split at hworse
    · next hlower =>
        rw [if_pos hlower] at hworse'
        linarith
    · next hhigher =>
        rw [if_neg hhigher] at hworse'
        linarith
  · obtain ⟨b, hb, c, hc, hid, hid', hpassed, -⟩ := (hreport.newRegression_iff hf).mp hnew
    obtain ⟨f', hf', hsame⟩ := List.mem_map.mp hmem
    obtain ⟨_, _, b', hb', _, hfailed', _, _, _, rfl⟩ := hreport'.mem_failures.mp hf'
    have hcase := List.inj_on_of_nodup_map baseline.require_unique_case_ids hb hb'
      (hid.trans hsame.symm)
    rw [hcase, hfailed'] at hpassed
    cases hpassed
  · subst heq
    rw [Bool.eq_false_iff]
    intro hregression
    rcases hreport.hasRegression_iff.mp hregression with ⟨name, hworse⟩ | ⟨caseId, hnew⟩
    · obtain ⟨before, after, hbefore, hafter, hworse⟩ := hworse
      have hsame := (metric_of_mem baseline.nodup_metrics hbefore).symm.trans
        (metric_of_mem baseline.nodup_metrics hafter)
      rw [hsame, Binary64.sub_self] at hworse
      split at hworse <;> linarith
    · obtain ⟨b, hb, c, hc, hid, hid', hpassed, hfailed⟩ := hnew
      rw [List.inj_on_of_nodup_map baseline.require_unique_case_ids hb hc (hid.trans hid'.symm),
        hfailed] at hpassed
      cases hpassed

theorem report_swapped_oneCase :
    ∃ result swapped, report oneExperiment (oneCase passing) (oneCase failing) = .ok result ∧
      report oneExperiment (oneCase failing) (oneCase passing) = .ok swapped ∧
      ∀ f ∈ result.candidateFailures, f.newRegression = true →
        f.caseId ∉ swapped.candidateFailures.map (·.caseId) := by
  obtain ⟨result, h⟩ : ∃ result, report oneExperiment (oneCase passing) (oneCase failing) =
      .ok result := exists_report (fun _ => Iff.rfl) fun _ => Iff.rfl
  obtain ⟨swapped, hswapped, -, hfailures, -⟩ :=
    report_swapped oneExperiment (oneCase passing) (oneCase failing) h
  exact ⟨result, swapped, h, hswapped, hfailures⟩

end Odirag.Experiments
