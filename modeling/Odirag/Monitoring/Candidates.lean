import Odirag.Foundations.Url

/-!
# Monitored conditions

Reference: `alert_candidates` of `backend/app/services/observability.py`.

The conditions that hold of the metrics and of the dependencies, each under a key of its own.
Floating-point and decimal numbers are parameters, since only comparisons and conversions of them
are used.
-/

namespace Odirag.Monitoring

/-- What is used of `float` and `Decimal`. -/
structure Arithmetic (F D : Type*) where
  /-- `x >= y`. -/
  ge : F → F → Bool
  /-- `float` of an integer. -/
  ofInt : ℤ → F
  /-- `float` of a decimal. -/
  ofDecimal : D → F
  /-- `Decimal(str(x))`. -/
  toDecimal : F → D
  /-- `str` of a decimal. -/
  showDecimal : D → Text

/-- `Severity` of the table's check constraint. -/
inductive Severity
  | info
  | warning
  | high
  | critical
deriving DecidableEq, Repr

/-- `DependencyState`. -/
inductive DependencyState
  | healthy
  | unavailable
  | disabled
deriving DecidableEq, Repr

section

variable (F D : Type*)

/-- `DependencyHealth`. -/
structure DependencyHealth where
  status : DependencyState
  latencyMs : Option F := none
  detail : Option Text := none

/-- The fields of `CrawlerMetrics` that are read. -/
structure CrawlerMetrics where
  taskCount : ℤ
  statusCounts : List (Text × ℤ)
  taskFailureRate : F

/-- The fields of `KnowledgeMetrics` that are read. -/
structure KnowledgeMetrics where
  indexStatusCounts : List (Text × ℤ)
  indexFailureCount : ℤ

/-- The fields of `RagMetrics` that are read. -/
structure RagMetrics where
  windowHours : ℤ
  queryCount : ℤ
  p95LatencyMs : F
  totalCost : D
  averageCost : D
  evaluationRegressionCount : ℤ

/-- `OperationalMetrics`. -/
structure OperationalMetrics where
  crawler : CrawlerMetrics F
  knowledge : KnowledgeMetrics
  rag : RagMetrics F D

/-- The thresholds of the settings. -/
structure Settings where
  alertMinimumSampleSize : ℤ
  alertCrawlFailureRate : F
  alertIndexFailureCount : ℤ
  alertChatP95Ms : F
  alertEvaluationRegressionCount : ℤ
  alertAverageCost : F

/-- The `details` of the conditions. -/
inductive Details
  | crawler (taskCount : ℤ) (statusCounts : List (Text × ℤ))
  | index (indexStatusCounts : List (Text × ℤ))
  | dependency (detail : Option Text) (latencyMs : Option F)
  | latency (queryCount : ℤ)
  | evaluation (windowHours : ℤ)
  | cost (queryCount : ℤ) (totalCost : Text)

/-- `AlertCandidate`. -/
structure AlertCandidate where
  alertKey : Text
  alertType : Text
  severity : Severity
  component : Text
  message : Text
  observedValue : F
  thresholdValue : F
  details : Details F

end

/-- A dictionary: no key twice. -/
structure Dict (α : Type*) where
  items : List (Text × α)
  nodup : (items.map Prod.fst).Nodup

/-- `sorted(d.items())`. -/
def Dict.sortedItems {α : Type*} (d : Dict α) : List (Text × α) :=
  d.items.insertionSort fun x y => Url.leText x.1 y.1 = true

section

variable {F D : Type*} (A : Arithmetic F D)

/-- The candidate of an unavailable dependency. -/
def dependencyCandidate (item : Text × DependencyHealth F) : AlertCandidate F where
  alertKey := str "monitor:dependency:" ++ item.1
  alertType := str "service_unavailable"
  severity := if item.1 = str "database" then .critical else .high
  component := item.1
  message := str "Dependency " ++ item.1 ++ str " is unavailable."
  observedValue := A.ofInt 1
  thresholdValue := A.ofInt 0
  details := .dependency item.2.detail item.2.latencyMs

/-- The candidate of a condition that holds. -/
def candidateIf (holds : Bool) (candidate : AlertCandidate F) : List (AlertCandidate F) :=
  if holds then [candidate] else []

theorem mem_candidateIf {holds : Bool} {candidate c : AlertCandidate F} :
    c ∈ candidateIf holds candidate ↔ holds = true ∧ c = candidate := by
  unfold candidateIf
  split_ifs with h <;> simp [h]

/-- `alert_candidates`. -/
def alertCandidates (metrics : OperationalMetrics F D) (dependencies : Dict (DependencyHealth F))
    (settings : Settings F) : List (AlertCandidate F) :=
  let crawler := metrics.crawler
  let rag := metrics.rag
  candidateIf (crawler.taskCount ≥ settings.alertMinimumSampleSize &&
      A.ge crawler.taskFailureRate settings.alertCrawlFailureRate)
    { alertKey := str "monitor:crawler:failure_rate"
      alertType := str "high_failure_rate"
      severity := .high
      component := str "crawler"
      message := str "Crawler task failure rate exceeded the configured threshold."
      observedValue := crawler.taskFailureRate
      thresholdValue := settings.alertCrawlFailureRate
      details := .crawler crawler.taskCount crawler.statusCounts } ++
  candidateIf (metrics.knowledge.indexFailureCount ≥ settings.alertIndexFailureCount)
    { alertKey := str "monitor:knowledge:index_failures"
      alertType := str "index_failures"
      severity := .high
      component := str "knowledge"
      message := str "One or more documents are in the failed index state."
      observedValue := A.ofInt metrics.knowledge.indexFailureCount
      thresholdValue := A.ofInt settings.alertIndexFailureCount
      details := .index metrics.knowledge.indexStatusCounts } ++
  ((dependencies.sortedItems.filter fun item => item.2.status = .unavailable).map
    (dependencyCandidate A)) ++
  candidateIf (rag.queryCount ≥ settings.alertMinimumSampleSize &&
      A.ge rag.p95LatencyMs settings.alertChatP95Ms)
    { alertKey := str "monitor:rag:p95_latency"
      alertType := str "latency_regression"
      severity := .high
      component := str "rag"
      message := str "RAG P95 latency exceeded the configured threshold."
      observedValue := rag.p95LatencyMs
      thresholdValue := settings.alertChatP95Ms
      details := .latency rag.queryCount } ++
  candidateIf (rag.evaluationRegressionCount ≥ settings.alertEvaluationRegressionCount)
    { alertKey := str "monitor:evaluation:regression"
      alertType := str "evaluation_regression"
      severity := .critical
      component := str "evaluation"
      message := str "Completed experiments reported evaluation regressions."
      observedValue := A.ofInt rag.evaluationRegressionCount
      thresholdValue := A.ofInt settings.alertEvaluationRegressionCount
      details := .evaluation rag.windowHours } ++
  candidateIf (rag.queryCount ≥ settings.alertMinimumSampleSize &&
      A.ge (A.ofDecimal rag.averageCost) settings.alertAverageCost)
    { alertKey := str "monitor:rag:average_cost"
      alertType := str "abnormal_cost"
      severity := .warning
      component := str "rag"
      message := str "Average RAG cost exceeded the configured threshold."
      observedValue := A.ofDecimal rag.averageCost
      thresholdValue := settings.alertAverageCost
      details := .cost rag.queryCount (A.showDecimal rag.totalCost) }

/-- `alert_key.startswith("monitor:")`. -/
def isMonitor (key : Text) : Bool := (str "monitor:").isPrefixOf key

/-- Every condition has a key of the monitor. -/
theorem isMonitor_alertCandidates {metrics : OperationalMetrics F D}
    {dependencies : Dict (DependencyHealth F)} {settings : Settings F} {c : AlertCandidate F}
    (h : c ∈ alertCandidates A metrics dependencies settings) : isMonitor c.alertKey = true := by
  simp only [alertCandidates, List.mem_append, mem_candidateIf, List.mem_map] at h
  rcases h with ((((⟨-, rfl⟩ | ⟨-, rfl⟩) | ⟨item, -, rfl⟩) | ⟨-, rfl⟩) | ⟨-, rfl⟩) | ⟨-, rfl⟩
  · rfl
  · rfl
  · exact List.isPrefixOf_iff_prefix.mpr ⟨str "dependency:" ++ item.1, rfl⟩
  · rfl
  · rfl
  · rfl

end

end Odirag.Monitoring
