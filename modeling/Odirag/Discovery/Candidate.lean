import Odirag.Crawler.Urls
import Odirag.Foundations.Binary64

/-!
# Source candidates

Reference: `backend/app/models/source_discovery.py`, `SourceDiscoveryService` of
`backend/app/services/source_discovery.py`.

The rows of the candidates and what the service computes about one candidate: the check of its
homepage, the columns found on it, their trial crawls and the quality score. What a page contains
is an input: its markers are looked for here, while the links on it and the relevance of its
documents come from outside. Times, snippets and evidence records are left out. Scores are
doubles; a stored one is the double it is read back as.
-/

namespace Odirag.Discovery

open Crawler (NetTools rstripDots strip)

/-! ## Rows -/

/-- `SourceDiscoveryRun.status`. -/
inductive RunStatus
  | pending
  | running
  | noGap
  | awaitingApproval
  | activated
  | failed
deriving DecidableEq, Repr

/-- `SourceCandidate.status`. -/
inductive CandidateStatus
  | discovered
  | validationFailed
  | validated
  | columnsDiscovered
  | trialCrawled
  | pendingApproval
  | approved
  | rejected
  | activating
  | activated
  | failed
deriving DecidableEq, Repr

/-- `SourceCandidate.official_status`. -/
inductive OfficialStatus
  | unknown
  | validationFailed
  | unverified
  | official
deriving DecidableEq, Repr

/-- `SourceCandidateColumn.status`. -/
inductive ColumnStatus
  | discovered
  | trialCrawled
  | failed
deriving DecidableEq, Repr

/-- `SourceDiscoveryRun`. -/
structure SourceDiscoveryRun where
  status : RunStatus := .pending
  maxCandidates : ℕ
  candidateCount : ℕ := 0
  approvedCount : ℕ := 0
  activatedCount : ℕ := 0
  attemptCount : ℕ := 0
  errorMessage : Option String := none
deriving DecidableEq

/-- `SourceCandidateColumn`. -/
structure SourceCandidateColumn where
  columnKey : Text
  columnName : Text
  columnUrl : Text
  status : ColumnStatus := .discovered
  trialDiscoveredCount : ℕ := 0
  trialFetchedCount : ℕ := 0
  trialSuccessCount : ℕ := 0
  trialFailedCount : ℕ := 0
  trialAverageChars : ℕ := 0
  qualityScore : Option ℚ := none
  errorMessage : Option String := none
deriving DecidableEq

/-- `SourceCandidate`, with the rows of its columns. -/
structure SourceCandidate where
  id : ℕ
  canonicalHomepageUrl : Text
  domain : Text
  name : Text
  officialStatus : OfficialStatus := .unknown
  officialScore : Option ℚ := none
  validationStatusCode : Option ℕ := none
  validationFinalUrl : Option Text := none
  status : CandidateStatus := .discovered
  qualityScore : Option ℚ := none
  trialColumnCount : ℕ := 0
  trialDocumentCount : ℕ := 0
  trialSuccessCount : ℕ := 0
  trialFailedCount : ℕ := 0
  trialAverageChars : ℕ := 0
  rejectionReason : Option String := none
  approvedBy : Option String := none
  sourceId : Option ℕ := none
  columns : List SourceCandidateColumn := []
deriving DecidableEq

/-- `Source`; its key is `discovered-` with the id of the candidate. The columns are the ones of the
candidate that were copied. -/
structure Source where
  candidateId : ℕ
  name : Text
  domain : Text
  homepageUrl : Text
  columns : List SourceCandidateColumn
deriving DecidableEq

/-- The settings of source discovery. -/
structure Settings where
  officialSuffixes : List Text := strs [".gov.cn", ".gov", ".edu.cn"]
  trialMinChars : ℕ := 160
  maxColumns : ℕ := 12
  qualityThreshold : ℚ := Binary64.round (65 / 100)

/-! ## Official status -/

/-- What fetching the homepage gives. -/
structure Homepage where
  url : Text
  statusCode : ℕ
  text : Text

/-- `_trusted_suffix`. -/
def trustedSuffix (N : NetTools) (host : Text) (suffixes : List Text) : Bool :=
  let normalized := rstripDots (N.lower host)
  suffixes.any fun raw =>
    let suffix := rstripDots ((N.lower (strip raw)).dropWhile (· == '.'))
    suffix ≠ [] && (normalized == suffix || ('.' :: suffix).isSuffixOf normalized)

/-- `_MARKERS`. -/
def markers : List Text := strs ["政府", "政务", "人民政府", "government", "official", "gov"]

/-- What the homepage says about the candidate. -/
structure OfficialCheck where
  score : ℚ
  verified : Bool
deriving DecidableEq

/-- The host of a URL, normalised; `none` is a `ValueError` of `urlsplit`. -/
def hostOf (N : NetTools) (url : Text) : Option (Text × Url.SplitResult) :=
  (Url.urlsplit N.toTools url).map fun parsed =>
    (rstripDots (N.lower ((parsed.hostname N.toTools).getD [])), parsed)

/-- The check of `_validate_official_status`; a `ValueError` gives `none`. -/
def officialCheck (N : NetTools) (settings : Settings) (homepageUrl : Text) (response : Homepage) :
    Option OfficialCheck := do
  let (host, _) ← hostOf N homepageUrl
  let (finalHost, final) ← hostOf N response.url
  let sameHost := host ≠ [] && finalHost ≠ [] && host == finalHost
  let statusOk := 200 ≤ response.statusCode && response.statusCode < 300
  let suffix := trustedSuffix N finalHost settings.officialSuffixes
  let https := final.scheme == str "https"
  let body := N.lower (response.text.take 100000)
  let score := Binary64.round ((if suffix then Binary64.round (60 / 100) else 0)
    + (if https then 1 / 4 else 0))
  let score := Binary64.round (score
    + if Text.containsAny body markers then Binary64.round (15 / 100) else 0)
  return {
    score := Binary64.roundDigits 4 score
    verified := sameHost && statusOk && suffix && https }

/-- The candidate whose homepage could not be fetched. -/
def homepageFailed (error : String) (c : SourceCandidate) : SourceCandidate :=
  { c with
    status := .validationFailed
    officialStatus := .validationFailed
    rejectionReason := some error }

/-- The candidate after the check of its homepage. -/
def validated (response : Homepage) (check : OfficialCheck) (c : SourceCandidate) :
    SourceCandidate :=
  let c := { c with
    validationStatusCode := some response.statusCode
    validationFinalUrl := some response.url
    officialScore := some check.score }
  if check.verified then { c with officialStatus := .official, status := .validated }
  else
    { c with
      officialStatus := .unverified
      status := .validationFailed
      rejectionReason := some "OFFICIAL_STATUS_NOT_VERIFIED" }

/-! ## Columns -/

/-- `_ColumnHit`, as far as it reaches the row. -/
structure ColumnHit where
  key : Text
  label : Text
  url : Text

/-- The columns that `_discover_columns` stores for the hits, best first. -/
def discoveredColumns (settings : Settings) (hits : List ColumnHit) : List SourceCandidateColumn :=
  (hits.take settings.maxColumns).map fun hit =>
    { columnKey := hit.key
      columnName := if hit.label.take 255 = [] then hit.key else hit.label.take 255
      columnUrl := hit.url }

/-- The candidate after `_discover_columns` and the check for an empty result. -/
def withColumns (columns : List SourceCandidateColumn) (c : SourceCandidate) : SourceCandidate :=
  if columns = [] then
    { c with status := .failed, rejectionReason := some "NO_POLICY_COLUMNS_DISCOVERED" }
  else { c with status := .columnsDiscovered, columns := c.columns ++ columns }

/-! ## Trial crawls -/

/-- What the trial crawl of a column finds: for each detail page that is tried the length of its
text if the document is accepted. -/
abbrev Trial := List (Option ℕ)

/-- `round` of a quotient. -/
def roundQuotient (x y : ℕ) : ℕ := (Binary64.nearest (Binary64.div x y)).toNat

/-- How long texts are, as a share of what is asked for. -/
def richness (settings : Settings) (averageChars : ℕ) : ℚ :=
  min (Binary64.div averageChars (max (settings.trialMinChars * 2) 1)) 1

/-- The column after its trial crawl. -/
def trialCrawled (settings : Settings) (trial : Trial) (column : SourceCandidateColumn) :
    SourceCandidateColumn :=
  if trial = [] then
    { column with
      trialDiscoveredCount := 0
      trialFetchedCount := 0
      trialSuccessCount := 0
      trialFailedCount := 1
      trialAverageChars := 0
      qualityScore := some 0
      status := .failed
      errorMessage := some "NO_DETAIL_LINKS" }
  else
    let chars := trial.reduceOption
    let success := chars.length
    let averageChars := if chars = [] then 0 else roundQuotient chars.sum chars.length
    let quality := Binary64.roundDigits 4 (Binary64.round
      (1 / 2 * Binary64.div success trial.length + 1 / 2 * richness settings averageChars))
    { column with
      trialDiscoveredCount := trial.length
      trialFetchedCount := trial.length
      trialSuccessCount := success
      trialFailedCount := trial.length - success
      trialAverageChars := averageChars
      qualityScore := some quality
      status := if 0 < success then .trialCrawled else .failed
      errorMessage := if 0 < success then none else some "NO_RELEVANT_DETAIL_DOCUMENTS" }

/-- The column after an exception of its trial crawl. -/
def trialFailed (error : String) (column : SourceCandidateColumn) : SourceCandidateColumn :=
  { column with status := .failed, errorMessage := some error }

/-! ## Quality -/

/-- The figures of `_score_candidate`. -/
structure Scoring where
  documents : ℕ
  success : ℕ
  failed : ℕ
  averageChars : ℕ
  quality : ℚ

/-- The quality formula, each product and each sum rounded. -/
def qualityOf (official columns trials richness : ℚ) : ℚ :=
  let sum := Binary64.round (Binary64.round (Binary64.round (35 / 100) * official)
    + Binary64.round (Binary64.round (15 / 100) * columns))
  let sum := Binary64.round (sum + 1 / 4 * trials)
  Binary64.roundDigits 4 (Binary64.round (sum + 1 / 4 * richness))

/-- What `_score_candidate` computes from the columns. -/
def scoring (settings : Settings) (officialScore : ℚ) (columns : List SourceCandidateColumn) :
    Scoring :=
  let documents := (columns.map (·.trialDiscoveredCount)).sum
  let success := (columns.map (·.trialSuccessCount)).sum
  let chars := (columns.map (·.trialAverageChars)).filter (· ≠ 0)
  let averageChars := roundQuotient chars.sum (max chars.length 1)
  { documents := documents
    success := success
    failed := (columns.map (·.trialFailedCount)).sum
    averageChars := averageChars
    quality := qualityOf officialScore (min (Binary64.div columns.length 2) 1)
      (Binary64.div success (max documents 1)) (richness settings averageChars) }

/-- The candidate after `_score_candidate`. -/
def scored (settings : Settings) (c : SourceCandidate) : SourceCandidate :=
  let s := scoring settings (c.officialScore.getD 0) c.columns
  let c := { c with
    trialColumnCount := c.columns.length
    trialDocumentCount := s.documents
    trialSuccessCount := s.success
    trialFailedCount := s.failed
    trialAverageChars := s.averageChars
    qualityScore := some s.quality }
  if settings.qualityThreshold ≤ s.quality then
    { c with status := .pendingApproval, rejectionReason := none }
  else { c with status := .rejected, rejectionReason := some "QUALITY_SCORE_BELOW_THRESHOLD" }

/-! ## Other changes of a row -/

/-- `reset_candidate_for_retry`. -/
def resetForRetry (c : SourceCandidate) : SourceCandidate :=
  { id := c.id
    canonicalHomepageUrl := c.canonicalHomepageUrl
    domain := c.domain
    name := c.name }

/-- The handler of `_process_candidate`. -/
def processingFailed (error : String) (c : SourceCandidate) : SourceCandidate :=
  { c with status := .failed, rejectionReason := some error }

/-- The values of `approve_candidate`. -/
def approved (reviewer : String) (c : SourceCandidate) : SourceCandidate :=
  { c with status := .approved, approvedBy := some reviewer }

/-- The values of `reject_candidate`. -/
def rejected (reviewer reason : String) (c : SourceCandidate) : SourceCandidate :=
  { c with
    status := .rejected
    rejectionReason := some (reviewer ++ ": " ++ reason)
    approvedBy := none }

/-- The values of `claim_candidate_activation`. -/
def activating (c : SourceCandidate) : SourceCandidate := { c with status := .activating }

/-- The candidate of a source that was added. -/
def activated (sourceId : ℕ) (c : SourceCandidate) : SourceCandidate :=
  { c with status := .activated, sourceId := some sourceId }

/-- `_mark_activation_failed`. -/
def activationFailed (reason : String) (c : SourceCandidate) : SourceCandidate :=
  { c with status := .failed, rejectionReason := some ("ACTIVATION_FAILED:" ++ reason) }

/-- The source of a candidate: the columns whose trial crawl succeeded. -/
def sourceOf (c : SourceCandidate) : Source where
  candidateId := c.id
  name := c.name.take 255
  domain := c.domain
  homepageUrl :=
    match c.validationFinalUrl with
    | some url => if url = [] then c.canonicalHomepageUrl else url
    | none => c.canonicalHomepageUrl
  columns := c.columns.filter fun column => column.status = .trialCrawled

/-! ## What the functions keep -/

/-- The statuses of a candidate that may become or is a source. -/
def CandidateStatus.gated : CandidateStatus → Bool
  | .pendingApproval | .approved | .activating | .activated => true
  | _ => false

/-- The statuses that need an approval. -/
def CandidateStatus.needsApproval : CandidateStatus → Bool
  | .approved | .activating | .activated => true
  | _ => false

/-- A column marked as tried has been tried with success. -/
def SourceCandidateColumn.Sound (column : SourceCandidateColumn) : Prop :=
  column.status = .trialCrawled → 0 < column.trialSuccessCount

/-- The gate: a candidate that may become a source is official and good enough, an approved one has
been approved by somebody, and its columns are what they are marked as. -/
structure SourceCandidate.Gate (settings : Settings) (c : SourceCandidate) : Prop where
  official : c.status.gated → c.officialStatus = .official
  quality : c.status.gated → ∃ q, c.qualityScore = some q ∧ settings.qualityThreshold ≤ q
  approvedBy : c.status.needsApproval → c.approvedBy.isSome
  columns : ∀ column ∈ c.columns, column.Sound

theorem sound_trialCrawled (settings : Settings) (trial : Trial) (column : SourceCandidateColumn) :
    (trialCrawled settings trial column).Sound := by
  unfold trialCrawled SourceCandidateColumn.Sound
  split
  · nofun
  · intro h
    by_contra hzero
    simp only [if_neg hzero] at h
    cases h

theorem sound_trialFailed (error : String) (column : SourceCandidateColumn) :
    (trialFailed error column).Sound := nofun

namespace SourceCandidate.Gate

variable {settings : Settings} {c : SourceCandidate}

/-- A candidate that is none of those the gate is about. -/
theorem of_not_gated (hgated : c.status.gated = false)
    (hcolumns : ∀ column ∈ c.columns, column.Sound) : c.Gate settings where
  official h := absurd h (by simp [hgated])
  quality h := absurd h (by simp [hgated])
  approvedBy h := absurd h (by cases hs : c.status <;> simp_all [CandidateStatus.gated,
    CandidateStatus.needsApproval])
  columns := hcolumns

/-- A change of the status to one that the gate is not about. -/
theorem leave {c' : SourceCandidate} (h : c.Gate settings) (hgated : c'.status.gated = false)
    (hcolumns : c'.columns = c.columns) : c'.Gate settings :=
  of_not_gated hgated (hcolumns ▸ h.columns)

theorem homepageFailed (h : c.Gate settings) (error : String) :
    (Discovery.homepageFailed error c).Gate settings := h.leave rfl rfl

theorem validated (h : c.Gate settings) (response : Homepage) (check : OfficialCheck) :
    (Discovery.validated response check c).Gate settings := by
  unfold Discovery.validated
  split
  · exact h.leave rfl rfl
  · exact h.leave rfl rfl

theorem withColumns (h : c.Gate settings) (hits : List ColumnHit) :
    (Discovery.withColumns (discoveredColumns settings hits) c).Gate settings := by
  unfold Discovery.withColumns
  split
  · exact h.leave rfl rfl
  · refine of_not_gated rfl fun column hcolumn => ?_
    rcases List.mem_append.mp hcolumn with hold | hnew
    · exact h.columns column hold
    · obtain ⟨hit, -, rfl⟩ := List.mem_map.mp hnew
      nofun

/-- One column changes to a sound one. -/
theorem modifyColumn (h : c.Gate settings) (index : ℕ)
    {f : SourceCandidateColumn → SourceCandidateColumn} (hf : ∀ column, (f column).Sound) :
    { c with columns := c.columns.modify index f }.Gate settings where
  official := h.official
  quality := h.quality
  approvedBy := h.approvedBy
  columns column hcolumn := by
    obtain ⟨k, hk, rfl⟩ := List.mem_iff_getElem.mp hcolumn
    rw [List.getElem_modify]
    split
    · exact hf _
    · exact h.columns _ (List.getElem_mem _)

/-- Scoring an official candidate keeps the gate. -/
theorem scored (h : c.Gate settings) (hofficial : c.officialStatus = .official) :
    (Discovery.scored settings c).Gate settings := by
  unfold Discovery.scored
  dsimp only
  split
  · next hquality =>
      exact ⟨fun _ => hofficial, fun _ => ⟨_, rfl, hquality⟩, nofun, h.columns⟩
  · exact h.leave rfl rfl

theorem resetForRetry (c : SourceCandidate) : (Discovery.resetForRetry c).Gate settings :=
  of_not_gated rfl nofun

theorem processingFailed (h : c.Gate settings) (error : String) :
    (Discovery.processingFailed error c).Gate settings := h.leave rfl rfl

/-- Approving a candidate that waits for it keeps the gate. -/
theorem approved (h : c.Gate settings) (hstatus : c.status = .pendingApproval) (reviewer : String) :
    (Discovery.approved reviewer c).Gate settings where
  official _ := h.official (by rw [hstatus]; rfl)
  quality _ := h.quality (by rw [hstatus]; rfl)
  approvedBy _ := rfl
  columns := h.columns

theorem rejected (h : c.Gate settings) (reviewer reason : String) :
    (Discovery.rejected reviewer reason c).Gate settings := h.leave rfl rfl

/-- Claiming an approved candidate keeps the gate. -/
theorem activating (h : c.Gate settings) (hstatus : c.status = .approved) :
    (Discovery.activating c).Gate settings where
  official _ := h.official (by rw [hstatus]; rfl)
  quality _ := h.quality (by rw [hstatus]; rfl)
  approvedBy _ := h.approvedBy (by rw [hstatus]; rfl)
  columns := h.columns

/-- Activating a claimed candidate keeps the gate. -/
theorem activated (h : c.Gate settings) (hstatus : c.status = .activating) (sourceId : ℕ) :
    (Discovery.activated sourceId c).Gate settings where
  official _ := h.official (by rw [hstatus]; rfl)
  quality _ := h.quality (by rw [hstatus]; rfl)
  approvedBy _ := h.approvedBy (by rw [hstatus]; rfl)
  columns := h.columns

theorem activationFailed (h : c.Gate settings) (reason : String) :
    (Discovery.activationFailed reason c).Gate settings := h.leave rfl rfl

end SourceCandidate.Gate

/-- A source as it has to be: with a column, and only with columns that were tried with success. -/
structure Source.Sound (source : Source) : Prop where
  nonempty : source.columns ≠ []
  tried : ∀ column ∈ source.columns, column.status = .trialCrawled ∧ 0 < column.trialSuccessCount

theorem sound_sourceOf {settings : Settings} {c : SourceCandidate} (h : c.Gate settings)
    (hcolumns : (sourceOf c).columns ≠ []) : (sourceOf c).Sound := by
  refine ⟨hcolumns, fun column hcolumn => ?_⟩
  have hmem := List.mem_filter.mp hcolumn
  have hstatus : column.status = .trialCrawled := by simpa using hmem.2
  exact ⟨hstatus, h.columns column hmem.1 hstatus⟩

end Odirag.Discovery
