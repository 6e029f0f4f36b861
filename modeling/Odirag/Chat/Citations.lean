import Odirag.Chat.Service

/-!
# Refusals and citations

Reference: `_answer` and `_grounded_answer` of `backend/app/services/chat.py`.

Each citation of an answer is one of grounding (`Backed.subset`), and grounding cites hits that the gate
counts. Since a sufficient decision of grounding always has a citation, an answer that is not a refusal
has one too, whichever way it takes its citations.
-/

namespace Odirag.Chat

open Rag Retrieval

variable {py : Python} {service : ChatService} {query : Text} {finalHits : List RetrievalHit}
  {decision : EvidenceDecision} {citations : List Citation}

theorem Backed.subset (h : Backed py service query finalHits decision citations) :
    ∀ citation ∈ citations, citation ∈ decision.citations := by
  intro citation hcitation
  cases h with
  | extracted _ => exact List.mem_of_mem_take hcitation
  | validated _ ids _ _ _ _ _ =>
      obtain ⟨id, -, hid⟩ := List.mem_filterMap.mp hcitation
      exact (citationByChunk_spec hid).1

theorem Backed.ne_nil (h : Backed py service query finalHits decision citations)
    (hne : decision.citations ≠ []) : citations ≠ [] := by
  cases h with
  | extracted _ => simpa using hne
  | validated _ ids _ hids _ hcited _ =>
      intro hnil
      have hmap := map_chunkId_citationByChunk hcited
      rw [hnil, List.map_nil] at hmap
      exact hids hmap.symm

theorem Backed.nodup (h : Backed py service query finalHits decision citations)
    (hids : (decision.citations.map Citation.chunkId).Nodup) :
    (citations.map Citation.chunkId).Nodup := by
  cases h with
  | extracted _ => exact hids.sublist ((List.take_sublist 3 _).map _)
  | validated _ ids _ _ hdistinct hcited _ =>
      rw [map_chunkId_citationByChunk hcited]
      exact hdistinct

/-- What holds of each citation of an answer. -/
structure Cited (py : Python) (service : ChatService) (query : Text) (finalHits : List RetrievalHit)
    (citation : Citation) : Prop where
  supported : citation.chunkId ∈ (assess py service.evidenceGate query finalHits).supportedChunkIds
  /-- It is of a final hit, which is official if that is required. -/
  hit : ∃ hit ∈ finalHits, service.grounding.citation hit = citation ∧
    (service.grounding.requireOfficialSource = true → isOfficial py hit = true)
  /-- Among the counted hits that grounding looks at, no newer one supersedes it. -/
  current : citation.chunkId ∉
    outdatedIds (service.grounding.eligible py (supportedHits py service query finalHits))

theorem cited_of_mem_citations {citation : Citation}
    (h : citation ∈ (groundingDecision py service query finalHits).citations) :
    Cited py service query finalHits citation := by
  rw [groundingDecision, GroundingService.citations_eq] at h
  obtain ⟨hit, hhit, rfl⟩ := List.mem_map.mp h
  obtain ⟨heligible, hcurrent⟩ := List.mem_filter.mp hhit
  obtain ⟨hmem, hid⟩ := mem_hitsOf.mp (GroundingService.eligible_sublist.subset heligible)
  exact ⟨hid, ⟨hit, hmem, rfl, (GroundingService.scored_of_mem_eligible heligible).2⟩,
    of_decide_eq_true hcurrent⟩

/-- The hits of distinct chunks that the gate counts are of distinct chunks. -/
theorem nodup_supportedHits (hids : (finalHits.map RetrievalHit.chunkId).Nodup) :
    ((supportedHits py service query finalHits).map RetrievalHit.chunkId).Nodup :=
  hids.sublist (List.filter_sublist.map _)

/-- An answer on a path with retrieval is a refusal exactly if it cites nothing, and it cites current
chunks that the gate counts, no one twice. -/
theorem refusal_iff_no_citations {queryType : QueryType} (hpath : queryType ≠ .sql) {count : ℕ}
    (hminimum : 1 ≤ service.grounding.minimumHits)
    (hids : (finalHits.map RetrievalHit.chunkId).Nodup) {result : ChatAnswer}
    (h : answer py service queryType count query finalHits = .ok result) :
    (result.refusal = true ↔ result.citations = []) ∧
      (∀ citation ∈ result.citations, Cited py service query finalHits citation) ∧
      (result.citations.map Citation.chunkId).Nodup := by
  rcases answer_spec hpath h with ⟨hrefusal, hnil⟩ | ⟨hanswer, hgate, hgrounding, hbacked⟩
  · rw [hrefusal, hnil]
    exact ⟨iff_of_true rfl rfl, fun citation hcitation => absurd hcitation List.not_mem_nil,
      List.nodup_nil⟩
  have hcitations : (groundingDecision py service query finalHits).citations ≠ [] :=
    GroundingService.citations_ne_nil (nodup_supportedHits hids)
      (GroundingService.eligible_ne_nil hminimum hgrounding)
  have hdistinct : ((groundingDecision py service query finalHits).citations.map
      Citation.chunkId).Nodup := by
    rw [groundingDecision, GroundingService.citations_eq, GroundingService.map_chunkId_citation]
    exact (nodup_supportedHits hids).sublist (GroundingService.cited_sublist.map _)
  refine ⟨?_, fun citation hcitation => cited_of_mem_citations (hbacked.subset citation hcitation),
    hbacked.nodup hdistinct⟩
  rw [hanswer]
  exact iff_of_false (by decide) (hbacked.ne_nil hcitations)

/-! ## Four hits for four questions -/

/-- An official hit that answers the first question. -/
def subsidyHit : RetrievalHit where
  chunkId := "subsidy"
  documentId := "1"
  content := str "企业补贴"
  title := str "通知"
  sourceUrl := []
  score := .finite 1
  source := str "bm25"
  metadata := [("official_status", .str (str "official"))]

/-- Hits for each question. -/
def fourHits : List RetrievalHit :=
  [subsidyHit, { subsidyHit with chunkId := "housing", content := str "人才住房" },
    { subsidyHit with chunkId := "loan", content := str "创业贷款" },
    { subsidyHit with chunkId := "training", content := str "职业培训" }]

/-- A query of four aspects. -/
def fourQuestions : Text := str "企业补贴？人才住房？创业贷款？职业培训"

/-- A service with the default bounds and without an orchestrator. -/
def extractiveService : ChatService where
  evidenceGate := .default
  grounding :=
    { minimumHits := 1, minimumScore := .finite 0, quoteChars := 220, requireOfficialSource := true
      refuseOnConflict := true }
  orchestrator := none

theorem fourQuestions_sufficient :
    (assess .basic .default fourQuestions fourHits).sufficient = true ∧
      (assess .basic .default fourQuestions fourHits).supportedChunkIds =
        ["subsidy", "housing", "loan", "training"] := by
  decide +kernel

/-- All four hits can be cited. -/
theorem groundingDecision_fourQuestions :
    (groundingDecision .basic extractiveService fourQuestions fourHits).sufficient = true ∧
      (groundingDecision .basic extractiveService fourQuestions fourHits).citations.map
        Citation.chunkId = ["subsidy", "housing", "loan", "training"] := by
  have hhits : supportedHits .basic extractiveService fourQuestions fourHits = fourHits := by
    have hids : (assess .basic extractiveService.evidenceGate fourQuestions fourHits).supportedChunkIds =
        _ := fourQuestions_sufficient.2
    rw [supportedHits, hids]
    decide
  rw [groundingDecision, hhits]
  decide +kernel

/-- The four questions are answered with citations. -/
theorem refusal_iff_no_citations_fourQuestions :
    ∃ result, answer .basic extractiveService .rag 0 fourQuestions fourHits = .ok result ∧
      (result.refusal = true ↔ result.citations = []) ∧
      (∀ citation ∈ result.citations,
        Cited .basic extractiveService fourQuestions fourHits citation) ∧
      (result.citations.map Citation.chunkId).Nodup := by
  obtain ⟨result, hresult, -⟩ := exists_answer_of_extractive (by decide : QueryType.rag ≠ .sql) 0
    (rfl : extractiveService.orchestrator = none) fourQuestions_sufficient.1
    groundingDecision_fourQuestions.1
  exact ⟨result, hresult, refusal_iff_no_citations (by decide) (by decide) (by decide) hresult⟩

end Odirag.Chat
