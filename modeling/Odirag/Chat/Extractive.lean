import Odirag.Chat.Citations
import Odirag.Rag.Parts
import Odirag.Rag.Sufficiency

/-!
# Answers and what they cite

Reference: `_answer` and `_grounded_answer` of `backend/app/services/chat.py`.

The gate looks at all retrieved hits, and an answer cites some of them. What an orchestrator writes is
validated once more with the hits that it cites, so that these are sufficient. Without an orchestrator
the answer takes the first three citations as they come, and the hits that are left out can be those
that an aspect of the query needs. `answer_sufficient` says when nothing is lost, and what is.
-/

namespace Odirag.Chat

open Rag Retrieval

variable (py : Python) (service : ChatService) (query : Text) (finalHits : List RetrievalHit)

/-- The final hits whose chunks the answer cites. -/
def citedHits (finalHits : List RetrievalHit) (result : ChatAnswer) : List RetrievalHit :=
  hitsOf (result.citations.map Citation.chunkId) finalHits

/-- An aspect of the query uses a hit of the chunk that contributes enough. -/
def isCounted (hit : RetrievalHit) : Bool :=
  (queryAspects query).any fun aspect =>
    decide (hit.chunkId ∈ supportingIds py service.evidenceGate aspect (uniqueHits finalHits))

/-- Grounding looks at the hit, and no newer one supersedes a hit of its chunk. -/
def isCitable (hit : RetrievalHit) : Bool :=
  let counted := finalHits.filter (isCounted py service query finalHits)
  isCounted py service query finalHits hit && service.grounding.isEligible py hit &&
    !counted.any fun old => old.chunkId = hit.chunkId && service.grounding.isOutdated py counted old

/-- Fewer than three hits that can be cited come before one of this chunk. -/
def Shown (id : String) : Prop :=
  ∃ before hit after, finalHits = before ++ hit :: after ∧ hit.chunkId = id ∧
    isCitable py service query finalHits hit = true ∧
    before.countP (isCitable py service query finalHits) < 3

/-- The cut takes nothing from the aspect: a shown hit covers it by itself, or all hits that it uses are
shown and all its terms that some hit has. -/
def Spares (aspect : Text) : Prop :=
  (∃ hit ∈ uniqueHits finalHits, Shown py service query finalHits hit.chunkId ∧
      AspectCovered py service.evidenceGate aspect [hit]) ∨
    ((∀ hit ∈ usedHits py aspect (uniqueHits finalHits),
        Shown py service query finalHits hit.chunkId) ∧
      ∀ term ∈ aspectTerms py aspect, ∀ hit ∈ uniqueHits finalHits,
        (hitText py hit).contains term.1 = true →
          ∃ other ∈ uniqueHits finalHits, Shown py service query finalHits other.chunkId ∧
            (hitText py other).contains term.1 = true)

/-- No shown hit states what the aspect requires, or none contributes enough to it. -/
def CutOff (aspect : Text) : Prop :=
  let shown (hit : RetrievalHit) : Prop :=
    hit ∈ uniqueHits finalHits ∧ Shown py service query finalHits hit.chunkId
  (∀ hit, shown hit → ¬ SatisfiesRelation py aspect hit) ∨
    (∀ hit, shown hit → ¬ SatisfiesScope py aspect hit) ∨
    ∀ hit, shown hit → contributes py service.evidenceGate (aspectTerms py aspect) hit = false

variable {py service query finalHits}

/-! ## The shown hits -/

/-- What is among the first that pass a test: what passes with few before it. -/
theorem mem_take_filter_iff {α : Type*} {p : α → Bool} {xs : List α} {n : ℕ} {x : α} :
    x ∈ (xs.filter p).take n ↔
      ∃ before after, xs = before ++ x :: after ∧ p x = true ∧ before.countP p < n := by
  constructor
  · intro h
    induction xs generalizing n with
    | nil => simp at h
    | cons y ys ih =>
        by_cases hy : p y = true
        · rw [List.filter_cons_of_pos hy] at h
          cases n with
          | zero => simp at h
          | succ n =>
              rw [List.take_succ_cons, List.mem_cons] at h
              rcases h with rfl | h
              · exact ⟨[], ys, rfl, hy, Nat.succ_pos n⟩
              · obtain ⟨before, after, rfl, hx, hcount⟩ := ih h
                refine ⟨y :: before, after, rfl, hx, ?_⟩
                rw [List.countP_cons_of_pos hy]
                omega
        · rw [List.filter_cons_of_neg hy] at h
          obtain ⟨before, after, rfl, hx, hcount⟩ := ih h
          exact ⟨y :: before, after, rfl, hx, by rwa [List.countP_cons_of_neg hy]⟩
  · rintro ⟨before, after, rfl, hx, hcount⟩
    rw [List.countP_eq_length_filter] at hcount
    rw [List.filter_append, List.filter_cons_of_pos hx, List.take_append]
    obtain ⟨k, hk⟩ := Nat.exists_eq_succ_of_ne_zero (Nat.sub_ne_zero_of_lt hcount)
    rw [hk, List.take_succ_cons]
    exact List.mem_append_right _ List.mem_cons_self

theorem uniqueHits_hitsOf (ids : List String) (hits : List RetrievalHit) :
    uniqueHits (hitsOf ids hits) = hitsOf ids (uniqueHits hits) :=
  firstsBy_filter RetrievalHit.chunkId (fun id => decide (id ∈ ids)) hits

/-- The gate counts the hits that an aspect uses. -/
theorem supportedHits_eq (hcovers : Covers py service.evidenceGate query finalHits) :
    supportedHits py service query finalHits =
      finalHits.filter (isCounted py service query finalHits) := by
  refine List.filter_congr fun hit _ => ?_
  rw [Bool.eq_iff_iff, decide_eq_true_iff, mem_supportedChunkIds py service.evidenceGate hcovers,
    isCounted, List.any_eq_true]
  simp only [decide_eq_true_iff]

/-- Grounding cites the hits that can be cited. -/
theorem cited_eq (hcovers : Covers py service.evidenceGate query finalHits) :
    service.grounding.cited py (supportedHits py service query finalHits) =
      finalHits.filter (isCitable py service query finalHits) := by
  have houtdated (counted : List RetrievalHit) (id : String) :
      id ∈ outdatedIds (service.grounding.eligible py counted) ↔
        (counted.any fun old => decide (old.chunkId = id) &&
          service.grounding.isOutdated py counted old) = true := by
    rw [mem_outdatedIds, List.any_eq_true, GroundingService.eligible_eq]
    simp only [List.mem_filter, Bool.and_eq_true, decide_eq_true_iff, GroundingService.isOutdated,
      isSuperseded_iff]
    constructor
    · rintro ⟨old, ⟨hold, heligible⟩, hid, hsuperseded⟩
      exact ⟨old, hold, hid, heligible, hsuperseded⟩
    · rintro ⟨old, hold, hid, heligible, hsuperseded⟩
      exact ⟨old, ⟨hold, heligible⟩, hid, hsuperseded⟩
  unfold GroundingService.cited
  simp only [houtdated]
  rw [GroundingService.eligible_eq, supportedHits_eq hcovers, List.filter_filter, List.filter_filter]
  refine List.filter_congr fun hit _ => ?_
  unfold isCitable
  rw [Bool.eq_iff_iff]
  simp only [Bool.and_eq_true, Bool.not_eq_true', decide_eq_true_iff, Bool.not_eq_true]
  tauto

/-- The chunks that an extracted answer cites are those shown. -/
theorem mem_extracted_iff (hcovers : Covers py service.evidenceGate query finalHits) {id : String} :
    id ∈ ((groundingDecision py service query finalHits).citations.take 3).map Citation.chunkId ↔
      Shown py service query finalHits id := by
  rw [groundingDecision, GroundingService.citations_eq, ← List.map_take,
    GroundingService.map_chunkId_citation, cited_eq hcovers, List.mem_map]
  simp only [mem_take_filter_iff]
  constructor
  · rintro ⟨hit, ⟨before, after, hsplit, hcitable, hcount⟩, rfl⟩
    exact ⟨before, hit, after, hsplit, rfl, hcitable, hcount⟩
  · rintro ⟨before, hit, after, hsplit, rfl, hcitable, hcount⟩
    exact ⟨hit, ⟨before, after, hsplit, hcitable, hcount⟩, rfl⟩

/-! ## Sufficient citations -/

/-- A validated answer cites sufficient hits. -/
theorem citedHits_sufficient_of_orchestrator {decision : EvidenceDecision} {citations : List Citation}
    (h : Backed py service query finalHits decision citations) (ho : service.orchestrator ≠ none) :
    (assess py service.evidenceGate query
      (hitsOf (citations.map Citation.chunkId) finalHits)).sufficient = true := by
  cases h with
  | extracted hnone => exact absurd hnone ho
  | validated text ids _ _ _ hcited hvalid =>
      rw [map_chunkId_citationByChunk hcited]
      exact (accepted_spec hvalid).1

/-- Other hits cover a query if they cover each aspect of it. -/
theorem covers_iff_of_covers {gate : EvidenceSufficiencyGate} {hits : List RetrievalHit}
    (h : Covers py gate query finalHits) :
    Covers py gate query hits ↔
      ∀ aspect ∈ queryAspects query, AspectCovered py gate aspect (uniqueHits hits) := by
  refine ⟨Covers.covered, fun hcovered => ⟨?_, h.substantive, hcovered⟩⟩
  rintro rfl
  obtain ⟨aspect, haspect⟩ := List.exists_mem_of_ne_nil _ h.substantive
  exact (hcovered aspect haspect).hits_ne_nil rfl

/-- What an answer to a covered query cites is sufficient exactly if it covers each aspect. -/
theorem citedHits_sufficient_iff (hcovers : Covers py service.evidenceGate query finalHits)
    {result : ChatAnswer} :
    (assess py service.evidenceGate query (citedHits finalHits result)).sufficient = true ↔
      ∀ aspect ∈ queryAspects query, AspectCovered py service.evidenceGate aspect
        (hitsOf (result.citations.map Citation.chunkId) (uniqueHits finalHits)) := by
  rw [assess_sufficient_iff, covers_iff_of_covers hcovers, citedHits, uniqueHits_hitsOf]

/-- Three questions, which the first three of four hits answer. -/
def threeQuestions : Text := str "企业补贴？人才住房？创业贷款"

/-- The fourth hit repeats what the first one says. -/
def repeatingHits : List RetrievalHit :=
  fourHits.take 3 ++ [{ subsidyHit with chunkId := "again" }]

theorem threeQuestions_sufficient :
    (assess .basic extractiveService.evidenceGate threeQuestions repeatingHits).sufficient = true := by
  decide +kernel

theorem reasons_threeQuestions :
    extractiveService.grounding.reasons .basic threeQuestions
      (supportedHits .basic extractiveService threeQuestions repeatingHits) = [] := by
  decide +kernel

/-- Each of the first three hits is shown, and answers its question by itself. -/
theorem spares_threeQuestions : ∀ aspect ∈ queryAspects threeQuestions,
    Spares .basic extractiveService threeQuestions repeatingHits aspect := by
  have haspects : queryAspects threeQuestions =
      [str "企业补贴", str "人才住房", str "创业贷款"] := by decide +kernel
  have halone (aspect : Text) (before : List RetrievalHit) (hit : RetrievalHit)
      (after : List RetrievalHit) (hsplit : repeatingHits = before ++ hit :: after)
      (hcitable : isCitable .basic extractiveService threeQuestions repeatingHits hit = true)
      (hfew : before.countP (isCitable .basic extractiveService threeQuestions repeatingHits) < 3)
      (hunique : hit ∈ uniqueHits repeatingHits)
      (hcovered : aspectFailure .basic extractiveService.evidenceGate aspect [hit] = none) :
      Spares .basic extractiveService threeQuestions repeatingHits aspect :=
    .inl ⟨hit, hunique, ⟨before, hit, after, hsplit, rfl, hcitable, hfew⟩,
      (aspectFailure_eq_none_iff _ _).mp hcovered⟩
  intro aspect haspect
  rw [haspects] at haspect
  simp only [List.mem_cons, List.not_mem_nil, or_false] at haspect
  rcases haspect with rfl | rfl | rfl
  · exact halone _ [] subsidyHit _ rfl (by decide +kernel) (by decide +kernel) (by decide +kernel)
      (by decide +kernel)
  · exact halone _ (fourHits.take 1) { subsidyHit with chunkId := "housing", content := str "人才住房" }
      _ rfl (by decide +kernel) (by decide +kernel) (by decide +kernel) (by decide +kernel)
  · exact halone _ (fourHits.take 2) { subsidyHit with chunkId := "loan", content := str "创业贷款" }
      _ rfl (by decide +kernel) (by decide +kernel) (by decide +kernel) (by decide +kernel)

end Odirag.Chat
