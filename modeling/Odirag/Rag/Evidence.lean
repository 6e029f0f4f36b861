import Odirag.Rag.Scope
import Odirag.Retrieval.Hit

/-!
# The evidence gate

Reference: `EvidenceSufficiencyGate` of `backend/app/rag/evidence.py`.

`EvidenceSufficiencyGate.assess` decides whether retrieved hits answer a query: each aspect of the
query must be supported, and an aspect is checked on the hits that satisfy its relation and its scope.
What one aspect does is one function here, in the order of the source's checks.
-/

namespace Odirag.Rag

open Regex
open Documents (isSpace)
open Retrieval

/-- The reasons that a decision can give. -/
inductive Reason where
  | noRetrievedEvidence
  | queryHasNoSubstantiveAspects
  | queryAspectHasNoAnchor
  | evidenceConstraintMismatch
  | evidenceMissingRequiredRelation
  | evidenceMissingRequiredScopeTarget
  | evidenceMissingRequiredAnswerShape
  | insufficientEvidenceRelevance
  | evidenceAspectSupported
  | evidenceCoversAllQueryAspects
  | citationsDoNotCoverQuery
  | answerContainsUnsupportedRelation
  | answerContainsUnsupportedScopeTarget
  | answerContainsUnsupportedScopePolarity
  | answerMissingRequiredShape
  | answerContainsUnsupportedExactValues
  | answerContainsUnsupportedClaim
  | answerNotSupportedByCitations
  | answerSupportedByCitations
  deriving DecidableEq, Repr

/-- The text of a reason. -/
def Reason.text : Reason → String
  | noRetrievedEvidence => "no_retrieved_evidence"
  | queryHasNoSubstantiveAspects => "query_has_no_substantive_aspects"
  | queryAspectHasNoAnchor => "query_aspect_has_no_anchor"
  | evidenceConstraintMismatch => "evidence_constraint_mismatch"
  | evidenceMissingRequiredRelation => "evidence_missing_required_relation"
  | evidenceMissingRequiredScopeTarget => "evidence_missing_required_scope_target"
  | evidenceMissingRequiredAnswerShape => "evidence_missing_required_answer_shape"
  | insufficientEvidenceRelevance => "insufficient_evidence_relevance"
  | evidenceAspectSupported => "evidence_aspect_supported"
  | evidenceCoversAllQueryAspects => "evidence_covers_all_query_aspects"
  | citationsDoNotCoverQuery => "citations_do_not_cover_query"
  | answerContainsUnsupportedRelation => "answer_contains_unsupported_relation"
  | answerContainsUnsupportedScopeTarget => "answer_contains_unsupported_scope_target"
  | answerContainsUnsupportedScopePolarity => "answer_contains_unsupported_scope_polarity"
  | answerMissingRequiredShape => "answer_missing_required_shape"
  | answerContainsUnsupportedExactValues => "answer_contains_unsupported_exact_values"
  | answerContainsUnsupportedClaim => "answer_contains_unsupported_claim"
  | answerNotSupportedByCitations => "answer_not_supported_by_citations"
  | answerSupportedByCitations => "answer_supported_by_citations"

structure EvidenceSufficiencyDecision where
  sufficient : Bool
  confidence : ℚ
  reason : Reason
  supportedChunkIds : List String
  unsupportedAspects : List Text
  deriving DecidableEq

/-- `_AspectAssessment`. -/
structure AspectAssessment where
  aspect : Text
  supported : Bool
  confidence : ℚ
  reason : Reason
  supportingChunkIds : List String
  deriving DecidableEq

/-- The gate with its bounds, which the constructor checks. -/
structure EvidenceSufficiencyGate where
  minimumConfidence : ℚ
  minimumHitContribution : ℚ
  minimumAnswerOverlap : ℚ
  minimumConfidence_mem : 0 < minimumConfidence ∧ minimumConfidence ≤ 1
  minimumHitContribution_mem : 0 < minimumHitContribution ∧ minimumHitContribution ≤ 1
  minimumAnswerOverlap_mem : Binary64.round (1 / 5) ≤ minimumAnswerOverlap ∧ minimumAnswerOverlap ≤ 1

/-- The gate with the default bounds. -/
def EvidenceSufficiencyGate.default : EvidenceSufficiencyGate where
  minimumConfidence := Binary64.round (45 / 100)
  minimumHitContribution := Binary64.round (8 / 100)
  minimumAnswerOverlap := Binary64.round (1 / 5)
  minimumConfidence_mem := by decide +kernel
  minimumHitContribution_mem := by decide +kernel
  minimumAnswerOverlap_mem := by decide +kernel

/-! ## Hits -/

/-- The fields that `_searchable_text` joins. -/
def searchableFields (hit : RetrievalHit) : List Text :=
  hit.title :: hit.content ::
    ((hit.metadata.map Prod.snd).filter MetadataValue.isTextual).map MetadataValue.toText

/-- `_searchable_text`. -/
def searchableText (hit : RetrievalHit) : Text := Text.joinLines (searchableFields hit)

/-- `_unique_hits`. -/
def uniqueHits (hits : List RetrievalHit) : List RetrievalHit :=
  firstsBy RetrievalHit.chunkId hits

variable (py : Python)

/-- The searchable text of a hit, as it is matched. -/
def hitText (hit : RetrievalHit) : Text := py.lower (searchableText hit)

/-- The joined searchable texts of the hits, as they are matched. -/
def evidenceText (hits : List RetrievalHit) : Text :=
  py.lower (Text.joinLines (hits.map searchableText))

/-- The joined titles and contents of the hits. -/
def answerText (hits : List RetrievalHit) : Text :=
  py.lower (Text.joinLines (hits.map fun hit => Text.joinLines [hit.title, hit.content]))

/-- `_requires_fail_closed_query`. -/
def requiresFailClosedQuery (value : Text) : Bool :=
  let lowered := py.lower value
  let unresolvedTime := (unresolvedTemporalReference.search lowered).isSome &&
    lowered.containsAny temporalStatusTerms && ((dateEvidence py).search lowered).isNone
  unresolvedTime || (sourceAuthorityConflation.search lowered).isSome ||
    (unverifiedMaterialReference.search lowered).isSome ||
    (contraryToSourceRequest.search lowered).isSome

/-! ## One aspect -/

/-- The aspect states a relation, which no evidence leaves open. -/
def relationRequired (aspect : Text) : Bool := (relationFailure py aspect []).isSome

/-- The hits that state the relation of the aspect. -/
def relationHits (aspect : Text) (hits : List RetrievalHit) : List RetrievalHit :=
  hits.filter fun hit => (relationFailure py aspect (hitText py hit)).isNone

/-- The hits that state the scope of the aspect. -/
def scopeHits (aspect : Text) (hits : List RetrievalHit) : List RetrievalHit :=
  hits.filter fun hit => scopeSupported py aspect (hitText py hit)

/-- `constraint_hits`: the hits that state both. -/
def constraintHits (aspect : Text) (hits : List RetrievalHit) : List RetrievalHit :=
  hits.filter fun hit =>
    (!relationRequired py aspect || decide (hit ∈ relationHits py aspect hits)) &&
      ((scopeTarget aspect).isNone || decide (hit ∈ scopeHits py aspect hits))

/-- `constraint_hits or hits`. -/
def usedHits (aspect : Text) (hits : List RetrievalHit) : List RetrievalHit :=
  if constraintHits py aspect hits = [] then hits else constraintHits py aspect hits

/-- The exact values of the aspect are in the text of the hits used. -/
def valuesFound (aspect : Text) (hits : List RetrievalHit) : Bool :=
  (queryConstraints py aspect).all fun value =>
    (normalizeValue py (evidenceText py (usedHits py aspect hits))).contains (normalizeValue py value)

/-- The terms of the aspect. -/
def aspectTerms (aspect : Text) : Terms := weightedTerms py (cleanForMatching py aspect)

variable (gate : EvidenceSufficiencyGate)

/-- The hit alone covers enough of the terms to be counted. -/
def contributes (terms : Terms) (hit : RetrievalHit) : Bool :=
  let totalWeight := if terms.total = 0 then 2 else terms.total
  gate.minimumHitContribution ≤ Binary64.div (terms.matched (hitText py hit)) totalWeight &&
    strongMatchCount terms (hitText py hit) != 0

/-- `supporting_ids`. -/
def supportingIds (aspect : Text) (hits : List RetrievalHit) : List String :=
  ((usedHits py aspect hits).filter (contributes py gate (aspectTerms py aspect))).map
    RetrievalHit.chunkId

/-- `_assess_aspect`. -/
def assessAspect (aspect : Text) (hits : List RetrievalHit) : AspectAssessment :=
  let terms := aspectTerms py aspect
  if terms = [] then ⟨aspect, false, 0, .queryAspectHasNoAnchor, []⟩
  else
    let combined := evidenceText py hits
    let confidence := coverage terms combined
    let refuse (reason : Reason) : AspectAssessment := ⟨aspect, false, confidence, reason, []⟩
    if requiresFailClosedQuery py aspect then refuse .evidenceConstraintMismatch
    else if relationRequired py aspect ∧ relationHits py aspect hits = [] then
      refuse .evidenceMissingRequiredRelation
    else if (scopeTarget aspect).isSome ∧ scopeHits py aspect hits = [] then
      refuse .evidenceMissingRequiredScopeTarget
    else
      let constraintText := evidenceText py (usedHits py aspect hits)
      if (queryConstraints py aspect).any fun value =>
          !(normalizeValue py constraintText).contains (normalizeValue py value) then
        refuse .evidenceConstraintMismatch
      else if answerShapeSupported py aspect
          (if constraintText = [] then answerText py hits else constraintText) = false then
        refuse .evidenceMissingRequiredAnswerShape
      else if confidence < gate.minimumConfidence ∨ strongMatchCount terms combined = 0 then
        refuse .insufficientEvidenceRelevance
      else if supportingIds py gate aspect hits = [] then refuse .insufficientEvidenceRelevance
      else ⟨aspect, true, confidence, .evidenceAspectSupported, supportingIds py gate aspect hits⟩

/-- `assess`. -/
def assess (query : Text) (hits : List RetrievalHit) : EvidenceSufficiencyDecision :=
  let unique := uniqueHits hits
  if unique = [] then ⟨false, 0, .noRetrievedEvidence, [], [cleanDisplay query]⟩
  else
    let aspects := queryAspects query
    if aspects = [] then ⟨false, 0, .queryHasNoSubstantiveAspects, [], [cleanDisplay query]⟩
    else
      let assessments := aspects.map fun aspect => assessAspect py gate aspect unique
      let unsupported := (assessments.filter fun item => !item.supported).map AspectAssessment.aspect
      let supportedIds :=
        firsts ((assessments.filter AspectAssessment.supported).flatMap
          AspectAssessment.supportingChunkIds)
      let confidence := ((assessments.map AspectAssessment.confidence).min?).getD 0
      match assessments.find? fun item => !item.supported with
      | some item => ⟨false, bounded confidence, item.reason, [], unsupported⟩
      | none =>
          if supportedIds = [] then
            ⟨false, bounded confidence, .insufficientEvidenceRelevance, [], aspects⟩
          else
            ⟨true, bounded confidence, .evidenceCoversAllQueryAspects, supportedIds, []⟩

end Odirag.Rag
