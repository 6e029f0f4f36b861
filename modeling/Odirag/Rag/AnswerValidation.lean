import Odirag.Rag.Verdict

/-!
# The validation of an answer

Reference: `EvidenceSufficiencyGate.validate_answer` of `backend/app/rag/evidence.py`.

`EvidenceSufficiencyGate.validate_answer` assesses the hits that an answer cites and then looks at the
answer itself: its relations, its scope, its shape, its exact values and the overlap of each claim and
of the whole with the evidence.
-/

namespace Odirag.Rag

open Regex
open Documents (isSpace)
open Retrieval

/-- The name of a relation, as a failure reports it. -/
def Relation.name : Relation → Text
  | cancellation => str "cancellation"
  | penalty => str "penalty"
  | legalBasis => str "legal_basis"

variable (py : Python)

/-- `_is_dependent_meta_claim`. -/
def isDependentMetaClaim (value : Text) : Bool :=
  let lowered : Text := Text.stripBy isSpace (py.lower value)
  (dependentMetaClaim.search lowered).isSome &&
    (explicitValues py lowered).isEmpty && (bookTitleValues lowered).isEmpty &&
    !relationAnchorGroups.any fun relation => lowered.containsAny relation.anchors

/-- `_shared_relation`. -/
def sharedRelation (query answer evidence : Text) : Bool :=
  let all := [py.lower query, py.lower answer, py.lower evidence]
  relationAnchorGroups.any (fun relation => all.all fun value => value.containsAny relation.anchors) ||
    all.all fun value => value.containsAny supportConceptTerms

/-- `_identifier_claim_supported`. -/
def identifierClaimSupported (query claim evidence : Text) : Bool :=
  let identifiers := (policyIdentifier py).findall claim
  !identifiers.isEmpty &&
    (Text.joinLines [query, claim]).containsAny (strs ["编号", "文号"]) &&
    identifiers.all fun identifier =>
      (normalizeValue py evidence).contains (normalizeValue py identifier)

/-- An endpoint of a progression is found in the evidence. -/
def endpointSupported (evidence captured : Text) : Bool :=
  let endpoint := normalizeRelationText py captured
  let terms := weightedTerms py (cleanForMatching py endpoint)
  let matched := terms.countP fun t => evidence.contains t.1
  let pairedAnchors := (List.range (endpoint.length / 2)).map fun index =>
    endpoint.slice (2 * index) (2 * index + 2)
  let lexicalMatch := Binary64.round (35 / 100) ≤ coverage terms evidence ∧ 3 ≤ matched
  let compressedMatch := 2 ≤ pairedAnchors.length ∧ pairedAnchors.all evidence.contains
  lexicalMatch ∨ compressedMatch

/-- `_progression_claim_supported`. -/
def progressionClaimSupported (claim evidence : Text) : Bool :=
  if explicitValues py claim ≠ [] ∨ bookTitleValues claim ≠ [] then false
  else
    match progressionSynthesis.search claim with
    | none => false
    | some m =>
        if (strs ["政策目标", "实施对象", "示范项目", "培育对象"]).countP evidence.contains < 2 then
          false
        else
          ["start", "end"].all fun name =>
            endpointSupported py evidence ((m.group name).getD [])

/-- How many terms of at least two characters the evidence has. -/
def matchedTerms (terms : Terms) (evidence : Text) : ℕ :=
  terms.countP fun t => 2 ≤ t.1.length && evidence.contains t.1

/-- The text in which the exact values of an answer are searched. -/
def evidenceOrQuery (query : Text) (citedHits : List RetrievalHit) : Text :=
  Text.joinLines [evidenceText py citedHits, py.lower query]

/-- The exact values of the answer that neither the evidence nor the query has. -/
def unsupportedValues (query answer : Text) (citedHits : List RetrievalHit) : List Text :=
  (explicitValues py answer).filter fun value =>
    !(normalizeValue py (evidenceOrQuery py query citedHits)).contains (normalizeValue py value)

/-- The scope that the answer states has another polarity in the evidence. -/
def scopePolarityUnsupported (answer target : Text) (citedHits : List RetrievalHit) : Bool :=
  let answerPolarity := scopePolarity py answer target
  let evidencePolarities :=
    (citedHits.map fun hit => scopePolarity py (hitText py hit) target).filter (· ≠ 0)
  let unsupportedNegative := answerPolarity = -1 ∧ -1 ∉ evidencePolarities
  let contradictoryPolarity :=
    answerPolarity ≠ 0 ∧ evidencePolarities ≠ [] ∧ answerPolarity ∉ evidencePolarities
  unsupportedNegative ∨ contradictoryPolarity

variable (gate : EvidenceSufficiencyGate)

/-- A claim whose terms the evidence does not have. -/
def claimUnsupported (query evidence claim : Text) : Bool :=
  let claimTerms := weightedTerms py (cleanForMatching py claim)
  !isDependentMetaClaim py claim && !claimTerms.isEmpty &&
    coverage claimTerms evidence < gate.minimumAnswerOverlap &&
    !(sharedRelation py query claim evidence && 1 ≤ matchedTerms claimTerms evidence) &&
    !identifierClaimSupported py query claim evidence &&
    !progressionClaimSupported py claim evidence

/-- `validate_answer`. -/
def validateAnswer (query answer : Text) (citedHits : List RetrievalHit) :
    EvidenceSufficiencyDecision :=
  let citationDecision := assess py gate query citedHits
  let refuse (confidence : ℚ) (reason : Reason) (unsupported : List Text) :
      EvidenceSufficiencyDecision := ⟨false, confidence, reason, [], unsupported⟩
  if citationDecision.sufficient = false then
    refuse citationDecision.confidence .citationsDoNotCoverQuery citationDecision.unsupportedAspects
  else
    let evidence := evidenceText py citedHits
    match (answerClaims answer).findSome? fun claim => relationFailure py claim evidence with
    | some relation => refuse 0 .answerContainsUnsupportedRelation [relation.name]
    | none =>
        let target := scopeTarget answer
        let scopeUnsupported := target.isSome &&
          !citedHits.any fun hit => scopeSupported py answer (hitText py hit)
        let polarityUnsupported :=
          target.any fun target => scopePolarityUnsupported py answer target citedHits
        if scopeUnsupported then refuse 0 .answerContainsUnsupportedScopeTarget target.toList
        else if polarityUnsupported then
          refuse 0 .answerContainsUnsupportedScopePolarity target.toList
        else if answerShapeSupported py query (py.lower answer) = false then
          refuse 0 .answerMissingRequiredShape [cleanDisplay query]
        else if unsupportedValues py query answer citedHits ≠ [] then
          refuse 0 .answerContainsUnsupportedExactValues (unsupportedValues py query answer citedHits)
        else
          match (answerClaims answer).find? (claimUnsupported py gate query evidence) with
          | some claim =>
              refuse (bounded (coverage (weightedTerms py (cleanForMatching py claim)) evidence))
                .answerContainsUnsupportedClaim [cleanDisplay claim]
          | none =>
              let terms := weightedTerms py (cleanForMatching py answer)
              let overlap := coverage terms evidence
              if terms ≠ [] ∧ overlap < gate.minimumAnswerOverlap ∧
                  ¬ (sharedRelation py query answer evidence = true ∧
                    1 ≤ matchedTerms terms evidence) then
                refuse (bounded overlap) .answerNotSupportedByCitations [cleanDisplay answer]
              else
                ⟨true, bounded (min citationDecision.confidence (max overlap (1 / 2))),
                  .answerSupportedByCitations, citationDecision.supportedChunkIds, []⟩

/-! ## What an accepted answer has -/

variable {py gate} {query answer : Text} {citedHits : List RetrievalHit}

/-- The hits that an accepted answer cites answer the query, and each exact value of the answer occurs
in the normalised text of these hits and the query. -/
theorem accepted_spec (h : (validateAnswer py gate query answer citedHits).sufficient = true) :
    (assess py gate query citedHits).sufficient = true ∧
      unsupportedValues py query answer citedHits = [] := by
  unfold validateAnswer at h
  by_cases hassess : (assess py gate query citedHits).sufficient = false
  · rw [if_pos hassess] at h
    cases h
  rw [if_neg hassess] at h
  refine ⟨Bool.not_eq_false _ ▸ hassess, ?_⟩
  by_contra hvalues
  simp only [ne_eq, hvalues, not_false_eq_true, if_true] at h
  split at h
  · cases h
  · split_ifs at h

end Odirag.Rag
