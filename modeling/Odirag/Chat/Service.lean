import Odirag.Rag.AnswerValidation
import Odirag.Rag.Grounding

/-!
# The chat service

Reference: `backend/app/services/chat.py`.

`ChatService._answer`: the evidence gate looks at the retrieved hits, grounding at those that the gate
counts, and then an orchestrator writes an answer whose citations are checked, or without one the first
three citations are the answer. The route and what the repository counts and the engine retrieves are
inputs here. `answer_spec` says what comes out: a refusal without citations, or an answer from the
citations of grounding.
-/

namespace Odirag.Chat

open Rag Retrieval Regex
open Documents (isSpace)

inductive QueryType where
  | sql
  | rag
  | composite
  deriving DecidableEq, Repr

/-- `AnswerResult`. -/
structure AnswerResult where
  answer : Text
  citedChunkIds : List String
  refusal : Bool
  refusalReason : Option Text
  deriving DecidableEq

/-- What becomes of a call of the orchestrator: a result, a `ProviderResponseError`, or another
exception. -/
inductive Generation where
  | result (generated : AnswerResult)
  | invalidResponse
  | raised
  deriving DecidableEq

/-- What `_answer` raises: a `ProviderResponseError` of its own, or what the orchestrator raised. -/
inductive ChatError where
  | providerResponse (provider message : String)
  | raised
  deriving DecidableEq, Repr

/-- The part of a `ChatAnswer` that `_grounded_answer` decides. -/
structure GroundedAnswer where
  answer : Text
  citations : List Citation
  refusal : Bool
  refusalReasons : List Text
  answerSupportValidated : Option Bool
  answerValidationDecision : Option EvidenceSufficiencyDecision
  generatedAnswer : Option Text
  generatedCitedChunkIds : List String
  selectedContextChunkIds : List String
  deriving DecidableEq

structure ChatAnswer extends GroundedAnswer where
  queryType : QueryType
  conflicts : List Text
  outdated : List Text
  structuredCount : Option ℕ
  finalResults : Option (List RetrievalHit)
  evidenceSufficiency : Option EvidenceSufficiencyDecision
  deriving DecidableEq

/-- The service; an orchestrator answers a query from a context. -/
structure ChatService where
  evidenceGate : EvidenceSufficiencyGate
  grounding : GroundingService
  orchestrator : Option (Text → List RetrievalHit → Generation)

/-! ## Texts -/

/-- `_refusal_text`. -/
def refusalText (reasons : List Text) : Text :=
  let reasonText := List.intercalate (str ", ") reasons
  str "无法基于当前已验证证据可靠回答。原因：" ++
    (if reasonText = [] then str "evidence_not_sufficient" else reasonText) ++ str "。"

/-- The answer without an orchestrator. -/
def extractedAnswer (selected : List Citation) : Text :=
  let lines := selected.zipIdx.map fun (citation, index) =>
    (toString (index + 1)).toList ++ str ". " ++ citation.quote ++ str "（来源：《" ++ citation.title ++
      str "》）"
  str "根据检索到的官方文件：" ++ List.intercalate (str " ") lines

/-- The URLs in an answer: `https?://[^\s)\]}>]+`. -/
def answerUrl : Regex :=
  seqs [lit "http", opt (lit "s"), lit "://",
    plus (char fun c => !(isSpace c || c == ')' || c == ']' || c == '\x7d' || c == '>'))]

/-- `_validate_evidence_decision`. -/
def validateEvidenceDecision (decision : EvidenceSufficiencyDecision)
    (finalHits : List RetrievalHit) : Except ChatError Unit :=
  let fail (message : String) : Except ChatError Unit :=
    .error (.providerResponse "evidence_gate" message)
  let supportedIds := decision.supportedChunkIds
  let finalIds := finalHits.map RetrievalHit.chunkId
  if ¬ (0 ≤ decision.confidence ∧ decision.confidence ≤ 1) then fail "confidence is outside [0, 1]"
  else if ¬ supportedIds.Nodup then fail "supported chunk IDs are duplicated"
  else if supportedIds.any fun id => id ∉ finalIds then fail "supported chunk ID is not a final hit"
  else if decision.sufficient ∧ (supportedIds = [] ∨ decision.unsupportedAspects ≠ []) then
    fail "sufficient decision is inconsistent"
  else if decision.sufficient = false ∧ supportedIds ≠ [] then
    fail "insufficient decision contains support"
  else .ok ()

/-! ## Answers -/

/-- An answer that refuses without anything generated. -/
def GroundedAnswer.refused (reasons : List Text) : GroundedAnswer where
  answer := refusalText reasons
  citations := []
  refusal := true
  refusalReasons := reasons
  answerSupportValidated := none
  answerValidationDecision := none
  generatedAnswer := none
  generatedCitedChunkIds := []
  selectedContextChunkIds := []

/-- `_grounded_answer` without an orchestrator. -/
def extractive (decision : EvidenceDecision) : GroundedAnswer :=
  let selected := decision.citations.take 3
  { answer := extractedAnswer selected
    citations := selected
    refusal := false
    refusalReasons := []
    answerSupportValidated := some true
    answerValidationDecision := none
    generatedAnswer := some (extractedAnswer selected)
    generatedCitedChunkIds := selected.map Citation.chunkId
    selectedContextChunkIds := selected.map Citation.chunkId }

/-- `citation_by_chunk.get(id)`; of two citations of a chunk the last one stays. -/
def citationByChunk (decision : EvidenceDecision) (id : String) : Option Citation :=
  decision.citations.reverse.find? fun citation => citation.chunkId = id

/-- The hits of these chunks. -/
def hitsOf (ids : List String) (hits : List RetrievalHit) : List RetrievalHit :=
  hits.filter fun hit => hit.chunkId ∈ ids

variable (py : Python) (service : ChatService)

/-- `_grounded_answer` on a generated answer that is not a refusal. -/
def checked (query : Text) (finalHits : List RetrievalHit) (decision : EvidenceDecision)
    (context : List String) (generated : AnswerResult) : Except ChatError GroundedAnswer :=
  let citedIds := firsts generated.citedChunkIds
  if citedIds = [] ∨ citedIds.any fun id => (citationByChunk decision id).isNone then
    .error (.providerResponse "grounded_answer" "citations are missing or invalid")
  else
    let citations := citedIds.filterMap (citationByChunk decision)
    let allowedUrls := citations.map Citation.url
    if (answerUrl.findall generated.answer).any fun url => url ∉ allowedUrls then
      .error (.providerResponse "grounded_answer" "answer contains an unknown URL")
    else
      let answerSupport := validateAnswer py service.evidenceGate query generated.answer
        (hitsOf citedIds finalHits)
      let reasons := if answerSupport.sufficient then [] else [answerSupport.reason.text.toList]
      .ok
        { answer := if answerSupport.sufficient then generated.answer else refusalText reasons
          citations := if answerSupport.sufficient then citations else []
          refusal := !answerSupport.sufficient
          refusalReasons := reasons
          answerSupportValidated := some answerSupport.sufficient
          answerValidationDecision := some answerSupport
          generatedAnswer := some generated.answer
          generatedCitedChunkIds := citedIds
          selectedContextChunkIds := context }

/-- `_grounded_answer`. -/
def groundedAnswer (query : Text) (finalHits : List RetrievalHit) (decision : EvidenceDecision) :
    Except ChatError GroundedAnswer :=
  match service.orchestrator with
  | none => .ok (extractive decision)
  | some generateAnswer =>
      let eligibleHits := hitsOf (decision.citations.map Citation.chunkId) finalHits
      let context := eligibleHits.map RetrievalHit.chunkId
      match generateAnswer query eligibleHits with
      | .raised => .error .raised
      | .invalidResponse =>
          .ok { GroundedAnswer.refused [str "model_output_invalid"] with
            selectedContextChunkIds := context }
      | .result generated =>
          if generated.refusal then
            -- The text of the model stays, whatever it has cited.
            let reason := match generated.refusalReason with
              | none | some [] => str "model_refusal"
              | some reason => reason
            .ok { GroundedAnswer.refused [reason] with
              answer := generated.answer
              generatedAnswer := some generated.answer
              generatedCitedChunkIds := generated.citedChunkIds
              selectedContextChunkIds := context }
          else checked py service query finalHits decision context generated

/-- The hits that the gate counts. -/
def supportedHits (query : Text) (finalHits : List RetrievalHit) : List RetrievalHit :=
  hitsOf (assess py service.evidenceGate query finalHits).supportedChunkIds finalHits

/-- The decision of grounding about the hits that the gate counts. -/
def groundingDecision (query : Text) (finalHits : List RetrievalHit) : EvidenceDecision :=
  service.grounding.assess py query (supportedHits py service query finalHits)

/-- `_answer`, for the route of the query, the number of documents that the repository counts and the
final results of the retrieval. -/
def answer (queryType : QueryType) (count : ℕ) (query : Text) (finalHits : List RetrievalHit) :
    Except ChatError ChatAnswer :=
  let structuredCount := if queryType = .rag then none else some count
  let countText := (toString count).toList
  if queryType = .sql then
    -- A count of rows needs no evidence.
    .ok
      { GroundedAnswer.refused [] with
        answer := str "数据库中符合条件且已审核通过的政策文档共 " ++ countText ++ str " 份。"
        refusal := false
        queryType, conflicts := [], outdated := [], structuredCount
        finalResults := none, evidenceSufficiency := none }
  else do
    let sufficiency := assess py service.evidenceGate query finalHits
    validateEvidenceDecision sufficiency finalHits
    let result (grounded : GroundedAnswer) (conflicts outdated : List Text) : ChatAnswer :=
      { grounded with
        queryType, conflicts, outdated, structuredCount
        finalResults := some finalHits, evidenceSufficiency := some sufficiency }
    if sufficiency.sufficient = false then
      return result (.refused [sufficiency.reason.text.toList]) [] []
    let decision := groundingDecision py service query finalHits
    if decision.sufficient = false then
      return result (.refused (decision.reasons.map fun reason => reason.text.toList))
        decision.conflicts decision.outdated
    let grounded ← groundedAnswer py service query finalHits decision
    let answer :=
      if queryType = .composite ∧ grounded.refusal = false then
        str "在符合筛选条件的 " ++ countText ++ str " 份文档中，" ++ grounded.answer
      else grounded.answer
    return result { grounded with answer } decision.conflicts decision.outdated

/-! ## What comes out -/

theorem mem_hitsOf {ids : List String} {hits : List RetrievalHit} {hit : RetrievalHit} :
    hit ∈ hitsOf ids hits ↔ hit ∈ hits ∧ hit.chunkId ∈ ids := by
  rw [hitsOf, List.mem_filter, decide_eq_true_iff]

/-- The service accepts exactly the consistent decisions. -/
theorem validateEvidenceDecision_eq_ok_iff {decision : EvidenceSufficiencyDecision}
    {hits : List RetrievalHit} :
    validateEvidenceDecision decision hits = .ok () ↔ decision.Consistent hits := by
  have hany : ((decision.supportedChunkIds.any fun id =>
      decide (id ∉ hits.map RetrievalHit.chunkId)) = true) ↔
        ¬ ∀ id ∈ decision.supportedChunkIds, id ∈ hits.map RetrievalHit.chunkId := by
    rw [List.any_eq_true]
    push Not
    simp only [decide_eq_true_iff]
  unfold validateEvidenceDecision
  simp only [hany]
  constructor
  · intro h
    split_ifs at h with hconfidence hdistinct hfinal hsupported hunsupported
    rw [not_and_or] at hsupported
    refine ⟨hconfidence, hdistinct, hfinal, fun hs => ?_, fun hs => ?_⟩
    · rcases hsupported with hs' | hs'
      · exact absurd hs hs'
      · rw [not_or] at hs'
        exact ⟨hs'.1, not_not.mp hs'.2⟩
    · by_contra hne
      exact hunsupported ⟨hs, hne⟩
  · intro h
    rw [if_neg (not_not.mpr h.confidence), if_neg (not_not.mpr h.distinct),
      if_neg (not_not.mpr h.final), if_neg, if_neg]
    · rintro ⟨hs, hne⟩
      exact hne (h.unsupported hs)
    · rintro ⟨hs, hnil | hne⟩
      · exact (h.supported hs).1 hnil
      · exact hne (h.supported hs).2

theorem citationByChunk_spec {decision : EvidenceDecision} {id : String} {citation : Citation}
    (h : citationByChunk decision id = some citation) :
    citation ∈ decision.citations ∧ citation.chunkId = id := by
  unfold citationByChunk at h
  have hid := List.find?_some h
  exact ⟨List.mem_reverse.mp (List.mem_of_find?_eq_some h), of_decide_eq_true hid⟩

/-- The citations of chunks that grounding cites are of these chunks. -/
theorem map_chunkId_citationByChunk {decision : EvidenceDecision} {ids : List String}
    (h : ∀ id ∈ ids, (citationByChunk decision id).isSome = true) :
    (ids.filterMap (citationByChunk decision)).map Citation.chunkId = ids := by
  induction ids with
  | nil => rfl
  | cons id ids ih =>
      obtain ⟨citation, hcitation⟩ := Option.isSome_iff_exists.mp (h id List.mem_cons_self)
      rw [List.filterMap_cons_some hcitation, List.map_cons, (citationByChunk_spec hcitation).2,
        ih fun id hid => h id (List.mem_cons_of_mem _ hid)]

/-- The ways in which an answer gets its citations: without an orchestrator the first three of
grounding, and otherwise the ones that it names, if they are of grounding and the gate validates its
text with their chunks. -/
inductive Backed (query : Text) (finalHits : List RetrievalHit) (decision : EvidenceDecision) :
    List Citation → Prop
  | extracted (h : service.orchestrator = none) :
      Backed query finalHits decision (decision.citations.take 3)
  | validated (text : Text) (ids : List String) (horchestrator : service.orchestrator ≠ none)
      (hne : ids ≠ []) (hdistinct : ids.Nodup)
      (hcited : ∀ id ∈ ids, (citationByChunk decision id).isSome = true)
      (hvalid : (validateAnswer py service.evidenceGate query text (hitsOf ids finalHits)).sufficient =
        true) :
      Backed query finalHits decision (ids.filterMap (citationByChunk decision))

variable {py service} {query : Text} {finalHits : List RetrievalHit} {decision : EvidenceDecision}

/-- An answer is backed, or it is a refusal without citations. -/
def BackedOrRefused (py : Python) (service : ChatService) (query : Text)
    (finalHits : List RetrievalHit) (decision : EvidenceDecision) (grounded : GroundedAnswer) : Prop :=
  (grounded.refusal = true ∧ grounded.citations = []) ∨
    (grounded.refusal = false ∧ Backed py service query finalHits decision grounded.citations)

theorem checked_backedOrRefused {context : List String} {generated : AnswerResult}
    {grounded : GroundedAnswer} (horchestrator : service.orchestrator ≠ none)
    (h : checked py service query finalHits decision context generated = .ok grounded) :
    BackedOrRefused py service query finalHits decision grounded := by
  unfold checked at h
  dsimp only at h
  split at h
  · cases h
  · next hids =>
      rw [not_or] at hids
      split at h
      · cases h
      · cases hsupport : (validateAnswer py service.evidenceGate query generated.answer
            (hitsOf (firsts generated.citedChunkIds) finalHits)).sufficient with
        | false =>
            rw [hsupport] at h
            cases h
            exact .inl ⟨rfl, rfl⟩
        | true =>
            rw [hsupport] at h
            cases h
            refine .inr ⟨rfl, .validated generated.answer _ horchestrator hids.1 (nodup_firsts _) ?_
              hsupport⟩
            intro id hid
            by_contra hnone
            refine hids.2 (List.any_eq_true.mpr ⟨id, hid, ?_⟩)
            rw [Option.isNone_iff_eq_none]
            exact Option.not_isSome_iff_eq_none.mp hnone

theorem groundedAnswer_backedOrRefused {grounded : GroundedAnswer}
    (h : groundedAnswer py service query finalHits decision = .ok grounded) :
    BackedOrRefused py service query finalHits decision grounded := by
  unfold groundedAnswer at h
  split at h
  · next hnone =>
      cases h
      exact .inr ⟨rfl, .extracted hnone⟩
  · next generateAnswer hsome =>
      have horchestrator : service.orchestrator ≠ none := by
        rw [hsome]
        exact Option.some_ne_none _
      dsimp only at h
      split at h
      · cases h
      · cases h
        exact .inl ⟨rfl, rfl⟩
      · split at h
        · cases h
          exact .inl ⟨rfl, rfl⟩
        · exact checked_backedOrRefused horchestrator h

/-- What `_answer` returns on the paths with retrieval: a refusal of the gate or of grounding, or what
`_grounded_answer` returns. -/
theorem answer_eq {queryType : QueryType} (hpath : queryType ≠ .sql) (count : ℕ) :
    answer py service queryType count query finalHits =
      let sufficiency := assess py service.evidenceGate query finalHits
      let decision := groundingDecision py service query finalHits
      let result (grounded : GroundedAnswer) (conflicts outdated : List Text) : ChatAnswer :=
        { grounded with
          queryType, conflicts, outdated
          structuredCount := if queryType = .rag then none else some count
          finalResults := some finalHits, evidenceSufficiency := some sufficiency }
      if sufficiency.sufficient = false then
        .ok (result (.refused [sufficiency.reason.text.toList]) [] [])
      else if decision.sufficient = false then
        .ok (result (.refused (decision.reasons.map fun reason => reason.text.toList))
          decision.conflicts decision.outdated)
      else
        (groundedAnswer py service query finalHits decision).map fun grounded =>
          result
            { grounded with
              answer :=
                if queryType = .composite ∧ grounded.refusal = false then
                  str "在符合筛选条件的 " ++ (toString count).toList ++ str " 份文档中，" ++
                    grounded.answer
                else grounded.answer }
            decision.conflicts decision.outdated := by
  -- The decision is the gate's own, so the check of a foreign one passes.
  have hvalid : validateEvidenceDecision (assess py service.evidenceGate query finalHits) finalHits =
      .ok () := validateEvidenceDecision_eq_ok_iff.mpr (consistent_assess py _ query finalHits)
  unfold answer
  rw [if_neg hpath]
  dsimp only
  rw [hvalid]
  dsimp only [bind, Except.bind, pure, Except.pure]
  split
  · rfl
  · split
    · rfl
    · cases groundedAnswer py service query finalHits (groundingDecision py service query finalHits) <;>
        rfl

/-- What comes out on the paths with retrieval. -/
theorem answer_spec {queryType : QueryType} (hpath : queryType ≠ .sql) {count : ℕ}
    {result : ChatAnswer} (h : answer py service queryType count query finalHits = .ok result) :
    (result.refusal = true ∧ result.citations = []) ∨
      (result.refusal = false ∧
        (assess py service.evidenceGate query finalHits).sufficient = true ∧
        (groundingDecision py service query finalHits).sufficient = true ∧
        Backed py service query finalHits (groundingDecision py service query finalHits)
          result.citations) := by
  rw [answer_eq hpath] at h
  dsimp only at h
  split at h
  · cases h
    exact .inl ⟨rfl, rfl⟩
  · next hgate =>
      split at h
      · cases h
        exact .inl ⟨rfl, rfl⟩
      · next hgrounding =>
          cases hgrounded : groundedAnswer py service query finalHits
              (groundingDecision py service query finalHits) with
          | error e =>
              rw [hgrounded] at h
              cases h
          | ok grounded =>
              rw [hgrounded] at h
              cases h
              rcases groundedAnswer_backedOrRefused hgrounded with hrefused | ⟨hanswer, hbacked⟩
              · exact .inl hrefused
              · exact .inr ⟨hanswer, Bool.not_eq_false _ ▸ hgate, Bool.not_eq_false _ ▸ hgrounding,
                  hbacked⟩

/-- Without an orchestrator, what passes the gate and grounding is answered. -/
theorem exists_answer_of_extractive {queryType : QueryType} (hpath : queryType ≠ .sql) (count : ℕ)
    (horchestrator : service.orchestrator = none)
    (hgate : (assess py service.evidenceGate query finalHits).sufficient = true)
    (hgrounding : (groundingDecision py service query finalHits).sufficient = true) :
    ∃ result, answer py service queryType count query finalHits = .ok result ∧
      result.refusal = false ∧
      result.citations = (groundingDecision py service query finalHits).citations.take 3 := by
  have hgrounded : groundedAnswer py service query finalHits
      (groundingDecision py service query finalHits) =
        .ok (extractive (groundingDecision py service query finalHits)) := by
    rw [groundedAnswer, horchestrator]
  rw [answer_eq hpath]
  dsimp only
  rw [hgate, if_neg (by decide), hgrounding, if_neg (by decide), hgrounded]
  exact ⟨_, rfl, rfl, rfl⟩

end Odirag.Chat
