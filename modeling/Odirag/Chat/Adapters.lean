import Mathlib.Data.Char
import Mathlib.Data.List.Lex
import Odirag.Chat.Citations
import Odirag.Foundations.Ink
import Odirag.Foundations.Shape

/-!
# The adapters of the model

Reference: `backend/app/llm/adapters.py` as `generate_answer` uses it, and `AnswerResult` of
`backend/app/llm/protocols.py`.

Both adapters read an `AnswerResult` out of what the endpoint replies; the direct one asks more of
it than its model does (`Proper`), the one of Coze does not. So behind the direct adapter the chat
service never fails over the citations of an answer (`answer_direct`), and what it returns names
its reasons and cites what it was given.

The JSON readers of the interpreter and of the library are parameters. The usage and the costs that a
reply reports are left out, as are the messages of a `ProviderResponseError`, which nothing looks at.
-/

namespace Odirag.Chat

open Rag Retrieval
open Documents (isSpace)
open Json (Fields required defaulted known readText nullable listOf)

/-! ## What the endpoint replies -/

/-- What a request comes to: the body, or an exception that is no `ProviderResponseError`. -/
inductive Reply where
  | body (payload : Json)
  | raised

/-- What `json.loads` comes to: a value, a `ValueError`, or another exception. -/
inductive Loaded where
  | value (value : Json)
  | invalid
  | raised

/-- What the adapters leave to the interpreter and to Pydantic. -/
structure ModelTools where
  /-- `json.loads`. -/
  loads : Text → Loaded
  /-- What `model_validate_json` reads; `none` is a text that is no JSON. -/
  readJson : Text → Option Json
  /-- `str` of a value that is not a text. -/
  render : Json → Text
  readBool : Json → Option Bool
  /-- `dict[str, int]`. -/
  readUsage : Json → Option Unit
  /-- `Decimal | None`. -/
  readCost : Json → Option Unit
  readBool_bool : ∀ b, readBool (.bool b) = some b

/-- The fields of `AnswerResult`; no others are allowed. -/
def answerFields : List Text :=
  strs ["token_usage", "cost", "answer", "cited_chunk_ids", "refusal", "refusal_reason"]

variable (T : ModelTools)

/-- `AnswerResult.model_validate`. -/
def readAnswer (fields : Fields) : Option AnswerResult :=
  if known answerFields fields then do
    let _ ← defaulted fields (str "token_usage") () T.readUsage
    let _ ← defaulted fields (str "cost") () T.readCost
    let answer ← required fields (str "answer") readText
    let citedChunkIds ← defaulted fields (str "cited_chunk_ids") [] (listOf readText)
    let refusal ← defaulted fields (str "refusal") false T.readBool
    let refusalReason ← defaulted fields (str "refusal_reason") none (nullable readText)
    some { answer, citedChunkIds := citedChunkIds.map String.ofList, refusal, refusalReason }
  else none

/-- `AnswerResult.model_dump`. -/
def dumpAnswer (result : AnswerResult) : Fields :=
  [(str "answer", .str result.answer),
    (str "cited_chunk_ids", .arr ((result.citedChunkIds.map String.toList).map .str)),
    (str "refusal", .bool result.refusal),
    (str "refusal_reason", result.refusalReason.elim .null .str)]

/-! ## The direct adapter -/

/-- `value[key]` of an object. -/
def member (key : Text) : Json → Option Json
  | .obj fields => fields.lookup key
  | _ => none

/-- `value[0]` of a list. -/
def firstItem : Json → Option Json
  | .arr (value :: _) => some value
  | _ => none

/-- `response_payload["choices"][0]["message"]["content"]`. -/
def choiceContent (payload : Json) : Option Json := do
  let choices ← member (str "choices") payload
  let choice ← firstItem choices
  let message ← member (str "message") choice
  member (str "content") message

/-- `_require_direct_answer_fields`. -/
def requireDirectAnswerFields (decoded : Fields) : Bool :=
  (strs ["answer", "cited_chunk_ids"]).all fun field => (decoded.lookup field).isSome

/-- `_validate_direct_answer`, with the chunks of the context. -/
def validateDirectAnswer (result : AnswerResult) (retrieved : List String) : Except Text Unit :=
  if Text.stripBy isSpace result.answer = [] then .error (str "AnswerResult answer must be non-empty")
  else if result.refusal = true ∧ result.citedChunkIds ≠ [] then
    .error (str "AnswerResult cited_chunk_ids must be empty for a refusal")
  else if result.refusal = true ∧ Text.stripBy isSpace (result.refusalReason.getD []) = [] then
    .error (str "AnswerResult refusal_reason must be non-empty for a refusal")
  else if result.refusal = false ∧ result.citedChunkIds = [] then
    .error (str "AnswerResult cited_chunk_ids must not be empty for an answer")
  else if result.refusal = false ∧ result.refusalReason ≠ none then
    .error (str "AnswerResult refusal_reason must be null for an answer")
  else if result.citedChunkIds.any fun id => id ∉ retrieved then
    .error (str "AnswerResult cited_chunk_ids must come from the retrieval context")
  else .ok ()

/-- `DirectLLMAdapter`. -/
structure DirectLLMAdapter where
  /-- An API key is configured. -/
  configured : Bool
  /-- What the endpoint replies to a query and its context. -/
  post : Text → List RetrievalHit → Reply

/-- What the direct adapter makes of a content. -/
def directContent (content : Text) (retrieved : List String) : Generation :=
  match T.loads content with
  | .raised => .raised
  | .invalid => .invalidResponse
  | .value (.obj decoded) =>
      if requireDirectAnswerFields decoded then
        match readAnswer T decoded with
        | none => .invalidResponse
        | some result =>
            match validateDirectAnswer result retrieved with
            | .error _ => .invalidResponse
            | .ok () => .result result
      else .invalidResponse
  | .value _ => .invalidResponse

/-- `DirectLLMAdapter.generate_answer`. -/
def DirectLLMAdapter.generateAnswer (adapter : DirectLLMAdapter) (query : Text)
    (context : List RetrievalHit) : Generation :=
  if adapter.configured = false then .raised
  else
    match adapter.post query context with
    | .raised => .raised
    | .body payload =>
        match choiceContent payload with
        | some (.str content) => directContent T content (context.map RetrievalHit.chunkId)
        | _ => .invalidResponse

/-! ## The adapter of Coze -/

/-- What `_coze_content` comes to: a text, an exception that is caught, or an `AttributeError`. -/
inductive CozeContent where
  | content (content : Text)
  | invalid
  | raised
  deriving DecidableEq

/-- The content of the first of these messages that is an answer. -/
def answerMessage : List Json → CozeContent
  | [] => .invalid
  | .obj message :: messages =>
      if (Json.get message (str "type")).isText (str "answer") ∨
          (Json.get message (str "role")).isText (str "assistant") then
        match message.lookup (str "content") with
        | none => .invalid
        | some content => .content (content.toText T.render)
      else answerMessage messages
  | _ :: _ => .raised

/-- `_coze_content`. -/
def cozeContent : Json → CozeContent
  | .obj payload =>
      match Json.getD payload (str "data") (.obj []) with
      | .obj data =>
          match (Json.get data (str "messages")).orElse
              ((Json.get payload (str "messages")).orElse (.arr [])) with
          | .arr messages => answerMessage T messages.reverse
          -- What is neither a list nor a number can be reversed, but its parts have no `get`.
          | .obj _ | .str _ => .raised
          | _ => .invalid
      | _ => .raised
  | _ => .raised

/-- `CozeAdapter`. -/
structure CozeAdapter where
  /-- A token and a bot are configured. -/
  configured : Bool
  post : Text → List RetrievalHit → Reply

/-- What the adapter of Coze makes of a content. -/
def cozeAnswer (content : Text) : Generation :=
  match T.readJson content with
  | some (.obj decoded) =>
      match readAnswer T decoded with
      | none => .invalidResponse
      | some result => .result result
  | _ => .invalidResponse

/-- `CozeAdapter.generate_answer`. -/
def CozeAdapter.generateAnswer (adapter : CozeAdapter) (query : Text)
    (context : List RetrievalHit) : Generation :=
  if adapter.configured = false then .raised
  else
    match adapter.post query context with
    | .raised => .raised
    | .body payload =>
        match cozeContent T payload with
        | .raised => .raised
        | .invalid => .invalidResponse
        | .content content => cozeAnswer T content

/-! ## What the direct adapter asks for -/

variable {T}

/-- An answer that says something, and from the context, or a refusal with a reason. -/
structure Proper (result : AnswerResult) (retrieved : List String) : Prop where
  answer : Text.stripBy isSpace result.answer ≠ []
  refused : result.refusal = true → result.citedChunkIds = [] ∧
    Text.stripBy isSpace (result.refusalReason.getD []) ≠ []
  answered : result.refusal = false → result.citedChunkIds ≠ [] ∧ result.refusalReason = none
  retrieved : ∀ id ∈ result.citedChunkIds, id ∈ retrieved

theorem validateDirectAnswer_eq_ok_iff {result : AnswerResult} {retrieved : List String} :
    validateDirectAnswer result retrieved = .ok () ↔ Proper result retrieved := by
  have hunknown : (result.citedChunkIds.any fun id => decide (id ∉ retrieved)) = true ↔
      ¬ ∀ id ∈ result.citedChunkIds, id ∈ retrieved := by
    rw [List.any_eq_true]
    push Not
    simp only [decide_eq_true_iff]
  unfold validateDirectAnswer
  simp only [hunknown]
  constructor
  · intro h
    split_ifs at h with hanswer hcited hreason huncited hnull hforeign
    exact
      { answer := hanswer
        refused := fun hrefusal => ⟨by_contra fun hne => hcited ⟨hrefusal, hne⟩, fun hnil =>
          hreason ⟨hrefusal, hnil⟩⟩
        answered := fun hrefusal => ⟨fun hnil => huncited ⟨hrefusal, hnil⟩, by_contra fun hne =>
          hnull ⟨hrefusal, hne⟩⟩
        retrieved := hforeign }
  · intro h
    rw [if_neg h.answer, if_neg fun hrefusal => hrefusal.2 (h.refused hrefusal.1).1,
      if_neg fun hrefusal => (h.refused hrefusal.1).2 hrefusal.2,
      if_neg fun hrefusal => (h.answered hrefusal.1).1 hrefusal.2,
      if_neg fun hrefusal => hrefusal.2 (h.answered hrefusal.1).2, if_neg (not_not_intro h.retrieved)]

/-- What the direct adapter returns is proper, for whatever the endpoint replies. -/
theorem proper_of_generateAnswer {adapter : DirectLLMAdapter} {query : Text}
    {context : List RetrievalHit} {result : AnswerResult}
    (h : adapter.generateAnswer T query context = .result result) :
    Proper result (context.map RetrievalHit.chunkId) := by
  unfold DirectLLMAdapter.generateAnswer directContent at h
  split at h
  · cases h
  split at h
  · cases h
  split at h
  · split at h
    · cases h
    · cases h
    · split at h
      · split at h
        · cases h
        · split at h
          · cases h
          · next hvalid =>
              cases h
              exact validateDirectAnswer_eq_ok_iff.mp hvalid
      · cases h
    · cases h
  · cases h

/-! ## The same content at both -/

/-- What is written for a result is read as the result. -/
theorem readAnswer_dumpAnswer (T : ModelTools) (result : AnswerResult) :
    readAnswer T (dumpAnswer result) = some result := by
  have hknown : known answerFields (dumpAnswer result) = true := rfl
  have husage : (dumpAnswer result).lookup (str "token_usage") = none := rfl
  have hcost : (dumpAnswer result).lookup (str "cost") = none := rfl
  have hanswer : (dumpAnswer result).lookup (str "answer") = some (.str result.answer) := rfl
  have hcited : (dumpAnswer result).lookup (str "cited_chunk_ids") =
      some (.arr ((result.citedChunkIds.map String.toList).map .str)) := rfl
  have hrefusal : (dumpAnswer result).lookup (str "refusal") = some (.bool result.refusal) := rfl
  have hreason : (dumpAnswer result).lookup (str "refusal_reason") =
      some (result.refusalReason.elim .null .str) := rfl
  have hids : (result.citedChunkIds.map String.toList).map String.ofList = result.citedChunkIds := by
    rw [List.map_map]
    exact (List.map_congr_left fun id _ => String.ofList_toList).trans (List.map_id _)
  rw [readAnswer, if_pos hknown]
  simp only [required, defaulted, husage, hcost, hanswer, hcited, hrefusal, hreason,
    Json.listOf_readText, Json.nullable_text, T.readBool_bool, readText, Option.bind_some,
    Option.bind_eq_bind, hids]

/-- What the direct adapter takes, the adapter of Coze takes too, and of what that one takes the direct
adapter takes what is proper and gives both fields; so a result that is written reaches the service
through Coze in any case, and directly if it is proper. -/
theorem adapters_agree {content : Text} {decoded : Fields}
    (hloads : T.loads content = .value (.obj decoded)) (hread : T.readJson content = some (.obj decoded))
    (retrieved : List String) (result : AnswerResult) :
    (directContent T content retrieved = .result result ↔ cozeAnswer T content = .result result ∧
      requireDirectAnswerFields decoded = true ∧ Proper result retrieved) ∧
    (decoded = dumpAnswer result → cozeAnswer T content = .result result ∧
      (directContent T content retrieved = .result result ↔ Proper result retrieved)) := by
  have hcoze : cozeAnswer T content = .result result ↔ readAnswer T decoded = some result := by
    rw [cozeAnswer, hread]
    dsimp only
    cases readAnswer T decoded with
    | none => exact iff_of_false nofun nofun
    | some read => rw [Generation.result.injEq, Option.some.injEq]
  have hdirect : directContent T content retrieved = .result result ↔
      cozeAnswer T content = .result result ∧ requireDirectAnswerFields decoded = true ∧
        Proper result retrieved := by
    rw [hcoze, directContent, hloads]
    dsimp only
    cases hfields : requireDirectAnswerFields decoded with
    | false => exact iff_of_false nofun fun h => Bool.false_ne_true h.2.1
    | true =>
        rw [if_pos rfl]
        cases readAnswer T decoded with
        | none => exact iff_of_false nofun fun h => nomatch h.1
        | some read =>
            dsimp only
            cases hvalid : validateDirectAnswer read retrieved with
            | error message =>
                refine iff_of_false nofun fun h => ?_
                rw [Option.some.inj h.1, validateDirectAnswer_eq_ok_iff.mpr h.2.2] at hvalid
                cases hvalid
            | ok _ =>
                have hproper := validateDirectAnswer_eq_ok_iff.mp hvalid
                rw [Generation.result.injEq, Option.some.injEq]
                exact ⟨fun h => ⟨h, rfl, h ▸ hproper⟩, fun h => h.1⟩
  refine ⟨hdirect, ?_⟩
  rintro rfl
  have hread := hcoze.mpr (readAnswer_dumpAnswer T result)
  exact ⟨hread, hdirect.trans ⟨fun h => h.2.2, fun h => ⟨hread, rfl, h⟩⟩⟩

/-- The truth values of JSON itself. -/
def plainBool : Json → Option Bool
  | .bool b => some b
  | _ => none

theorem plainBool_bool (b : Bool) : plainBool (.bool b) = some b := rfl

/-- Readers that know one content and its fields. -/
def readingTools (content : Text) (fields : Fields) : ModelTools where
  loads text := if text = content then .value (.obj fields) else .invalid
  readJson text := if text = content then some (.obj fields) else none
  render _ := []
  readBool := plainBool
  readUsage _ := none
  readCost _ := none
  readBool_bool := plainBool_bool

theorem loads_readingTools (content : Text) (fields : Fields) :
    (readingTools content fields).loads content = .value (.obj fields) := if_pos rfl

theorem readJson_readingTools (content : Text) (fields : Fields) :
    (readingTools content fields).readJson content = some (.obj fields) := if_pos rfl

/-- An answer without a text and without citations. -/
def silentAnswer : AnswerResult := ⟨[], [], false, none⟩

/-- The content of that answer. -/
def silentContent : Text :=
  str "\x7b\"answer\": \"\", \"cited_chunk_ids\": [], \"refusal\": false, \"refusal_reason\": null\x7d"

/-- Coze hands the silent answer on, the direct adapter does not. -/
theorem adapters_agree_silent :
    cozeAnswer (readingTools silentContent (dumpAnswer silentAnswer)) silentContent =
        .result silentAnswer ∧
      directContent (readingTools silentContent (dumpAnswer silentAnswer)) silentContent [] ≠
        .result silentAnswer := by
  obtain ⟨-, hdump⟩ := adapters_agree (loads_readingTools silentContent (dumpAnswer silentAnswer))
    (readJson_readingTools silentContent (dumpAnswer silentAnswer)) [] silentAnswer
  obtain ⟨hcoze, hdirect⟩ := hdump rfl
  exact ⟨hcoze, fun h => (hdirect.mp h).answer rfl⟩

/-! ## The chat service behind the direct adapter -/

variable {py : Python} {service : ChatService} {query : Text} {finalHits : List RetrievalHit}
  {decision : EvidenceDecision}

/-- The error of an answer whose citations are not of grounding. -/
def citationsError : ChatError :=
  .providerResponse "grounded_answer" "citations are missing or invalid"

theorem citationByChunk_isNone {id : String} : (citationByChunk decision id).isNone = true ↔
    id ∉ decision.citations.map Citation.chunkId := by
  rw [citationByChunk, Option.isNone_iff_eq_none, List.find?_eq_none]
  simp

/-- The error of an answer with a foreign URL. -/
def urlError : ChatError := .providerResponse "grounded_answer" "answer contains an unknown URL"

/-- The citations of a generated answer are refused exactly if there are none or one is not of
grounding. -/
theorem checked_citationsError_iff {context : List String} {generated : AnswerResult} :
    checked py service query finalHits decision context generated = .error citationsError ↔
      generated.citedChunkIds = [] ∨
        ∃ id ∈ generated.citedChunkIds, id ∉ decision.citations.map Citation.chunkId := by
  have hids : (firsts generated.citedChunkIds = [] ∨
      (firsts generated.citedChunkIds).any fun id => (citationByChunk decision id).isNone) ↔
        generated.citedChunkIds = [] ∨
          ∃ id ∈ generated.citedChunkIds, id ∉ decision.citations.map Citation.chunkId := by
    rw [firsts_eq_nil_iff, List.any_eq_true]
    simp only [mem_firsts, citationByChunk_isNone]
  unfold checked
  dsimp only
  by_cases h : firsts generated.citedChunkIds = [] ∨
      (firsts generated.citedChunkIds).any fun id => (citationByChunk decision id).isNone
  · rw [if_pos h]
    exact iff_of_true rfl (hids.mp h)
  · rw [if_neg h]
    refine iff_of_false ?_ (hids.not.mp h)
    split <;> simp [citationsError]

theorem checked_error {context : List String} {generated : AnswerResult} {e : ChatError}
    (h : checked py service query finalHits decision context generated = .error e) :
    e = citationsError ∨ e = urlError := by
  unfold checked at h
  dsimp only at h
  split at h
  · cases h
    exact .inl rfl
  · split at h
    · cases h
      exact .inr rfl
    · cases h

/-! ## What an answer says -/

/-- The text has a character that is no blank. -/
def Said (text : Text) : Prop := Text.stripBy isSpace text ≠ []

instance (text : Text) : Decidable (Said text) := inferInstanceAs (Decidable (_ ≠ _))

theorem said_append {a b : Text} (h : Said a ∨ Said b) : Said (a ++ b) := by
  unfold Said at *
  rw [ne_eq, Text.stripBy_eq_nil] at *
  rw [ne_eq, Text.stripBy_eq_nil] at h
  rw [Text.ink_append, List.append_eq_nil_iff]
  tauto

/-- An answer says something and names its reasons if it refuses, and the chunks it was generated from
are of its context. -/
structure Sound (grounded : GroundedAnswer) : Prop where
  answer : Said grounded.answer
  reason : grounded.refusal = true → ∃ reason ∈ grounded.refusalReasons, Said reason
  cited : ∀ id ∈ grounded.generatedCitedChunkIds, id ∈ grounded.selectedContextChunkIds

theorem said_refusalText (reasons : List Text) : Said (refusalText reasons) := by
  rw [refusalText, List.append_assoc]
  exact said_append (.inl (by decide))

theorem said_reason (reason : Reason) : Said reason.text.toList := by
  cases reason <;> decide +kernel

theorem said_groundingReason (reason : GroundingReason) : Said reason.text.toList := by
  cases reason <;> decide +kernel

theorem sound_refused {reasons : List Text} (h : ∃ reason ∈ reasons, Said reason) :
    Sound (.refused reasons) where
  answer := said_refusalText reasons
  reason _ := h
  cited _ hid := absurd hid List.not_mem_nil

/-- What an orchestrator whose results are proper makes of an answer is sound, and its citations are
those of grounding. -/
theorem groundedAnswer_proper (py : Python) (query : Text) (finalHits : List RetrievalHit)
    (decision : EvidenceDecision) {generateAnswer : Text → List RetrievalHit → Generation}
    (horchestrator : service.orchestrator = some generateAnswer)
    (hproper : ∀ query context result, generateAnswer query context = .result result →
      Proper result (context.map RetrievalHit.chunkId)) :
    (∀ e, groundedAnswer py service query finalHits decision = .error e → e = .raised ∨ e = urlError) ∧
      ∀ grounded, groundedAnswer py service query finalHits decision = .ok grounded →
        Sound grounded := by
  have hcontext : ∀ id ∈ (hitsOf (decision.citations.map Citation.chunkId) finalHits).map
      RetrievalHit.chunkId, id ∈ decision.citations.map Citation.chunkId := by
    intro id hid
    obtain ⟨hit, hhit, rfl⟩ := List.mem_map.mp hid
    exact (mem_hitsOf.mp hhit).2
  unfold groundedAnswer
  rw [horchestrator]
  dsimp only
  cases hgenerated : generateAnswer query
      (hitsOf (decision.citations.map Citation.chunkId) finalHits) with
  | raised =>
      dsimp only
      refine ⟨fun e h => ?_, fun grounded h => (nomatch h)⟩
      cases h
      exact .inl rfl
  | invalidResponse =>
      dsimp only
      refine ⟨fun e h => (nomatch h), fun grounded h => ?_⟩
      cases h
      exact
        { answer := said_refusalText _
          reason := fun _ => ⟨_, List.mem_singleton_self _, by decide⟩
          cited := fun id hid => absurd hid List.not_mem_nil }
  | result generated =>
      have hgood := hproper _ _ _ hgenerated
      dsimp only
      cases hrefusal : generated.refusal with
      | true =>
          rw [if_pos rfl]
          obtain ⟨hnone, hreason⟩ := hgood.refused hrefusal
          refine ⟨fun e h => (nomatch h), fun grounded h => ?_⟩
          cases h
          refine ⟨hgood.answer, fun _ => ⟨_, List.mem_singleton_self _, ?_⟩, fun id hid => ?_⟩
          · cases hcase : generated.refusalReason with
            | none =>
                dsimp only
                decide
            | some reason =>
                rw [hcase, Option.getD_some] at hreason
                cases reason with
                | nil => exact absurd rfl hreason
                | cons c reason => exact hreason
          · rw [hnone] at hid
            cases hid
      | false =>
          rw [if_neg Bool.false_ne_true]
          obtain ⟨hcited, -⟩ := hgood.answered hrefusal
          refine ⟨fun e h => ?_, fun grounded h => ?_⟩
          · rcases checked_error h with rfl | rfl
            · rcases checked_citationsError_iff.mp h with hnil | ⟨id, hid, hforeign⟩
              · exact absurd hnil hcited
              · exact absurd (hcontext id (hgood.retrieved id hid)) hforeign
            · exact .inr rfl
          · unfold checked at h
            dsimp only at h
            split at h
            · cases h
            · split at h
              · cases h
              · cases h
                cases hsupport : (validateAnswer py service.evidenceGate query generated.answer
                    (hitsOf (firsts generated.citedChunkIds) finalHits)).sufficient with
                | true =>
                    exact ⟨hgood.answer, fun h => (nomatch h), fun id hid =>
                      hgood.retrieved id (mem_firsts.mp hid)⟩
                | false =>
                    exact ⟨said_refusalText _, fun _ => ⟨_, List.mem_singleton_self _, said_reason _⟩,
                      fun id hid => hgood.retrieved id (mem_firsts.mp hid)⟩

/-- A decision of grounding that is not sufficient names a reason. -/
theorem reasons_ne_nil (h : (groundingDecision py service query finalHits).sufficient = false) :
    ∃ reason ∈ (groundingDecision py service query finalHits).reasons.map fun reason =>
      reason.text.toList, Said reason := by
  have hne : (groundingDecision py service query finalHits).reasons ≠ [] := by
    rw [groundingDecision, GroundingService.assess] at h ⊢
    rw [ne_eq, firsts_eq_nil_iff]
    simpa using h
  obtain ⟨reason, reasons, hreasons⟩ := List.exists_cons_of_ne_nil hne
  rw [hreasons]
  exact ⟨_, List.mem_map_of_mem List.mem_cons_self, said_groundingReason reason⟩

/-- Behind the direct adapter, whatever its endpoint replies, the chat service fails over a foreign URL
or because the endpoint cannot be asked, and every answer that it returns is sound. -/
theorem answer_direct {adapter : DirectLLMAdapter}
    (horchestrator : service.orchestrator = some (adapter.generateAnswer T))
    (queryType : QueryType) (count : ℕ) (query : Text) (finalHits : List RetrievalHit) :
    (∀ e, answer py service queryType count query finalHits = .error e → e = .raised ∨ e = urlError) ∧
      ∀ result, answer py service queryType count query finalHits = .ok result →
        Sound result.toGroundedAnswer := by
  by_cases hpath : queryType = .sql
  · rw [answer, if_pos hpath]
    refine ⟨fun e h => (nomatch h), fun result h => ?_⟩
    cases h
    refine ⟨?_, fun h => (nomatch h), fun _ hid => absurd hid List.not_mem_nil⟩
    dsimp only
    rw [List.append_assoc]
    exact said_append (.inl (by decide))
  rw [answer_eq hpath]
  dsimp only
  cases hgate : (assess py service.evidenceGate query finalHits).sufficient with
  | false =>
      rw [if_pos rfl]
      refine ⟨fun e h => (nomatch h), fun result h => ?_⟩
      cases h
      exact sound_refused ⟨_, List.mem_singleton_self _, said_reason _⟩
  | true =>
      rw [if_neg (by decide)]
      cases hgrounding : (groundingDecision py service query finalHits).sufficient with
      | false =>
          rw [if_pos rfl]
          refine ⟨fun e h => (nomatch h), fun result h => ?_⟩
          cases h
          exact sound_refused (reasons_ne_nil hgrounding)
      | true =>
          rw [if_neg (by decide)]
          obtain ⟨herror, hok⟩ := groundedAnswer_proper py query finalHits
            (groundingDecision py service query finalHits) horchestrator
            fun _ _ _ => proper_of_generateAnswer
          cases hgrounded : groundedAnswer py service query finalHits
              (groundingDecision py service query finalHits) with
          | error e =>
              refine ⟨fun e' h => ?_, fun result h => (nomatch h)⟩
              cases h
              exact herror e hgrounded
          | ok grounded =>
              have hsound := hok grounded hgrounded
              refine ⟨fun e h => (nomatch h), fun result h => ?_⟩
              cases h
              refine ⟨?_, hsound.reason, hsound.cited⟩
              dsimp only
              split
              · exact said_append (.inr hsound.answer)
              · exact hsound.answer

/-- A refusal of the model. -/
def modelRefusal : AnswerResult := ⟨str "无法回答", [], true, some (str "证据不足")⟩

/-- The content of that refusal. -/
def refusalContent : Text :=
  str "\x7b\"answer\": \"无法回答\", \"cited_chunk_ids\": [], \"refusal\": true, " ++
  str "\"refusal_reason\": \"证据不足\"\x7d"

/-- An endpoint that refuses everything. -/
def refusingAdapter : DirectLLMAdapter where
  configured := true
  post _ _ := .body (.obj [(str "choices", .arr [.obj [(str "message",
    .obj [(str "content", .str refusalContent)])]])])

/-- The service with the default bounds behind that endpoint. -/
def refusingService : ChatService where
  evidenceGate := extractiveService.evidenceGate
  grounding := extractiveService.grounding
  orchestrator :=
    some (refusingAdapter.generateAnswer (readingTools refusalContent (dumpAnswer modelRefusal)))

theorem generateAnswer_refusingAdapter (query : Text) (context : List RetrievalHit) :
    refusingAdapter.generateAnswer (readingTools refusalContent (dumpAnswer modelRefusal)) query
      context = .result modelRefusal := by
  have hcontent : directContent (readingTools refusalContent (dumpAnswer modelRefusal)) refusalContent
      (context.map RetrievalHit.chunkId) = .result modelRefusal := by
    rw [directContent, loads_readingTools]
    dsimp only
    rw [if_pos (by decide), readAnswer_dumpAnswer]
    rfl
  rw [DirectLLMAdapter.generateAnswer, if_neg (by decide)]
  exact hcontent

/-- The refusal of the model is the answer, with its text and its reason. -/
theorem answer_direct_modelRefusal :
    ∃ result, answer .basic refusingService .rag 0 fourQuestions fourHits = .ok result ∧
      result.refusalReasons = [str "证据不足"] ∧ Sound result.toGroundedAnswer := by
  have hgate : (assess .basic refusingService.evidenceGate fourQuestions fourHits).sufficient = true :=
    fourQuestions_sufficient.1
  have hgrounding :
      (groundingDecision .basic refusingService fourQuestions fourHits).sufficient = true :=
    groundingDecision_fourQuestions.1
  have hresult : ∃ result, answer .basic refusingService .rag 0 fourQuestions fourHits = .ok result ∧
      result.refusalReasons = [str "证据不足"] := by
    rw [answer_eq (by decide)]
    dsimp only
    rw [hgate, if_neg (by decide), hgrounding, if_neg (by decide), groundedAnswer, refusingService]
    dsimp only
    rw [generateAnswer_refusingAdapter]
    exact ⟨_, rfl, rfl⟩
  obtain ⟨result, hanswer, hreasons⟩ := hresult
  exact ⟨result, hanswer, hreasons, (answer_direct rfl .rag 0 fourQuestions fourHits).2 result hanswer⟩

end Odirag.Chat
