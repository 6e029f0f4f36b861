import Odirag.Retrieval.Fusion
import Mathlib.Data.Finset.Card

/-!
# The retrieval engine

Reference: `backend/app/retrieval/engine.py` and `backend/app/rerank/providers.py`.

The two retrievers, the analyzer and the embedding are parameters; what they return is fused,
reranked, cut at the threshold and cut to size. A fused list is in order, but a response of a reranker
is taken in the order in which the provider sent it, so that the final cut keeps the best candidates
exactly if the provider sent these first (`search_best_iff`). Timings, identifiers of traces and
metrics are left out.
-/

namespace Odirag.Retrieval

open Positional

/-! ## Scores -/

namespace Score

/-- `isfinite(score) and 0 <= score <= 1`. -/
def isUnit : Score → Bool
  | finite value => 0 ≤ value && value ≤ 1
  | _ => false

/-- `score < bound`. -/
def below (score bound : Score) : Bool := bound.atLeast score && !score.atLeast bound

/-- Scores that reach a bound can be compared. -/
theorem atLeast_total {a b bound : Score} (ha : a.atLeast bound = true)
    (hb : b.atLeast bound = true) : a.atLeast b = true ∨ b.atLeast a = true := by
  cases a <;> cases b <;> cases bound <;> simp_all [atLeast, le_total]

end Score

/-! ## Errors -/

/-- The exceptions of a search. -/
inductive SearchError
  | value (message : Text)
  | unavailable (provider reason : Text)
  | response (provider reason : Text)
  | other (className : Text)
deriving DecidableEq

/-- `_class_name`. -/
def className (name : Text) : Text :=
  (name.zipIdx.flatMap fun (c, i) =>
    if 0 < i ∧ 'A' ≤ c ∧ c ≤ 'Z' then ['_', c] else [c]).map Char.toLower

/-- `http_status_[1-5][0-9]{2}`. -/
def isStatusReason (reason : Text) : Bool :=
  match reason.drop 12 with
  | [a, b, c] =>
      (str "http_status_").isPrefixOf reason && ('1' ≤ a && a ≤ '5') && ('0' ≤ b && b ≤ '9') &&
        ('0' ≤ c && c ≤ '9')
  | _ => false

/-- `[a-z][a-z0-9_]{0,63}`. -/
def isCode (reason : Text) : Bool :=
  match reason with
  | [] => false
  | first :: rest =>
      ('a' ≤ first && first ≤ 'z') && rest.length ≤ 63 &&
        rest.all fun c => ('a' ≤ c && c ≤ 'z') || ('0' ≤ c && c ≤ '9') || c == '_'

/-- `_rerank_error_code`. -/
def rerankErrorCode : SearchError → Text
  | .unavailable _ reason =>
      if reason = str "API key is not configured" then str "missing_credentials"
      else if isStatusReason reason then reason
      else if reason = str "request_timeout" ∨ reason = str "transport_error" then reason
      else str "provider_unavailable"
  | .response _ reason => if isCode reason then reason else str "invalid_response"
  | .value _ => str "unexpected_value_error"
  | .other name => str "unexpected_" ++ className name

/-! ## Rerank providers -/

structure RerankResult where
  index : ℤ
  score : Score
deriving DecidableEq

inductive CostMeasurement
  | reported | notAvailable | notApplicable
deriving DecidableEq, Repr

/-- What a provider returns: bare results, or a response with what is billed. -/
inductive RerankProviderOutput
  | list (results : List RerankResult)
  | response (results : List RerankResult) (usage : List (Text × Score)) (cost : Option Score)
      (costMeasurement : CostMeasurement)
deriving DecidableEq

namespace RerankProviderOutput

def results : RerankProviderOutput → List RerankResult
  | list results | response results _ _ _ => results

def usage : RerankProviderOutput → List (Text × Score)
  | list _ => []
  | response _ usage _ _ => usage

def cost : RerankProviderOutput → Option Score
  | list _ => none
  | response _ _ cost _ => cost

end RerankProviderOutput

structure RerankProvider where
  providerName : Text
  modelName : Text
  rerank : Text → List Text → ℤ → Except SearchError RerankProviderOutput

/-- The cost measurement of a provider that says nothing about costs. -/
def RerankProvider.defaultCost (provider : RerankProvider) : CostMeasurement :=
  if provider.providerName = str "deterministic" ∨ provider.providerName = str "none" then
    .notApplicable
  else .notAvailable

/-- `NoRerankProvider`. -/
def noRerankProvider : RerankProvider where
  providerName := str "none"
  modelName := str "disabled"
  rerank _ documents topK :=
    .ok (.list ((List.range (min topK documents.length).toNat).map fun index =>
      ⟨index, .finite (documents.length - index)⟩))

/-- The share of the terms of a query and a document that they have in common. -/
def overlap (queryTerms documentTerms : Finset Text) : ℚ :=
  (queryTerms ∩ documentTerms).card /
    (if (queryTerms ∪ documentTerms).card = 0 then 1 else (queryTerms ∪ documentTerms).card : ℕ)

/-- `DeterministicRerankProvider`; `terms` finds the terms of a text. -/
def deterministicRerankProvider (terms : Text → Finset Text) : RerankProvider where
  providerName := str "deterministic"
  modelName := str "deterministic-token-overlap-v1"
  rerank query documents topK :=
    let score := fun index => overlap (terms query) (terms (documents.getD index []))
    .ok (.list (((inOrder score (List.range documents.length)).take topK.toNat).map
      fun (index : ℕ) => ⟨index, .finite (score index)⟩))

/-- A value in a result that came as JSON. -/
inductive RawValue
  | int (n : ℤ)
  | float (x : Score)
  | other
deriving DecidableEq

/-- A result that came as JSON: an object, or no object. -/
inductive RawResult
  | record (index relevanceScore : RawValue)
  | other
deriving DecidableEq

/-- `float(score)` of a number; too large an integer raises an `OverflowError`. -/
def toFloat : RawValue → Except SearchError Score
  | .float x => .ok x
  | .int n =>
      if n.natAbs < 2 ^ 1024 - 2 ^ 970 then .ok (.finite n) else .error (.other (str "OverflowError"))
  | .other => .error (.response (str "remote_rerank") (str "invalid_result_score"))

/-- One result of `_validate_results`; the state is `seen`. -/
def validateResult (documentCount : ℕ) (seen : List ℤ) (item : RawResult) :
    Except SearchError RerankResult :=
  match item with
  | .other => .error (.response (str "remote_rerank") (str "invalid_result_shape"))
  | .record (.int index) score =>
      if index ∈ seen ∨ ¬ (0 ≤ index ∧ index < documentCount) then
        .error (.response (str "remote_rerank") (str "invalid_result_index"))
      else do
        let normalizedScore ← toFloat score
        if normalizedScore.isUnit then return ⟨index, normalizedScore⟩
        else .error (.response (str "remote_rerank") (str "invalid_result_score"))
  | .record _ _ => .error (.response (str "remote_rerank") (str "invalid_result_index"))

/-- The loop of `_validate_results`. -/
def validateFrom (documentCount : ℕ) (seen : List ℤ) :
    List RawResult → Except SearchError (List RerankResult)
  | [] => .ok []
  | item :: rest => do
      let result ← validateResult documentCount seen item
      let others ← validateFrom documentCount (result.index :: seen) rest
      return result :: others

/-- `_validate_results`. -/
def validateResults (rawResults : List RawResult) (documentCount : ℕ) (topK : ℤ) :
    Except SearchError (List RerankResult) :=
  if rawResults = [] then .error (.response (str "remote_rerank") (str "empty_results"))
  else if (rawResults.length : ℤ) > min (documentCount : ℤ) topK then
    .error (.response (str "remote_rerank") (str "too_many_results"))
  else validateFrom documentCount [] rawResults

/-- What the rerank service does with a request. -/
inductive RemoteAnswer
  | timeout
  | status (reason : Text)
  | transport
  | invalidJson
  | invalidShape
  | results (rawResults : List RawResult) (usage : List (Text × Score))

/-- `RemoteRerankProvider`. -/
def remoteRerankProvider (hasKey : Bool) (modelName : Text)
    (post : Text → List Text → ℤ → RemoteAnswer) : RerankProvider where
  providerName := str "remote"
  modelName := modelName
  rerank query documents topK :=
    if documents = [] then .ok (.response [] [] none .notApplicable)
    else if topK ≤ 0 then .error (.value (str "top_k must be positive"))
    else if !hasKey then
      .error (.unavailable (str "remote_rerank") (str "API key is not configured"))
    else
      match post query documents topK with
      | .timeout => .error (.unavailable (str "remote_rerank") (str "request_timeout"))
      | .status reason => .error (.unavailable (str "remote_rerank") (str "http_status_" ++ reason))
      | .transport => .error (.unavailable (str "remote_rerank") (str "transport_error"))
      | .invalidJson => .error (.response (str "remote_rerank") (str "invalid_json"))
      | .invalidShape => .error (.response (str "remote_rerank") (str "invalid_response_shape"))
      | .results rawResults usage => do
          let results ← validateResults rawResults documents.length topK
          return .response results usage none .notAvailable

/-! ## The engine -/

inductive RetrievalMode
  | bm25 | vector | hybrid | hybridRerank
deriving DecidableEq, Repr

inductive RerankFailurePolicy
  | opened | closed
deriving DecidableEq, Repr

/-- A configuration that `__post_init__` takes. -/
structure RetrievalConfig where
  bm25TopK : ℤ := 20
  vectorTopK : ℤ := 20
  rrfK : ℤ := 60
  rerankTopK : ℤ := 8
  finalTopK : ℤ := 5
  scoreThreshold : Score := .finite 0
  rerankFailurePolicy : RerankFailurePolicy := .opened
  positive : ∀ value ∈ [bm25TopK, vectorTopK, rrfK, rerankTopK, finalTopK], 0 < value := by decide
  threshold_nonneg : scoreThreshold.below (.finite 0) = false := by decide +kernel

/-- What the engine works with. `F` are filters and `V` query vectors; analysing a query gives the
normalised query and the filters that are applied. -/
structure RetrievalEngine (F V : Type) where
  analyze : Text → Option F → Except SearchError (Text × F)
  bm25Search : Text → ℤ → F → Except SearchError (List RetrievalHit)
  embedQuery : Text → Except SearchError V
  vectorSearch : V → ℤ → F → Except SearchError (List RetrievalHit)
  rerankProvider : RerankProvider
  config : RetrievalConfig

structure RerankMetadata where
  applied : Bool
  provider : Text
  model : Text
  failurePolicy : RerankFailurePolicy
  errorCode : Option Text
  candidateCount : ℕ
  rerankedCount : ℕ
  usage : List (Text × Score)
  cost : Option Score
  costMeasurement : CostMeasurement
deriving DecidableEq

structure RetrievalTrace (F : Type) where
  mode : RetrievalMode
  query : Text
  filters : F
  bm25Results : List RetrievalHit
  vectorResults : List RetrievalHit
  fusionResults : List RetrievalHit
  rerankResults : List RetrievalHit
  finalResults : List RetrievalHit
  rerankMetadata : RerankMetadata
  warnings : List Text
deriving DecidableEq

/-- The loop of `_validated_rerank`; the state is `seen` and the rank. -/
def validatedFrom (fused : List RetrievalHit) (seen : List ℤ) (rank : ℕ) :
    List RerankResult → Except SearchError (List RetrievalHit)
  | [] => .ok []
  | item :: rest =>
      if item.index ∈ seen ∨ item.index < 0 then
        .error (.response (str "rerank") (str "invalid_result_index"))
      else
        match fused[item.index.toNat]? with
        | none => .error (.response (str "rerank") (str "invalid_result_index"))
        | some hit =>
            if !item.score.isUnit then
              .error (.response (str "rerank") (str "invalid_result_score"))
            else do
              let others ← validatedFrom fused (item.index :: seen) (rank + 1) rest
              return hit.withScore item.score rank (str "rerank") :: others

/-- `_validated_rerank`. -/
def validatedRerank (fused : List RetrievalHit) (ordering : List RerankResult) :
    Except SearchError (List RetrievalHit) := do
  let reranked ← validatedFrom fused [] 1 ordering
  if reranked = [] then .error (.response (str "rerank") (str "empty_results"))
  else return reranked

/-- What the rerank stage leaves: `candidates`, `reranked`, the metadata and the warnings. -/
structure RerankStage where
  candidates : List RetrievalHit
  reranked : List RetrievalHit
  metadata : RerankMetadata
  warnings : List Text
deriving DecidableEq

variable {F V : Type}

namespace RetrievalEngine

variable (engine : RetrievalEngine F V)

/-- `rerank_metadata` before the provider is asked. -/
def initialMetadata (fused : List RetrievalHit) : RerankMetadata where
  applied := false
  provider := engine.rerankProvider.providerName
  model := engine.rerankProvider.modelName
  failurePolicy := engine.config.rerankFailurePolicy
  errorCode := none
  candidateCount := fused.length
  rerankedCount := 0
  usage := []
  cost := none
  costMeasurement := .notApplicable

/-- The hits in the order of the provider, with what the provider says about costs. -/
def askReranker (query : Text) (fused : List RetrievalHit) (rerankTopK : ℤ) :
    Except SearchError (RerankProviderOutput × List RetrievalHit) := do
  let output ← engine.rerankProvider.rerank query (fused.map RetrievalHit.content) rerankTopK
  let reranked ← validatedRerank fused output.results
  return (output, reranked)

/-- The rerank stage of `search`. -/
def rerankStage (mode : RetrievalMode) (query : Text) (fused : List RetrievalHit)
    (rerankTopK : ℤ) : Except SearchError RerankStage :=
  let metadata := engine.initialMetadata fused
  if mode = .hybridRerank ∧ fused ≠ [] then
    if engine.rerankProvider.modelName = str "disabled" then
      .ok ⟨fused, [], metadata, [str "rerank_provider_disabled"]⟩
    else
      match engine.askReranker query fused rerankTopK with
      | .ok (output, reranked) =>
          .ok ⟨reranked, reranked,
            { metadata with
              applied := true
              rerankedCount := reranked.length
              usage := output.usage
              cost := output.cost
              costMeasurement :=
                match output with
                | .response _ _ _ costMeasurement => costMeasurement
                | .list _ => engine.rerankProvider.defaultCost }, []⟩
      | .error e =>
          let code := rerankErrorCode e
          if engine.config.rerankFailurePolicy = .closed then .error e
          else
            .ok ⟨fused, [],
              { metadata with
                errorCode := some code
                costMeasurement := engine.rerankProvider.defaultCost },
              [str "rerank_failed_open:" ++ code]⟩
  else .ok ⟨fused, [], metadata, []⟩

/-- The fusion stage of `search`. -/
def fusionStage (mode : RetrievalMode) (bm25Hits vectorHits : List RetrievalHit) (limit : ℤ) :
    Except SearchError (List RetrievalHit) :=
  match mode with
  | .bm25 => .ok bm25Hits
  | .vector => .ok vectorHits
  | .hybrid | .hybridRerank =>
      match reciprocalRankFusion [bm25Hits, vectorHits] engine.config.rrfK (some limit) with
      | .ok hits => .ok hits
      | .error (.value message) => .error (.value message.toList)
      | .error .key => .error (.other (str "KeyError"))

/-- The hits of the keyword index. -/
def bm25Stage (mode : RetrievalMode) (query : Text) (topK : ℤ) (filters : F) :
    Except SearchError (List RetrievalHit) :=
  if mode = .vector then .ok [] else engine.bm25Search query topK filters

/-- The hits of the vector store. -/
def vectorStage (mode : RetrievalMode) (query : Text) (topK : ℤ) (filters : F) :
    Except SearchError (List RetrievalHit) :=
  if mode = .bm25 then .ok []
  else do
    let queryVector ← engine.embedQuery query
    engine.vectorSearch queryVector topK filters

/-- `final_top_k`. -/
def finalTopK (topK : Option ℤ) : ℤ := topK.getD engine.config.finalTopK

/-- `rerank_top_k`. -/
def rerankTopK (topK : Option ℤ) : ℤ := max engine.config.rerankTopK (engine.finalTopK topK)

/-- The final cut. -/
def finalCut (topK : Option ℤ) (candidates : List RetrievalHit) : List RetrievalHit :=
  (candidates.filter fun hit => hit.score.atLeast engine.config.scoreThreshold).take
    (engine.finalTopK topK).toNat

/-- `search`. -/
def search (query : Text) (mode : RetrievalMode := .hybridRerank) (filters : Option F := none)
    (topK : Option ℤ := none) : Except SearchError (RetrievalTrace F) :=
  if topK.any fun k => !(1 ≤ k && k ≤ 200) then
    .error (.value (str "top_k must be between 1 and 200"))
  else do
    let (normalizedQuery, parsedFilters) ← engine.analyze query filters
    let bm25Hits ← engine.bm25Stage mode normalizedQuery
      (max engine.config.bm25TopK (engine.finalTopK topK)) parsedFilters
    let vectorHits ← engine.vectorStage mode normalizedQuery
      (max engine.config.vectorTopK (engine.finalTopK topK)) parsedFilters
    let fused ← engine.fusionStage mode bm25Hits vectorHits
      (max (engine.rerankTopK topK) (engine.finalTopK topK))
    let stage ← engine.rerankStage mode normalizedQuery fused (engine.rerankTopK topK)
    return {
      mode := mode
      query := normalizedQuery
      filters := parsedFilters
      bm25Results := bm25Hits
      vectorResults := vectorHits
      fusionResults := fused
      rerankResults := stage.reranked
      finalResults := engine.finalCut topK stage.candidates
      rerankMetadata := stage.metadata
      warnings := stage.warnings }

end RetrievalEngine

end Odirag.Retrieval
