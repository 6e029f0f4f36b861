import Odirag.Retrieval.Engine

/-!
# What the final cut keeps

Reference: `backend/app/retrieval/engine.py`.

The final results are distinct chunks of the fused list that reach the threshold, whatever the
reranker does. They are the best candidates, and in order, exactly if the response that was accepted
has its best results first (`search_best_iff`): the other branches cut a list that is in order.
-/

namespace Odirag.Retrieval

open Positional

/-- A list in the order of its scores. -/
def InScoreOrder (hits : List RetrievalHit) : Prop :=
  hits.Pairwise fun a b => a.score.atLeast b.score = true

/-- What a search is to return. -/
structure BestCandidates (threshold : Score) (topK : ℤ)
    (fused candidates final : List RetrievalHit) : Prop where
  /-- Chunks of the fused list, with the score, rank and source of the candidate. -/
  members : ∀ hit ∈ final, ∃ f ∈ fused, hit = f.withScore hit.score hit.rank hit.source
  nodup : (chunkIds final).Nodup
  threshold_le : ∀ hit ∈ final, hit.score.atLeast threshold = true
  length_le : (final.length : ℤ) ≤ topK
  ordered : InScoreOrder final
  /-- No candidate that was left out for lack of room has a higher score than one that was kept. -/
  best : ∀ hit ∈ candidates, hit.score.atLeast threshold = true → hit ∉ final →
    ∀ kept ∈ final, kept.score.below hit.score = false

/-! ## Candidates -/

section Candidates

variable {fused : List RetrievalHit}

/-- An accepted result names a chunk of the fused list that no result before it named. -/
theorem validatedFrom_cons_ok {seen : List ℤ} {rank : ℕ} {item : RerankResult}
    {results : List RerankResult} {hits : List RetrievalHit}
    (h : validatedFrom fused seen rank (item :: results) = .ok hits) :
    ∃ f others, item.index ∉ seen ∧ 0 ≤ item.index ∧ fused[item.index.toNat]? = some f ∧
      validatedFrom fused (item.index :: seen) (rank + 1) results = .ok others ∧
      hits = f.withScore item.score rank (str "rerank") :: others := by
  rw [validatedFrom] at h
  by_cases hindex : item.index ∈ seen ∨ item.index < 0
  · rw [if_pos hindex] at h
    cases h
  · rw [if_neg hindex] at h
    obtain ⟨hseen, hsign⟩ := not_or.mp hindex
    cases hget : fused[item.index.toNat]? with
    | none => simp [hget] at h
    | some f =>
        simp only [hget] at h
        split_ifs at h with hscore
        obtain ⟨others, hothers, h⟩ := bind_eq_ok.mp h
        cases h
        exact ⟨f, others, hseen, not_lt.mp hsign, rfl, hothers, rfl⟩

/-- The hits of an accepted response: distinct chunks of the fused list, with the scores of the
response in its order. -/
theorem validatedFrom_ok (hfused : (chunkIds fused).Nodup) {seen : List ℤ} {rank : ℕ}
    {results : List RerankResult} {hits : List RetrievalHit}
    (h : validatedFrom fused seen rank results = .ok hits) :
    hits.map RetrievalHit.score = results.map RerankResult.score ∧ (chunkIds hits).Nodup ∧
      ∀ hit ∈ hits, ∃ (i : ℕ) (f : RetrievalHit), (i : ℤ) ∉ seen ∧ fused[i]? = some f ∧
        hit = f.withScore hit.score hit.rank hit.source := by
  induction results generalizing seen rank hits with
  | nil =>
      cases h
      simp [chunkIds]
  | cons item results ih =>
      obtain ⟨f, others, hseen, hsign, hget, hothers, rfl⟩ := validatedFrom_cons_ok h
      have hcast : (item.index.toNat : ℤ) = item.index := Int.toNat_of_nonneg hsign
      obtain ⟨hscores, hnodup, hmem⟩ := ih hothers
      refine ⟨by simp [RetrievalHit.withScore, hscores], ?_, ?_⟩
      · rw [chunkIds, List.map_cons, List.nodup_cons]
        refine ⟨fun hin => ?_, hnodup⟩
        -- A later hit is another chunk of the fused list.
        obtain ⟨hit, hhit, hid⟩ := List.mem_map.mp hin
        obtain ⟨i, f', hi, hget', hhit'⟩ := hmem hit hhit
        have hsame : f'.chunkId = f.chunkId := by
          rw [hhit'] at hid
          exact hid
        have heq : i = item.index.toNat := by
          have hlt : i < (chunkIds fused).length := by
            simpa [chunkIds] using (List.getElem?_eq_some_iff.mp hget').1
          refine (List.getElem?_inj hlt hfused).mp ?_
          simp [chunkIds, hget, hget', hsame]
        refine hi ?_
        rw [heq, hcast]
        exact List.mem_cons_self
      · intro hit hhit
        rcases List.mem_cons.mp hhit with rfl | hhit
        · exact ⟨item.index.toNat, f, hcast ▸ hseen, hget, rfl⟩
        · obtain ⟨i, f', hi, hget', hhit'⟩ := hmem hit hhit
          exact ⟨i, f', fun hin => hi (List.mem_cons_of_mem _ hin), hget', hhit'⟩

/-- The hits of an accepted response. -/
theorem validatedRerank_ok (hfused : (chunkIds fused).Nodup) {results : List RerankResult}
    {hits : List RetrievalHit} (h : validatedRerank fused results = .ok hits) :
    hits.map RetrievalHit.score = results.map RerankResult.score ∧ (chunkIds hits).Nodup ∧
      ∀ hit ∈ hits, ∃ f ∈ fused, hit = f.withScore hit.score hit.rank hit.source := by
  obtain ⟨reranked, hreranked, h⟩ := bind_eq_ok.mp h
  split_ifs at h with hempty
  cases h
  obtain ⟨hscores, hnodup, hmem⟩ := validatedFrom_ok hfused hreranked
  refine ⟨hscores, hnodup, fun hit hhit => ?_⟩
  obtain ⟨i, f, -, hget, heq⟩ := hmem hit hhit
  exact ⟨f, List.mem_of_getElem? hget, heq⟩

end Candidates

/-! ## The cut -/

section Cut

variable {threshold : Score} {k : ℤ} {fused candidates : List RetrievalHit}

/-- The candidates that reach the threshold, cut to size. -/
def cut (threshold : Score) (k : ℤ) (candidates : List RetrievalHit) : List RetrievalHit :=
  (candidates.filter fun hit => hit.score.atLeast threshold).take k.toNat

/-- The scores of a response in which the best results that reach the threshold stand first. -/
def BestScoresFirst (threshold : Score) (k : ℤ) (scores : List Score) : Prop :=
  BestFirst (fun a b => a.atLeast b = true) k.toNat (scores.filter (·.atLeast threshold))

/-- Distinct candidates are cut to the best ones exactly if these stand first. -/
theorem cut_best_iff (hk : 0 ≤ k) (hnodup : (chunkIds candidates).Nodup)
    (hmembers : ∀ hit ∈ candidates, ∃ f ∈ fused, hit = f.withScore hit.score hit.rank hit.source) :
    BestCandidates threshold k fused candidates (cut threshold k candidates) ↔
      BestScoresFirst threshold k (candidates.map RetrievalHit.score) := by
  have hfilter : (candidates.map RetrievalHit.score).filter (·.atLeast threshold) =
      (candidates.filter fun hit => hit.score.atLeast threshold).map RetrievalHit.score := by
    rw [List.filter_map]
    rfl
  have hpass : ∀ hit ∈ candidates.filter (fun hit => hit.score.atLeast threshold),
      hit.score.atLeast threshold = true := fun hit hhit => (List.mem_filter.mp hhit).2
  have hcut : ∀ hit ∈ cut threshold k candidates,
      hit ∈ candidates ∧ hit.score.atLeast threshold = true := fun hit hhit =>
    List.mem_filter.mp (List.mem_of_mem_take hhit)
  have hids : (candidates.filter fun hit => hit.score.atLeast threshold).Nodup :=
    (hnodup.of_map _).filter _
  rw [BestScoresFirst, hfilter, bestFirst_map, bestFirst_iff]
  constructor
  · intro h
    refine ⟨h.ordered, fun kept hkept hit hhit => ?_⟩
    have hin := List.mem_of_mem_drop hhit
    -- A hit that is dropped is not among the kept ones, since no hit stands twice.
    have hout : hit ∉ cut threshold k candidates := fun hmem =>
      (List.disjoint_take_drop hids le_rfl) hmem hhit
    have hbest := h.best hit (List.mem_filter.mp hin).1 (hpass hit hin) hout kept hkept
    rcases Score.atLeast_total (hpass kept (List.mem_of_mem_take hkept)) (hpass hit hin) with
      hge | hge
    · exact hge
    · simpa [Score.below, hge] using hbest
  · rintro ⟨hordered, hdropped⟩
    refine ⟨fun hit hhit => hmembers hit (hcut hit hhit).1, ?_, fun hit hhit => (hcut hit hhit).2,
      ?_, hordered, ?_⟩
    · exact hnodup.sublist (((List.take_sublist _ _).trans List.filter_sublist).map _)
    · have hle := List.length_take_le k.toNat
        (candidates.filter fun hit => hit.score.atLeast threshold)
      simp only [cut]
      omega
    · intro hit hhit hscore hout kept hkept
      have hin : hit ∈ candidates.filter fun hit => hit.score.atLeast threshold :=
        List.mem_filter.mpr ⟨hhit, hscore⟩
      rw [← List.take_append_drop k.toNat (candidates.filter _), List.mem_append] at hin
      have hge := hdropped kept hkept hit (hin.resolve_left hout)
      simp [Score.below, hge]

end Cut

/-! ## Searches -/

variable {F V : Type}

/-- The hits among which the final cut chooses. -/
def RetrievalTrace.candidates (trace : RetrievalTrace F) : List RetrievalHit :=
  if trace.rerankMetadata.applied then trace.rerankResults else trace.fusionResults

namespace RetrievalEngine

variable {engine : RetrievalEngine F V} {mode : RetrievalMode} {query : Text}
  {fused : List RetrievalHit}

/-- The reranker is asked, and what it returns is accepted. -/
structure Accepts (engine : RetrievalEngine F V) (mode : RetrievalMode) (query : Text)
    (fused : List RetrievalHit) (rerankTopK : ℤ) (output : RerankProviderOutput) : Prop where
  mode_eq : mode = .hybridRerank
  ne_nil : fused ≠ []
  enabled : engine.rerankProvider.modelName ≠ str "disabled"
  returned : engine.rerankProvider.rerank query (fused.map RetrievalHit.content) rerankTopK = .ok output
  valid : ∃ hits, validatedRerank fused output.results = .ok hits

/-- The rerank stage takes the hits of an accepted response, and else those of the fused list. -/
theorem rerankStage_ok {rerankTopK : ℤ} {stage : RerankStage}
    (h : engine.rerankStage mode query fused rerankTopK = .ok stage) :
    (∃ output, engine.Accepts mode query fused rerankTopK output ∧
      validatedRerank fused output.results = .ok stage.candidates ∧
      stage.reranked = stage.candidates ∧ stage.metadata.applied = true) ∨
    (∀ output, ¬ engine.Accepts mode query fused rerankTopK output) ∧
      stage.candidates = fused ∧ stage.metadata.applied = false := by
  unfold rerankStage at h
  simp only at h
  by_cases hmode : mode = .hybridRerank ∧ fused ≠ []
  · rw [if_pos hmode] at h
    by_cases hdisabled : engine.rerankProvider.modelName = str "disabled"
    · rw [if_pos hdisabled] at h
      cases h
      exact .inr ⟨fun output haccepts => haccepts.enabled hdisabled, rfl, rfl⟩
    · rw [if_neg hdisabled] at h
      cases hask : engine.askReranker query fused rerankTopK with
      | ok answer =>
          obtain ⟨output, reranked⟩ := answer
          simp only [hask] at h
          cases h
          obtain ⟨output', houtput, hask⟩ := bind_eq_ok.mp hask
          obtain ⟨reranked', hreranked, hask⟩ := bind_eq_ok.mp hask
          cases hask
          exact .inl ⟨output, ⟨hmode.1, hmode.2, hdisabled, houtput, reranked, hreranked⟩,
            hreranked, rfl, rfl⟩
      | error e =>
          simp only [hask] at h
          split_ifs at h with hpolicy
          cases h
          refine .inr ⟨fun output haccepts => ?_, rfl, rfl⟩
          obtain ⟨hits, hhits⟩ := haccepts.valid
          simp [askReranker, haccepts.returned, hhits, bind, Except.bind, pure, Except.pure] at hask
  · rw [if_neg hmode] at h
    cases h
    exact .inr ⟨fun output haccepts => hmode ⟨haccepts.mode_eq, haccepts.ne_nil⟩, rfl, rfl⟩

/-- What a search is put together from. -/
theorem search_ok {filters : Option F} {topK : Option ℤ} {trace : RetrievalTrace F}
    (h : engine.search query mode filters topK = .ok trace) :
    0 ≤ engine.finalTopK topK ∧ ∃ stage,
      engine.rerankStage mode trace.query trace.fusionResults (engine.rerankTopK topK) = .ok stage ∧
      trace.rerankResults = stage.reranked ∧ trace.rerankMetadata = stage.metadata ∧
      trace.finalResults =
        cut engine.config.scoreThreshold (engine.finalTopK topK) stage.candidates := by
  unfold search at h
  by_cases htop : (topK.any fun k => !(1 ≤ k && k ≤ 200)) = true
  · rw [if_pos htop] at h
    cases h
  · rw [if_neg htop] at h
    obtain ⟨⟨normalizedQuery, parsedFilters⟩, -, h⟩ := bind_eq_ok.mp h
    obtain ⟨bm25Hits, -, h⟩ := bind_eq_ok.mp h
    obtain ⟨vectorHits, -, h⟩ := bind_eq_ok.mp h
    obtain ⟨fused, -, h⟩ := bind_eq_ok.mp h
    obtain ⟨stage, hstage, h⟩ := bind_eq_ok.mp h
    cases h
    refine ⟨?_, stage, hstage, rfl, rfl, rfl⟩
    cases topK with
    | none => exact (engine.config.positive engine.config.finalTopK (by simp)).le
    | some k =>
        simp only [Option.any_some, Bool.not_eq_true', Bool.and_eq_false_iff, not_or,
          decide_eq_false_iff_not, not_not] at htop
        have hk : engine.finalTopK (some k) = k := rfl
        omega

/-- **The final cut.** From a fused list of distinct chunks in order, a search returns the best
candidates exactly if the response that it accepted, if it accepted one, has its best results
first. -/
theorem search_best_iff {filters : Option F} {topK : Option ℤ} {trace : RetrievalTrace F}
    (h : engine.search query mode filters topK = .ok trace)
    (hordered : InScoreOrder trace.fusionResults) (hnodup : (chunkIds trace.fusionResults).Nodup) :
    BestCandidates engine.config.scoreThreshold (engine.finalTopK topK) trace.fusionResults
        trace.candidates trace.finalResults ↔
      ∀ output, engine.Accepts mode trace.query trace.fusionResults (engine.rerankTopK topK) output →
        BestScoresFirst engine.config.scoreThreshold (engine.finalTopK topK)
          (output.results.map RerankResult.score) := by
  obtain ⟨hk, stage, hstage, hreranked, hmetadata, hfinal⟩ := search_ok h
  rw [hfinal]
  rcases rerankStage_ok hstage with ⟨output, haccepts, hvalid, hsame, happlied⟩ |
      ⟨hnone, hsame, happlied⟩
  · have hcandidates : trace.candidates = stage.candidates := by
      rw [RetrievalTrace.candidates, hmetadata, happlied, if_pos rfl, hreranked, hsame]
    obtain ⟨hscores, hdistinct, hmembers⟩ := validatedRerank_ok hnodup hvalid
    rw [hcandidates, cut_best_iff hk hdistinct hmembers, hscores]
    constructor
    · intro hbest output' haccepts'
      have heq : output' = output := by
        have hreturned := haccepts'.returned
        rw [haccepts.returned] at hreturned
        exact (Except.ok.inj hreturned).symm
      rw [heq]
      exact hbest
    · intro hall
      exact hall output haccepts
  · have hcandidates : trace.candidates = stage.candidates := by
      rw [RetrievalTrace.candidates, hmetadata, happlied, hsame]
      rfl
    rw [hcandidates, hsame, cut_best_iff hk hnodup fun hit hhit => ⟨hit, hhit, rfl⟩]
    refine iff_of_true ?_ fun output haccepts => absurd haccepts (hnone output)
    refine BestFirst.of_pairwise (List.Pairwise.filter _ ?_)
    exact List.pairwise_map.mpr hordered

end RetrievalEngine

/-! ## A provider that does not send the best result first -/

/-- Two chunks that both retrievers find, and a service that answers with these results. -/
def twoChunks (rawResults : List RawResult) : RetrievalEngine Unit Unit where
  analyze query _ := .ok (query, ())
  bm25Search _ _ _ := .ok [foundHit "a" (str "bm25"), foundHit "b" (str "bm25")]
  embedQuery _ := .ok ()
  vectorSearch _ _ _ := .ok [foundHit "a" (str "vector"), foundHit "b" (str "vector")]
  rerankProvider :=
    remoteRerankProvider true (str "rerank-v3.5") fun _ _ _ => .results rawResults []
  config := { finalTopK := 1 }

/-- A chunk of the fused list. -/
def fusedChunk (chunkId : String) (rank : ℕ) : RetrievalHit :=
  (foundHit chunkId (str "bm25")).withScore (.finite (2 / (60 + rank))) rank (str "bm25+vector")

/-- The trace of a search with these reranked hits. -/
def twoTrace (reranked : List RetrievalHit) : RetrievalTrace Unit where
  mode := .hybridRerank
  query := str "q"
  filters := ()
  bm25Results := [foundHit "a" (str "bm25"), foundHit "b" (str "bm25")]
  vectorResults := [foundHit "a" (str "vector"), foundHit "b" (str "vector")]
  fusionResults := [fusedChunk "a" 1, fusedChunk "b" 2]
  rerankResults := reranked
  finalResults := reranked.take 1
  rerankMetadata := {
    applied := true
    provider := str "remote"
    model := str "rerank-v3.5"
    failurePolicy := .opened
    errorCode := none
    candidateCount := 2
    rerankedCount := reranked.length
    usage := []
    cost := none
    costMeasurement := .notAvailable }
  warnings := []

/-- The first chunk of the fused list as the reranker sees it, or the second one. -/
def rerankedChunk (chunkId : String) (fusedRank : ℕ) (score : ℚ) (rank : ℕ) : RetrievalHit :=
  (fusedChunk chunkId fusedRank).withScore (.finite score) rank (str "rerank")

/-- The provider sends the better result second. -/
def betterLast : RetrievalEngine Unit Unit :=
  twoChunks [.record (.int 0) (.float (.finite (1 / 5))),
    .record (.int 1) (.float (.finite (9 / 10)))]

/-- The provider sends the better result first. -/
def betterFirst : RetrievalEngine Unit Unit :=
  twoChunks [.record (.int 1) (.float (.finite (9 / 10))),
    .record (.int 0) (.float (.finite (1 / 5)))]

theorem fusedChunks_inOrder : InScoreOrder [fusedChunk "a" 1, fusedChunk "b" 2] ∧
    (chunkIds [fusedChunk "a" 1, fusedChunk "b" 2]).Nodup := by
  unfold InScoreOrder
  decide +kernel

/-- The better of two chunks is left out when it comes second. -/
theorem betterLast_leaves_better_out : ∃ trace, betterLast.search (str "q") = .ok trace ∧
    InScoreOrder trace.fusionResults ∧ (chunkIds trace.fusionResults).Nodup ∧
    ¬ BestCandidates betterLast.config.scoreThreshold (betterLast.finalTopK none)
      trace.fusionResults trace.candidates trace.finalResults := by
  refine ⟨twoTrace [rerankedChunk "a" 1 (1 / 5) 1, rerankedChunk "b" 2 (9 / 10) 2],
    by decide +kernel, fusedChunks_inOrder.1, fusedChunks_inOrder.2, fun h => ?_⟩
  have hkept := h.best (rerankedChunk "b" 2 (9 / 10) 2) (by decide +kernel) (by decide +kernel)
    (by decide +kernel) (rerankedChunk "a" 1 (1 / 5) 1) (by decide +kernel)
  revert hkept
  decide +kernel

/-- A provider that sends the better result first. -/
theorem betterFirst_best_iff :
    BestCandidates (.finite 0) 1 [fusedChunk "a" 1, fusedChunk "b" 2]
        [rerankedChunk "b" 2 (9 / 10) 1, rerankedChunk "a" 1 (1 / 5) 2]
        [rerankedChunk "b" 2 (9 / 10) 1] ↔
      ∀ output, betterFirst.Accepts .hybridRerank (str "q") [fusedChunk "a" 1, fusedChunk "b" 2] 8
        output → BestScoresFirst (.finite 0) 1 (output.results.map RerankResult.score) := by
  have hsearch : betterFirst.search (str "q") =
      .ok (twoTrace [rerankedChunk "b" 2 (9 / 10) 1, rerankedChunk "a" 1 (1 / 5) 2]) := by
    decide +kernel
  exact RetrievalEngine.search_best_iff hsearch fusedChunks_inOrder.1 fusedChunks_inOrder.2

/-! ## A provider that sorts -/

/-- The deterministic provider sends its best results first. -/
theorem deterministicRerankProvider_bestFirst (terms : Text → Finset Text) {query : Text}
    {documents : List Text} {topK : ℤ} {output : RerankProviderOutput}
    (h : (deterministicRerankProvider terms).rerank query documents topK = .ok output)
    (threshold : Score) (k : ℤ) :
    BestScoresFirst threshold k (output.results.map RerankResult.score) := by
  cases h
  refine BestFirst.of_pairwise (List.Pairwise.filter _ ?_)
  simp only [RerankProviderOutput.results, List.map_map, List.pairwise_map]
  refine ((pairwise_inOrder _ _).sublist (List.take_sublist _ _)).imp ?_
  rintro i j (hlt | ⟨heq, -⟩)
  · simpa [Score.atLeast] using hlt.le
  · simpa [Score.atLeast] using heq.ge

end Odirag.Retrieval
