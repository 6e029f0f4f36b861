import Odirag.Rag.Grounding

/-!
# The verdict and its citations

Reference: `backend/app/rag/grounding.py`.

`assess` counts the hits and looks for one that covers the query before it drops the superseded ones,
so the citations of a sufficient decision may be fewer than the minimum, or none of them may cover the
query. What is cited are the hits that are still current (`cited_eq_current`). The citations fit the
verdict exactly if no superseded hit is needed for it, neither for the number of the hits nor as the only
one that covers the query (`citations_fit_iff`).
-/

namespace Odirag.Rag

open Retrieval

/-! ## Current hits -/

/-- A newer hit of the same policy is among the hits. -/
def isSuperseded (hits : List RetrievalHit) (hit : RetrievalHit) : Bool :=
  hits.any fun newer => policyKey newer = policyKey hit &&
    (published hit).any fun date => (published newer).any fun newDate => date < newDate

theorem isSuperseded_iff {hits : List RetrievalHit} {hit : RetrievalHit} :
    isSuperseded hits hit = true ↔ Superseded hits hit := by
  simp only [isSuperseded, List.any_eq_true, Bool.and_eq_true, decide_eq_true_eq, Option.any_eq_true]
  constructor
  · rintro ⟨newer, hnewer, hkey, date, hdate, newDate, hnewDate, hlt⟩
    exact ⟨newer, hnewer, hkey, date, newDate, hdate, hnewDate, hlt⟩
  · rintro ⟨newer, hnewer, hkey, date, newDate, hdate, hnewDate, hlt⟩
    exact ⟨newer, hnewer, hkey, date, hdate, newDate, hnewDate, hlt⟩

namespace GroundingService

/-- The hits that can be cited and that no newer one supersedes. -/
def current (py : Python) (service : GroundingService) (hits : List RetrievalHit) :
    List RetrievalHit :=
  (service.eligible py hits).filter fun hit => !isSuperseded (service.eligible py hits) hit

variable {py : Python} {service : GroundingService} {query : Text} {hits : List RetrievalHit}

theorem mem_current {hit : RetrievalHit} :
    hit ∈ service.current py hits ↔
      hit ∈ service.eligible py hits ∧ ¬ Superseded (service.eligible py hits) hit := by
  rw [current, List.mem_filter, Bool.not_eq_true', ← isSuperseded_iff, Bool.not_eq_true]

/-- A chunk is dropped exactly if its hit is superseded. -/
theorem chunkId_mem_outdatedIds (hids : (hits.map RetrievalHit.chunkId).Nodup) {hit : RetrievalHit}
    (hhit : hit ∈ service.eligible py hits) :
    hit.chunkId ∈ outdatedIds (service.eligible py hits) ↔
      Superseded (service.eligible py hits) hit := by
  rw [mem_outdatedIds]
  constructor
  · rintro ⟨other, hother, hid, hsuperseded⟩
    obtain rfl : other = hit := List.inj_on_of_nodup_map hids (eligible_sublist.subset hother)
      (eligible_sublist.subset hhit) hid
    exact hsuperseded
  · exact fun hsuperseded => ⟨hit, hhit, rfl, hsuperseded⟩

/-- The current hits are cited. -/
theorem cited_eq_current (hids : (hits.map RetrievalHit.chunkId).Nodup) :
    service.cited py hits = service.current py hits := by
  refine List.filter_congr fun hit hhit => ?_
  have hiff := chunkId_mem_outdatedIds hids hhit
  rw [← isSuperseded_iff] at hiff
  by_cases hold : isSuperseded (service.eligible py hits) hit = true
  · simp [hold, hiff.mpr hold]
  · simp only [Bool.not_eq_true] at hold
    simpa [hold] using hiff

/-! ## What the citations show -/

/-- The citation is of this hit. -/
def Cites (hits : List RetrievalHit) (citation : Citation) (hit : RetrievalHit) : Prop :=
  hit ∈ hits ∧ citation.chunkId = hit.chunkId

/-- The citations by themselves carry a sufficient verdict. -/
structure Fits (py : Python) (service : GroundingService) (query : Text) (hits : List RetrievalHit)
    (citations : List Citation) : Prop where
  enough : service.minimumHits ≤ citations.length
  official : service.requireOfficialSource = true → ∀ citation ∈ citations,
    ∃ hit, Cites hits citation hit ∧ isOfficial py hit = true
  covered : ∃ citation ∈ citations, ∃ hit, Cites hits citation hit ∧
    overlap py query hit.content = true
  newest : ∀ citation ∈ citations, ∀ hit, Cites hits citation hit →
    ¬ Superseded (service.eligible py hits) hit

theorem current_sublist : (service.current py hits).Sublist hits :=
  List.filter_sublist.trans eligible_sublist

/-- The citations are of the current hits. -/
theorem citations_eq_current (hids : (hits.map RetrievalHit.chunkId).Nodup) :
    (service.assess py query hits).citations =
      (service.current py hits).map service.citation := by
  rw [citations_eq, cited_eq_current hids]

/-- The hit of a citation is current. -/
theorem Cites.mem_current (hids : (hits.map RetrievalHit.chunkId).Nodup) {citation : Citation}
    (hcitation : citation ∈ (service.assess py query hits).citations) {hit : RetrievalHit}
    (h : Cites hits citation hit) : hit ∈ service.current py hits := by
  rw [citations_eq_current hids] at hcitation
  obtain ⟨other, hother, rfl⟩ := List.mem_map.mp hcitation
  obtain rfl : other = hit := List.inj_on_of_nodup_map hids (current_sublist.subset hother) h.1 h.2
  exact hother

/-- Every current hit is cited. -/
theorem exists_cites (hids : (hits.map RetrievalHit.chunkId).Nodup) {hit : RetrievalHit}
    (hhit : hit ∈ service.current py hits) :
    ∃ citation ∈ (service.assess py query hits).citations, Cites hits citation hit := by
  rw [citations_eq_current hids]
  exact ⟨service.citation hit, List.mem_map_of_mem hhit, current_sublist.subset hhit, rfl⟩

theorem exists_cites_of_citation (hids : (hits.map RetrievalHit.chunkId).Nodup)
    {citation : Citation} (hcitation : citation ∈ (service.assess py query hits).citations) :
    ∃ hit ∈ service.current py hits, Cites hits citation hit := by
  rw [citations_eq_current hids] at hcitation
  obtain ⟨hit, hhit, rfl⟩ := List.mem_map.mp hcitation
  exact ⟨hit, hhit, current_sublist.subset hhit, rfl⟩

/-- The citations are official where that is required, whatever the verdict. -/
theorem citations_official (hids : (hits.map RetrievalHit.chunkId).Nodup)
    (hrequired : service.requireOfficialSource = true) {citation : Citation}
    (hcitation : citation ∈ (service.assess py query hits).citations) :
    ∃ hit, Cites hits citation hit ∧ isOfficial py hit = true := by
  obtain ⟨hit, hhit, hcites⟩ := exists_cites_of_citation hids hcitation
  exact ⟨hit, hcites, (scored_of_mem_eligible (mem_current.mp hhit).1).2 hrequired⟩

/-- No citation is older than a hit of its policy, whatever the verdict. -/
theorem citations_newest (hids : (hits.map RetrievalHit.chunkId).Nodup) {citation : Citation}
    (hcitation : citation ∈ (service.assess py query hits).citations) {hit : RetrievalHit}
    (hcites : Cites hits citation hit) : ¬ Superseded (service.eligible py hits) hit :=
  (mem_current.mp (hcites.mem_current hids hcitation)).2

/-! ## Hits that can be spared -/

/-- The hit is looked at, and a newer one of its policy is looked at too. -/
def isOutdated (py : Python) (service : GroundingService) (hits : List RetrievalHit)
    (hit : RetrievalHit) : Bool :=
  service.isEligible py hit && isSuperseded (hits.filter (service.isEligible py)) hit

/-- The superseded hits are not needed for the verdict. -/
structure Spared (py : Python) (service : GroundingService) (query : Text)
    (hits : List RetrievalHit) : Prop where
  some : ∃ hit ∈ hits, service.isEligible py hit = true
  /-- There are as many hits beyond the minimum as there are superseded ones. -/
  count : service.minimumHits + hits.countP (service.isOutdated py hits) ≤
    hits.countP (service.isEligible py)
  /-- A superseded hit that covers the query is not the only one. -/
  covering : ∀ old ∈ hits, service.isOutdated py hits old = true →
    overlap py query old.content = true →
      ∃ hit ∈ hits, service.isEligible py hit = true ∧ service.isOutdated py hits hit = false ∧
        overlap py query hit.content = true

/-- The current hits are those that are looked at and not superseded. -/
theorem mem_current_iff {hit : RetrievalHit} :
    hit ∈ service.current py hits ↔
      hit ∈ hits ∧ service.isEligible py hit = true ∧ service.isOutdated py hits hit = false := by
  rw [current, eligible_eq, List.mem_filter, List.mem_filter, isOutdated]
  cases service.isEligible py hit <;> simp

theorem length_current :
    (service.current py hits).length + hits.countP (service.isOutdated py hits) =
      hits.countP (service.isEligible py) := by
  let superseded (hit : RetrievalHit) : Bool :=
    isSuperseded (hits.filter (service.isEligible py)) hit
  have houtdated : hits.countP (service.isOutdated py hits) =
      ((hits.filter (service.isEligible py)).filter superseded).length := by
    rw [List.filter_filter, List.countP_eq_length_filter]
    exact congrArg List.length (List.filter_congr fun hit _ => Bool.and_comm _ _)
  have hlength := List.length_eq_length_filter_add (l := hits.filter (service.isEligible py)) superseded
  rw [houtdated, current, eligible_eq, List.countP_eq_length_filter, hlength, Nat.add_comm]

/-- A sufficient decision that looks at a hit has one that covers the query. -/
theorem exists_overlap (hsufficient : (service.assess py query hits).sufficient = true)
    {hit : RetrievalHit} (hhit : hit ∈ hits) (heligible : service.isEligible py hit = true) :
    ∃ other ∈ hits, service.isEligible py other = true ∧ overlap py query other.content = true := by
  have hreasons : service.reasons py query hits = [] := List.isEmpty_iff.mp hsufficient
  unfold reasons at hreasons
  simp only [List.append_eq_nil_iff] at hreasons
  obtain ⟨⟨-, hcovered⟩, -⟩ := hreasons
  have hmem : hit ∈ service.eligible py hits := by
    rw [eligible_eq]
    exact List.mem_filter.mpr ⟨hhit, heligible⟩
  by_contra hnone
  push Not at hnone
  have hany : ((service.eligible py hits).any fun hit => overlap py query hit.content) = false := by
    rw [List.any_eq_false]
    intro other hother
    rw [eligible_eq] at hother
    obtain ⟨hother, hlooked⟩ := List.mem_filter.mp hother
    exact hnone other hother hlooked
  rw [if_pos ⟨List.ne_nil_of_mem hmem, hany⟩] at hcovered
  cases hcovered

/-- The citations of a sufficient decision fit it exactly if the superseded hits can be spared. -/
theorem citations_fit_iff (hids : (hits.map RetrievalHit.chunkId).Nodup)
    (hsufficient : (service.assess py query hits).sufficient = true) :
    Fits py service query hits (service.assess py query hits).citations ↔
      Spared py service query hits := by
  have hlength : (service.assess py query hits).citations.length =
      (service.current py hits).length := by
    rw [citations_eq_current hids, List.length_map]
  have hcount : (service.current py hits).length + hits.countP (service.isOutdated py hits) =
      hits.countP (service.isEligible py) := length_current
  constructor
  · intro h
    obtain ⟨citation, hcitation, hit, hcites, hoverlap⟩ := h.covered
    obtain ⟨hhit, heligible, hcurrent⟩ := mem_current_iff.mp (hcites.mem_current hids hcitation)
    have henough := h.enough
    exact ⟨⟨hit, hhit, heligible⟩, by omega,
      fun _ _ _ _ => ⟨hit, hhit, heligible, hcurrent, hoverlap⟩⟩
  · intro h
    -- The hit that covers the query for the verdict is cited, or it is superseded and another one is.
    have hcovering : ∃ hit ∈ service.current py hits, overlap py query hit.content = true := by
      obtain ⟨hit, hhit, heligible⟩ := h.some
      obtain ⟨other, hother, hlooked, hoverlap⟩ := exists_overlap hsufficient hhit heligible
      by_cases hold : service.isOutdated py hits other = true
      · obtain ⟨new, hnew, hnewLooked, hcurrent, hnewOverlap⟩ := h.covering other hother hold hoverlap
        exact ⟨new, mem_current_iff.mpr ⟨hnew, hnewLooked, hcurrent⟩, hnewOverlap⟩
      · exact ⟨other, mem_current_iff.mpr ⟨hother, hlooked, Bool.not_eq_true _ ▸ hold⟩, hoverlap⟩
    obtain ⟨hit, hhit, hoverlap⟩ := hcovering
    obtain ⟨citation, hcitation, hcites⟩ :
        ∃ citation ∈ (service.assess py query hits).citations, Cites hits citation hit :=
      exists_cites hids hhit
    have henough := h.count
    exact
      { enough := by omega
        official := fun hrequired c hc => citations_official hids hrequired hc
        covered := ⟨citation, hcitation, hit, hcites, hoverlap⟩
        newest := fun c hc h hcites => citations_newest hids hc hcites }

/-! ## A policy in two versions -/

/-- The default service. -/
def default : GroundingService where
  minimumHits := 1
  minimumScore := .finite 0
  quoteChars := 220
  requireOfficialSource := true
  refuseOnConflict := true

/-- The old version, which speaks of the subsidy. -/
def oldVersion : RetrievalHit where
  chunkId := "old"
  documentId := "1"
  content := str "企业补贴标准"
  title := str "通知"
  sourceUrl := []
  score := .finite 1
  source := str "hybrid"
  metadata :=
    [("official_status", .str (str "official")), ("document_number", .str (str "川政发1号")),
      ("publish_date", .str (str "2025-01-01"))]

/-- The new version, which does not. -/
def newVersion : RetrievalHit where
  chunkId := "new"
  documentId := "2"
  content := str "办理流程"
  title := str "通知"
  sourceUrl := []
  score := .finite 1
  source := str "hybrid"
  metadata :=
    [("official_status", .str (str "official")), ("document_number", .str (str "川政发1号")),
      ("publish_date", .str (str "2026-01-01"))]

/-- A new version which speaks of the subsidy, too. -/
def rewritten : RetrievalHit := { newVersion with chunkId := "rewritten", content := str "补贴流程" }

theorem versions_nodup : ([oldVersion, newVersion].map RetrievalHit.chunkId).Nodup := by decide

theorem versions_sufficient :
    (default.assess .basic (str "补贴") [oldVersion, newVersion]).sufficient = true := by
  decide +kernel

/-- Where the new version covers the query, the old one can be spared. -/
theorem citations_fit_iff_rewritten :
    (default.assess .basic (str "补贴") [oldVersion, rewritten]).outdated.length = 1 ∧
      Fits .basic default (str "补贴") [oldVersion, rewritten]
        (default.assess .basic (str "补贴") [oldVersion, rewritten]).citations := by
  have hspared : Spared .basic default (str "补贴") [oldVersion, rewritten] :=
    ⟨by decide +kernel, by decide +kernel, by decide +kernel⟩
  exact ⟨by decide +kernel, (citations_fit_iff (by decide) (by decide +kernel)).mpr hspared⟩

/-- The old version makes the decision sufficient, and only the new one is cited. -/
theorem superseded_hit_decides :
    ([oldVersion, newVersion].map RetrievalHit.chunkId).Nodup ∧
      (default.assess .basic (str "补贴") [oldVersion, newVersion]).sufficient = true ∧
      (default.assess .basic (str "补贴") [oldVersion, newVersion]).citations.map
        Citation.chunkId = ["new"] ∧
      ¬ Fits .basic default (str "补贴") [oldVersion, newVersion]
        (default.assess .basic (str "补贴") [oldVersion, newVersion]).citations := by
  refine ⟨versions_nodup, versions_sufficient, by decide +kernel, fun h => ?_⟩
  obtain ⟨citation, hcitation, hit, hcites, hoverlap⟩ := h.covered
  have hmem := hcites.mem_current versions_nodup hcitation
  have hcurrent : default.current .basic [oldVersion, newVersion] = [newVersion] := by
    decide +kernel
  have hnone : overlap .basic (str "补贴") newVersion.content = false := by decide +kernel
  rw [hcurrent, List.mem_singleton] at hmem
  rw [hmem, hnone] at hoverlap
  cases hoverlap

end GroundingService

end Odirag.Rag
