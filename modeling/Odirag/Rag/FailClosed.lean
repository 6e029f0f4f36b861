import Odirag.Rag.Verdict

/-!
# Evidence about the right thing

Reference: `EvidenceSufficiencyGate` of `backend/app/rag/evidence.py`.

An aspect can require a relation and a scope. The gate refuses it when no hit states the relation or
no hit states the scope, and otherwise counts the hits that state both. If there are none it counts
from all hits, so that a relation of one thing and the scope of another together pass for evidence.
`counted_satisfy_iff` says that this is the only way in which a counted chunk misses a constraint.
-/

namespace Odirag.Rag

open Retrieval

variable (py : Python) (gate : EvidenceSufficiencyGate)

/-- With a hit that states both constraints, only such hits are counted. -/
theorem satisfies_of_counted {aspect : Text} {hits : List RetrievalHit}
    (h : ∃ hit ∈ hits, Satisfies py aspect hit) {hit : RetrievalHit}
    (hmem : hit ∈ usedHits py aspect hits) : Satisfies py aspect hit := by
  obtain ⟨other, hother, hsatisfies⟩ := h
  have hne : constraintHits py aspect hits ≠ [] :=
    List.ne_nil_of_mem ((mem_constraintHits py).mpr ⟨hother, hsatisfies⟩)
  rw [usedHits, if_neg hne] at hmem
  exact ((mem_constraintHits py).mp hmem).2

/-- A hit is counted for the aspect. -/
def CountedFor (aspect : Text) (hits : List RetrievalHit) (hit : RetrievalHit) : Prop :=
  hit ∈ hits ∧ hit.chunkId ∈ (assessAspect py gate aspect hits).supportingChunkIds

instance (aspect : Text) (hits : List RetrievalHit) (hit : RetrievalHit) :
    Decidable (CountedFor py gate aspect hits hit) :=
  inferInstanceAs (Decidable (_ ∧ _))

/-- A counted chunk is a hit that was used, since the chunks of the hits are distinct. -/
theorem CountedFor.mem_usedHits {aspect : Text} {hits : List RetrievalHit} {hit : RetrievalHit}
    (hids : (hits.map RetrievalHit.chunkId).Nodup)
    (hsupported : (assessAspect py gate aspect hits).supported = true)
    (h : CountedFor py gate aspect hits hit) : hit ∈ usedHits py aspect hits := by
  have hne : hits ≠ [] := List.ne_nil_of_mem h.1
  have hnone := (assessAspect_supported_iff py gate hne).mp hsupported
  have hid := h.2
  rw [assessAspect_supportingChunkIds py gate hne hnone] at hid
  obtain ⟨other, hother, hsame⟩ := List.mem_map.mp hid
  have hused := (List.mem_filter.mp hother).1
  rwa [← List.inj_on_of_nodup_map hids (mem_of_mem_usedHits py hused) h.1 hsame]

/-- Nothing is supported without hits. -/
theorem ne_nil_of_supported {aspect : Text} {hits : List RetrievalHit}
    (h : (assessAspect py gate aspect hits).supported = true) : hits ≠ [] := by
  rintro rfl
  have hused : usedHits py aspect [] = [] := if_pos rfl
  have hids : supportingIds py gate aspect [] = [] := by
    rw [supportingIds, hused]
    rfl
  unfold assessAspect at h
  simp only [hids, if_true] at h
  split_ifs at h

theorem exists_counted {aspect : Text} {hits : List RetrievalHit}
    (hsupported : (assessAspect py gate aspect hits).supported = true) :
    ∃ hit, CountedFor py gate aspect hits hit := by
  have hne : hits ≠ [] := ne_nil_of_supported py gate hsupported
  have hnone := (assessAspect_supported_iff py gate hne).mp hsupported
  have hcounted := ((aspectFailure_eq_none_iff py gate).mp hnone).counted
  obtain ⟨id, hid⟩ := List.exists_mem_of_ne_nil _ hcounted
  have hid' := hid
  rw [← assessAspect_supportingChunkIds py gate hne hnone] at hid'
  obtain ⟨hit, hhit, rfl⟩ := List.mem_map.mp hid
  exact ⟨hit, mem_of_mem_usedHits py (List.mem_filter.mp hhit).1, hid'⟩

/-- The chunks counted for a supported aspect all state its relation and its scope exactly if some one
hit states both. -/
theorem counted_satisfy_iff {aspect : Text} {hits : List RetrievalHit}
    (hsupported : (assessAspect py gate aspect (uniqueHits hits)).supported = true) :
    (∀ hit, CountedFor py gate aspect (uniqueHits hits) hit → Satisfies py aspect hit) ↔
      ∃ hit ∈ uniqueHits hits, Satisfies py aspect hit := by
  have hids : ((uniqueHits hits).map RetrievalHit.chunkId).Nodup := nodup_firstsBy _ _
  constructor
  · intro h
    obtain ⟨hit, hhit⟩ := exists_counted py gate hsupported
    exact ⟨hit, hhit.1, h hit hhit⟩
  · intro h hit hhit
    exact satisfies_of_counted py h (hhit.mem_usedHits py gate hids hsupported)

/-! ## A relation and a scope of different hits -/

/-- A hit that reports a cancellation, of something for units that are not the queried ones. -/
def cancellationHit : RetrievalHit where
  chunkId := "cancellation"
  documentId := "1"
  content := str "取消地方各级收费技术企业单位"
  title := str "通知"
  sourceUrl := []
  score := .finite 1
  source := str "bm25"
  metadata := []

/-- A hit that names the queried units as the ones that a fee applies to. -/
def scopeHit : RetrievalHit :=
  { cancellationHit with chunkId := "scope", content := str "收费项目适用于高新技术企业单位" }

/-- A query about a cancellation for those units. -/
def cancellationQuery : Text := str "取消地方各级收费项目适用于高新技术企业单位"

theorem cancellationQuery_supported :
    (assessAspect .basic .default cancellationQuery
        (uniqueHits [cancellationHit, scopeHit])).supported = true ∧
      (assessAspect .basic .default cancellationQuery
        (uniqueHits [cancellationHit, scopeHit])).supportingChunkIds = ["cancellation", "scope"] := by
  decide +kernel

/-- One hit states the relation and the other one the scope: both are counted. -/
theorem relation_and_scope_from_different_hits :
    cancellationQuery ∈ queryAspects cancellationQuery ∧
      (assessAspect .basic .default cancellationQuery
        (uniqueHits [cancellationHit, scopeHit])).supported = true ∧
      CountedFor .basic .default cancellationQuery (uniqueHits [cancellationHit, scopeHit])
        cancellationHit ∧
      CountedFor .basic .default cancellationQuery (uniqueHits [cancellationHit, scopeHit])
        scopeHit ∧
      ¬ Satisfies .basic cancellationQuery cancellationHit ∧
      ¬ Satisfies .basic cancellationQuery scopeHit := by
  obtain ⟨hsupported, hids⟩ := cancellationQuery_supported
  refine ⟨by decide +kernel, hsupported, ⟨by decide, ?_⟩, ⟨by decide, ?_⟩, by decide +kernel⟩
  · rw [hids]
    decide
  · rw [hids]
    decide

/-- There no single hit states both constraints, and so not every counted chunk does. -/
theorem counted_satisfy_iff_cancellationQuery :
    (∀ hit, CountedFor .basic .default cancellationQuery (uniqueHits [cancellationHit, scopeHit]) hit →
        Satisfies .basic cancellationQuery hit) ↔
      ∃ hit ∈ uniqueHits [cancellationHit, scopeHit], Satisfies .basic cancellationQuery hit :=
  counted_satisfy_iff .basic .default cancellationQuery_supported.1

end Odirag.Rag
