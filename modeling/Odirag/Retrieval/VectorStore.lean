import Mathlib.Data.Prod.Lex
import Mathlib.Data.List.Lex
import Mathlib.Data.Char
import Odirag.Foundations.Best
import Odirag.Foundations.Except
import Odirag.Foundations.Keyed
import Odirag.Retrieval.Filters

/-!
# The vector store

Reference: `InMemoryVectorStore` of `backend/app/vector_store/store.py`.

A collection is a number of dimensions and one point for each identifier (`Collection`). The store
keeps its points in an insertion-ordered dictionary and fixes the dimensions with the first vector it
sees; `runCalls_refines` says that it is a collection, whatever is done with it, and `runCalls_search`
what a search finds there. Similarities are the elements of a linear order.
-/

namespace Odirag.Retrieval

/-- A point with its vector. -/
structure EmbeddedPoint (F : Type) extends VectorPoint where
  vector : List F

/-- The attributes of `InMemoryVectorStore`. -/
structure InMemoryVectorStore (F : Type) where
  points : List (EmbeddedPoint F) := []
  dimensions : Option ℕ := none

/-- A `ValueError`. -/
inductive StoreError
  | notPositive
  | dimensionsChanged
  | dimensionsDiffer
deriving DecidableEq, Repr

/-- What a search returns; the source of every hit is `vector`. -/
structure VectorHit (K : Type) where
  chunkId : Text
  documentId : Text
  content : Text
  title : Text
  sourceUrl : Text
  score : K
  rank : ℕ
  metadata : Dict

/-- `xs[:k]`. -/
def sliceTo {α : Type*} (k : ℤ) (xs : List α) : List α :=
  if 0 ≤ k then xs.take k.toNat else xs.take (xs.length - k.natAbs)

namespace InMemoryVectorStore

variable {F K : Type} [LinearOrder K]

/-- `ensure_collection`. -/
def ensureCollection (s : InMemoryVectorStore F) (dimensions : ℤ) :
    InMemoryVectorStore F × Except StoreError Unit :=
  if dimensions ≤ 0 then (s, .error .notPositive)
  else if s.dimensions.any (· ≠ dimensions.toNat) then (s, .error .dimensionsChanged)
  else ({ s with dimensions := some dimensions.toNat }, .ok ())

/-- The loop of `upsert` over the points: the dimensions it leaves, and whether it went through. -/
def checkDimensions : Option ℕ → List (EmbeddedPoint F) → Option ℕ × Bool
  | dimensions, [] => (dimensions, true)
  | dimensions, point :: points =>
      let expected := dimensions.getD point.vector.length
      if point.vector.length ≠ expected then (some expected, false)
      else checkDimensions (some expected) points

/-- `upsert`. -/
def upsert (s : InMemoryVectorStore F) (points : List (EmbeddedPoint F)) :
    InMemoryVectorStore F × Except StoreError Unit :=
  let (dimensions, ok) := checkDimensions s.dimensions points
  if ok then
    ({ points := Keyed.putAll (·.pointId) s.points (Keyed.putAll (·.pointId) [] points),
       dimensions := dimensions }, .ok ())
  else ({ s with dimensions := dimensions }, .error .dimensionsDiffer)

/-- `delete`. -/
def delete (s : InMemoryVectorStore F) (pointIds : List Text) : InMemoryVectorStore F :=
  { s with points := pointIds.foldl (Keyed.remove (·.pointId)) s.points }

/-- The points that meet the filters. -/
def matching (s : InMemoryVectorStore F) (filters : Dict) : List (EmbeddedPoint F) :=
  s.points.filter fun point => InMemoryVectorStore.matches point.searched filters

/-- `count`. -/
def count (s : InMemoryVectorStore F) (filters : Dict) : ℕ := (s.matching filters).length

/-- `_cosine`, which is `similarity` of vectors with as many dimensions. -/
def cosine (similarity : List F → List F → K) (left right : List F) : Except StoreError K :=
  if left.length ≠ right.length then .error .dimensionsDiffer else .ok (similarity left right)

/-- The key of the sort: the most similar first, then by identifier. -/
def searchKey (candidate : K × EmbeddedPoint F) : Kᵒᵈ ×ₗ Text :=
  toLex (OrderDual.toDual candidate.1, candidate.2.pointId)

/-- A hit with its rank. -/
def hit (candidate : (K × EmbeddedPoint F) × ℕ) : VectorHit K where
  chunkId := candidate.1.2.pointId
  documentId := candidate.1.2.documentId
  content := candidate.1.2.content
  title := candidate.1.2.title
  sourceUrl := candidate.1.2.sourceUrl
  score := candidate.1.1
  rank := candidate.2
  metadata := candidate.1.2.payload

/-- `search`. -/
def search (similarity : List F → List F → K) (s : InMemoryVectorStore F) (vector : List F)
    (topK : ℤ) (filters : Dict) : Except StoreError (List (VectorHit K)) := do
  let candidates ← (s.matching filters).mapM fun point => do
    return (← cosine similarity vector point.vector, point)
  return ((sliceTo topK (sortedBy searchKey candidates)).zipIdx 1).map hit

end InMemoryVectorStore

/-! ## Collections -/

/-- What the store is for: the dimensions of its vectors, once they are known, and a point for each
identifier. -/
structure Collection (F : Type) where
  dimensions : Option ℕ
  point : Text → Option (EmbeddedPoint F)

/-- One call that changes the store. -/
inductive StoreCall (F : Type)
  | ensureCollection (dimensions : ℤ)
  | upsert (points : List (EmbeddedPoint F))
  | delete (pointIds : List Text)

namespace Collection

variable {F : Type}

/-- The empty collection. -/
def empty : Collection F := ⟨none, fun _ => none⟩

/-- A call on a collection. Vectors are stored if all of them have its dimensions; the first one
fixes them, also when a later one is refused. -/
def call (c : Collection F) : StoreCall F → Collection F × Except StoreError Unit
  | .ensureCollection dimensions =>
      if dimensions ≤ 0 then (c, .error .notPositive)
      else if c.dimensions.any (· ≠ dimensions.toNat) then (c, .error .dimensionsChanged)
      else ({ c with dimensions := some dimensions.toNat }, .ok ())
  | .upsert points =>
      let dimensions := c.dimensions.or (points.head?.map (·.vector.length))
      if ∀ point ∈ points, some point.vector.length = dimensions then
        ({ dimensions := dimensions
           point := fun id => (points.reverse.find? (·.pointId = id)).or (c.point id) }, .ok ())
      else ({ c with dimensions := dimensions }, .error .dimensionsDiffer)
  | .delete pointIds =>
      ({ c with point := fun id => if id ∈ pointIds then none else c.point id }, .ok ())

end Collection

namespace InMemoryVectorStore

variable {F K : Type} [LinearOrder K] {s s' : InMemoryVectorStore F} {c : Collection F}

/-- A call on the store. -/
def call (s : InMemoryVectorStore F) : StoreCall F → InMemoryVectorStore F × Except StoreError Unit
  | .ensureCollection dimensions => s.ensureCollection dimensions
  | .upsert points => s.upsert points
  | .delete pointIds => (s.delete pointIds, .ok ())

/-- The store is this collection. -/
structure Represents (s : InMemoryVectorStore F) (c : Collection F) : Prop where
  nodup : (s.points.map (·.pointId)).Nodup
  point : ∀ id, Keyed.find? (·.pointId) id s.points = c.point id
  dimensions : s.dimensions = c.dimensions
  length : ∀ p ∈ s.points, some p.vector.length = s.dimensions

theorem represents_empty : Represents (F := F) {} .empty :=
  ⟨List.nodup_nil, fun _ => rfl, rfl, by simp⟩

/-- The loop of `upsert` compares all vectors with the dimensions or with the first one. -/
theorem checkDimensions_eq (dimensions : Option ℕ) (points : List (EmbeddedPoint F)) :
    checkDimensions dimensions points =
      (dimensions.or (points.head?.map (·.vector.length)),
        decide (∀ point ∈ points,
          some point.vector.length = dimensions.or (points.head?.map (·.vector.length)))) := by
  induction points generalizing dimensions with
  | nil => simp [checkDimensions]
  | cons point points ih =>
      have hexpected : dimensions.or (((point :: points).head?).map (·.vector.length)) =
          some (dimensions.getD point.vector.length) := by
        cases dimensions <;> rfl
      rw [hexpected, checkDimensions, ih]
      by_cases hlength : point.vector.length = dimensions.getD point.vector.length
      · simp [← hlength]
      · simp [hlength]

theorem find?_foldl_remove (points : List (EmbeddedPoint F)) (pointIds : List Text) (id : Text) :
    Keyed.find? (·.pointId) id (pointIds.foldl (Keyed.remove (·.pointId)) points) =
      if id ∈ pointIds then none else Keyed.find? (·.pointId) id points := by
  induction pointIds generalizing points with
  | nil => simp
  | cons pointId pointIds ih =>
      rw [List.foldl_cons, ih, Keyed.find?_remove]
      by_cases hmem : id ∈ pointIds
      · simp [hmem]
      · by_cases heq : id = pointId <;> simp [hmem, heq]

theorem foldl_remove_sublist (points : List (EmbeddedPoint F)) (pointIds : List Text) :
    (pointIds.foldl (Keyed.remove (·.pointId)) points).Sublist points := by
  induction pointIds generalizing points with
  | nil => exact List.Sublist.refl _
  | cons pointId pointIds ih => exact (ih _).trans List.filter_sublist

/-- One call on the store is the call on the collection. -/
theorem Represents.call (h : Represents s c) (op : StoreCall F) :
    (s.call op).2 = (c.call op).2 ∧ Represents (s.call op).1 (c.call op).1 := by
  cases op with
  | ensureCollection dimensions =>
      simp only [InMemoryVectorStore.call, InMemoryVectorStore.ensureCollection, Collection.call,
        h.dimensions]
      split
      · exact ⟨rfl, h⟩
      · split
        · exact ⟨rfl, h⟩
        · next hsame =>
            refine ⟨rfl, h.nodup, h.point, rfl, fun p hp => ?_⟩
            have hlength := (h.length p hp).trans h.dimensions
            rw [← hlength] at hsame
            change some p.vector.length = some dimensions.toNat
            simpa using hsame
  | upsert points =>
      simp only [InMemoryVectorStore.call, InMemoryVectorStore.upsert, Collection.call,
        checkDimensions_eq, h.dimensions]
      -- What is stored already has the dimensions, if there is anything.
      have hold : ∀ p ∈ s.points,
          some p.vector.length = c.dimensions.or (points.head?.map (·.vector.length)) := by
        intro p hp
        rw [← (h.length p hp).trans h.dimensions]
        rfl
      by_cases hall : ∀ point ∈ points,
          some point.vector.length = c.dimensions.or (points.head?.map (·.vector.length))
      · simp only [decide_eq_true_eq, if_pos hall]
        refine ⟨trivial, Keyed.nodup_putAll h.nodup, fun id => ?_, rfl, fun p hp => ?_⟩
        · have hnew : ((Keyed.putAll (·.pointId) [] points).map (·.pointId)).Nodup :=
            Keyed.nodup_putAll (by simp)
          rw [Keyed.find?_putAll hnew, Keyed.find?_putAll_reverse,
            Keyed.find?_nil, Option.or_none, h.point]
          rfl
        · rcases Keyed.mem_of_mem_putAll hp with hp | hp
          · exact hall p ((Keyed.mem_of_mem_putAll hp).resolve_right List.not_mem_nil)
          · exact hold p hp
      · simp only [decide_eq_true_eq, if_neg hall]
        exact ⟨trivial, h.nodup, h.point, rfl, hold⟩
  | delete pointIds =>
      refine ⟨rfl, h.nodup.sublist ((foldl_remove_sublist _ _).map _), fun id => ?_, h.dimensions,
        fun p hp => h.length p ((foldl_remove_sublist _ _).subset hp)⟩
      simp only [InMemoryVectorStore.call, delete, Collection.call]
      rw [find?_foldl_remove, h.point]

/-- The answers to calls and the store they leave. -/
def runCalls (s : InMemoryVectorStore F) :
    List (StoreCall F) → List (Except StoreError Unit) × InMemoryVectorStore F
  | [] => ([], s)
  | op :: ops =>
      let (answers, final) := runCalls (s.call op).1 ops
      ((s.call op).2 :: answers, final)

end InMemoryVectorStore

/-- The answers to calls and the collection they leave. -/
def Collection.runCalls {F : Type} (c : Collection F) :
    List (StoreCall F) → List (Except StoreError Unit) × Collection F
  | [] => ([], c)
  | op :: ops =>
      let (answers, final) := Collection.runCalls (c.call op).1 ops
      ((c.call op).2 :: answers, final)

namespace InMemoryVectorStore

variable {F K : Type} [LinearOrder K] {s s' : InMemoryVectorStore F} {c : Collection F}

theorem Represents.runCalls (h : Represents s c) (ops : List (StoreCall F)) :
    (s.runCalls ops).1 = (c.runCalls ops).1 ∧ Represents (s.runCalls ops).2 (c.runCalls ops).2 := by
  induction ops generalizing s c with
  | nil => exact ⟨rfl, h⟩
  | cons op ops ih =>
      obtain ⟨hanswer, hnext⟩ := h.call op
      obtain ⟨hanswers, hfinal⟩ := ih hnext
      refine ⟨?_, hfinal⟩
      simp only [InMemoryVectorStore.runCalls, Collection.runCalls, hanswer, hanswers]

/-! ### Searching -/

theorem Represents.mem_matching (h : Represents s c) {filters : Dict} {p : EmbeddedPoint F} :
    p ∈ s.matching filters ↔
      c.point p.pointId = some p ∧ InMemoryVectorStore.matches p.searched filters = true := by
  rw [matching, List.mem_filter, ← h.point, Keyed.find?_eq_some_iff h.nodup]
  simp

theorem Represents.nodup_matching (h : Represents s c) (filters : Dict) :
    ((s.matching filters).map (·.pointId)).Nodup :=
  h.nodup.sublist (List.filter_sublist.map _)

/-- Stores of one collection have the same points. -/
theorem Represents.perm (h : Represents s c) (h' : Represents s' c) : s.points.Perm s'.points :=
  Keyed.perm_of_find? h.nodup h'.nodup fun id => (h.point id).trans (h'.point id).symm

omit [LinearOrder K] in
/-- The candidates of a search, when the vector has the dimensions of the points. -/
theorem mapM_cosine (similarity : List F → List F → K) (vector : List F)
    (points : List (EmbeddedPoint F)) :
    (points.mapM fun point => do
      return (← cosine similarity vector point.vector, point) :
        Except StoreError (List (K × EmbeddedPoint F))) =
      if ∀ p ∈ points, vector.length = p.vector.length then
        .ok (points.map fun point => (similarity vector point.vector, point))
      else .error .dimensionsDiffer := by
  induction points with
  | nil => rfl
  | cons p points ih =>
      have hcons : (∀ q ∈ p :: points, vector.length = q.vector.length) ↔
          vector.length = p.vector.length ∧ ∀ q ∈ points, vector.length = q.vector.length :=
        List.forall_mem_cons
      rw [List.mapM_cons, ih]
      by_cases hp : vector.length = p.vector.length
      · by_cases hpoints : ∀ q ∈ points, vector.length = q.vector.length
        · rw [if_pos hpoints, if_pos (hcons.mpr ⟨hp, hpoints⟩)]
          simp only [cosine, hp, ne_eq, not_true_eq_false, if_false]
          rfl
        · rw [if_neg hpoints, if_neg fun h => hpoints (hcons.mp h).2]
          simp only [cosine, hp, ne_eq, not_true_eq_false, if_false]
          rfl
      · rw [if_neg fun h => hp (hcons.mp h).1]
        simp only [cosine, ne_eq, hp, not_false_eq_true, if_true]
        rfl

/-- The points that meet the filters, with their similarities, the most similar first. -/
def ranked (similarity : List F → List F → K) (s : InMemoryVectorStore F) (vector : List F)
    (filters : Dict) : List (K × EmbeddedPoint F) :=
  sortedBy searchKey ((s.matching filters).map fun point => (similarity vector point.vector, point))

theorem search_eq (similarity : List F → List F → K) (s : InMemoryVectorStore F)
    (vector : List F) (topK : ℤ) (filters : Dict) :
    s.search similarity vector topK filters =
      if ∀ p ∈ s.matching filters, vector.length = p.vector.length then
        .ok (((sliceTo topK (s.ranked similarity vector filters)).zipIdx 1).map hit)
      else .error .dimensionsDiffer := by
  rw [search, mapM_cosine]
  split <;> rfl

omit [LinearOrder K] in
theorem Represents.nodup_searchKey (h : Represents s c) (similarity : List F → List F → K)
    (vector : List F) (filters : Dict) :
    (((s.matching filters).map fun point =>
      (similarity vector point.vector, point)).map searchKey).Nodup := by
  refine List.Nodup.of_map (fun key => (ofLex key).2) ?_
  rw [List.map_map, List.map_map]
  exact h.nodup_matching filters

/-- The answers of a store depend on its collection only. -/
theorem Represents.search_congr (h : Represents s c) (h' : Represents s' c)
    (similarity : List F → List F → K) (vector : List F) (topK : ℤ) (filters : Dict) :
    s.search similarity vector topK filters = s'.search similarity vector topK filters := by
  have hperm : (s.matching filters).Perm (s'.matching filters) := (h.perm h').filter _
  have hranked : s.ranked similarity vector filters = s'.ranked similarity vector filters :=
    sortedBy_eq_of_perm (hperm.map _) (h.nodup_searchKey similarity vector filters)
  rw [search_eq, search_eq, hranked]
  simp only [hperm.mem_iff]

/-- A candidate comes before another one: it is more similar, or as similar with a smaller
identifier. -/
theorem searchKey_lt_iff {a b : K × EmbeddedPoint F} :
    searchKey a < searchKey b ↔ b.1 < a.1 ∨ a.1 = b.1 ∧ a.2.pointId < b.2.pointId := by
  rw [Prod.Lex.lt_iff]
  rfl

theorem mem_ranked {similarity : List F → List F → K} {vector : List F} {filters : Dict}
    {candidate : K × EmbeddedPoint F} :
    candidate ∈ s.ranked similarity vector filters ↔
      candidate.2 ∈ s.matching filters ∧ similarity vector candidate.2.vector = candidate.1 := by
  rw [ranked, mem_sortedBy, List.mem_map]
  constructor
  · rintro ⟨p, hp, rfl⟩
    exact ⟨hp, rfl⟩
  · rintro ⟨hp, hscore⟩
    exact ⟨candidate.2, hp, Prod.ext hscore rfl⟩

omit [LinearOrder K] in
/-- The hits of candidates, in their order and numbered from one. -/
theorem pairwise_map_hit {r : VectorHit K → VectorHit K → Prop}
    {r' : K × EmbeddedPoint F → K × EmbeddedPoint F → Prop}
    (hr : ∀ a b i j, r (hit (a, i)) (hit (b, j)) ↔ r' a b) {candidates : List (K × EmbeddedPoint F)}
    (h : candidates.Pairwise r') : ((candidates.zipIdx 1).map hit).Pairwise r := by
  rw [List.pairwise_map]
  have hfst : ((candidates.zipIdx 1).map Prod.fst).Pairwise r' := by rwa [List.zipIdx_map_fst]
  rw [List.pairwise_map] at hfst
  exact hfst.imp fun {a b} hab => (hr a.1 b.1 a.2 b.2).mpr hab

omit [LinearOrder K] in
theorem mem_map_hit {candidates : List (K × EmbeddedPoint F)} {h : VectorHit K}
    (hmem : h ∈ (candidates.zipIdx 1).map hit) :
    ∃ candidate ∈ candidates, h = hit (candidate, h.rank) := by
  obtain ⟨entry, hentry, rfl⟩ := List.mem_map.mp hmem
  refine ⟨entry.1, ?_, rfl⟩
  have hfst := List.mem_map_of_mem (f := Prod.fst) hentry
  rwa [List.zipIdx_map_fst] at hfst

omit [LinearOrder K] in
theorem exists_mem_map_hit {candidates : List (K × EmbeddedPoint F)} {candidate : K × EmbeddedPoint F}
    (hmem : candidate ∈ candidates) : ∃ i, hit (candidate, i) ∈ (candidates.zipIdx 1).map hit := by
  rw [← List.zipIdx_map_fst 1 candidates] at hmem
  obtain ⟨entry, hentry, rfl⟩ := List.mem_map.mp hmem
  exact ⟨entry.2, List.mem_map_of_mem hentry⟩

end InMemoryVectorStore

open InMemoryVectorStore

/-- Whatever is called on an empty store, it answers like a collection and holds its points, and two
stores whose calls leave one collection count and find the same. -/
theorem runCalls_refines {F K : Type} [LinearOrder K] (ops : List (StoreCall F)) :
    let s := (runCalls {} ops).2
    let c := (Collection.empty.runCalls ops).2
    (runCalls {} ops).1 = (Collection.empty.runCalls ops).1 ∧
      s.dimensions = c.dimensions ∧
      (∀ id, Keyed.find? (·.pointId) id s.points = c.point id) ∧
      (s.points.map (·.pointId)).Nodup ∧
      (∀ p ∈ s.points, some p.vector.length = s.dimensions) ∧
      ∀ ops', (Collection.empty.runCalls ops').2 = c →
        (∀ filters, s.count filters = (runCalls {} ops').2.count filters) ∧
          ∀ (similarity : List F → List F → K) vector topK filters,
            s.search similarity vector topK filters =
              (runCalls {} ops').2.search similarity vector topK filters := by
  intro s c
  obtain ⟨hanswers, h⟩ := represents_empty.runCalls ops
  refine ⟨hanswers, h.dimensions, h.point, h.nodup, h.length, fun ops' hsame => ?_⟩
  have h' := (represents_empty.runCalls ops').2
  rw [hsame] at h'
  exact ⟨fun filters => ((h.perm h').filter _).length_eq, h.search_congr h'⟩

/-- A search with a vector of the right dimensions finds the best `topK` of the points that meet the
filters: each with its similarity, the most similar first and equally similar ones by identifier,
numbered from one; every other point that meets the filters comes after all of them. With other
dimensions it fails as soon as one point meets the filters. -/
theorem runCalls_search {F K : Type} [LinearOrder K] (ops : List (StoreCall F))
    (similarity : List F → List F → K) (vector : List F) {topK : ℤ} (htop : 0 ≤ topK)
    (filters : Dict) :
    let s := (runCalls {} ops).2
    let c := (Collection.empty.runCalls ops).2
    ((∀ d ∈ c.dimensions, vector.length = d) → ∃ hits,
      s.search similarity vector topK filters = .ok hits ∧
        hits.length = min topK.toNat (s.count filters) ∧
        hits.map (·.rank) = List.range' 1 hits.length ∧
        hits.Pairwise (fun h h' =>
          h'.score < h.score ∨ h.score = h'.score ∧ h.chunkId < h'.chunkId) ∧
        (∀ h ∈ hits, ∃ p, c.point h.chunkId = some p ∧
          InMemoryVectorStore.matches p.searched filters = true ∧
            h = hit ((similarity vector p.vector, p), h.rank)) ∧
        ∀ id p, c.point id = some p → InMemoryVectorStore.matches p.searched filters = true →
          id ∉ hits.map (·.chunkId) → ∀ h ∈ hits, similarity vector p.vector < h.score ∨
            h.score = similarity vector p.vector ∧ h.chunkId < id) ∧
      (∀ d ∈ c.dimensions, vector.length ≠ d → s.count filters ≠ 0 →
        s.search similarity vector topK filters = .error .dimensionsDiffer) := by
  intro s c
  have h : Represents s c := (represents_empty.runCalls ops).2
  have hdim : ∀ p ∈ s.matching filters, some p.vector.length = c.dimensions := fun p hp =>
    (h.length p (List.mem_of_mem_filter hp)).trans h.dimensions
  have hslice : sliceTo topK (s.ranked similarity vector filters) =
      (s.ranked similarity vector filters).take topK.toNat := if_pos htop
  have hkeys := h.nodup_searchKey similarity vector filters
  rw [search_eq, hslice]
  refine ⟨fun hvector => ?_, fun d hd hne hcount => ?_⟩
  · rw [if_pos fun p hp => hvector _ (hdim p hp).symm]
    refine ⟨_, rfl, ?_, ?_, ?_, fun hit' hmem => ?_, fun id p hp hmatches hcut hit' hmem => ?_⟩
    · simp [ranked, count]
    · rw [List.map_map, List.length_map, List.length_zipIdx, ← List.zipIdx_map_snd]
      rfl
    · have hlt : ((s.ranked similarity vector filters).take topK.toNat).Pairwise
          fun a b => searchKey a < searchKey b :=
        (pairwise_sortedBy_lt hkeys).sublist (List.take_sublist _ _)
      exact pairwise_map_hit (fun a b _ _ => searchKey_lt_iff.symm) hlt
    · obtain ⟨candidate, hcandidate, heq⟩ := mem_map_hit hmem
      obtain ⟨hmatching, hscore⟩ := mem_ranked.mp (List.mem_of_mem_take hcandidate)
      obtain ⟨hpoint, hmatches⟩ := h.mem_matching.mp hmatching
      refine ⟨candidate.2, ?_, hmatches, ?_⟩
      · rw [heq]
        exact hpoint
      · rw [hscore]
        exact heq
    · obtain ⟨candidate, hcandidate, heq⟩ := mem_map_hit hmem
      have hid : p.pointId = id := by
        rw [← h.point] at hp
        exact (Keyed.find?_some hp).2
      have hmatching : p ∈ s.matching filters := h.mem_matching.mpr ⟨hid.symm ▸ hp, hmatches⟩
      have hlt : searchKey candidate < searchKey (similarity vector p.vector, p) := by
        refine lt_of_not_mem_take hkeys (List.mem_map_of_mem hmatching) (fun hkept => ?_) hcandidate
        obtain ⟨i, hi⟩ := exists_mem_map_hit hkept
        exact hcut (List.mem_map.mpr ⟨_, hi, hid⟩)
      rw [searchKey_lt_iff, hid] at hlt
      rw [heq]
      exact hlt
  · obtain ⟨p, hp⟩ := List.exists_mem_of_ne_nil (s.matching filters) fun hnil =>
      hcount (by rw [count, hnil, List.length_nil])
    refine if_neg fun hall => hne ?_
    have hlength := (hdim p hp).trans hd
    exact (hall p hp).trans (Option.some_inj.mp hlength)

/-- Two points in the plane. -/
def twoPoints : List (EmbeddedPoint ℤ) :=
  [⟨⟨str "chunk-1", str "doc-1", str "east", [], [], []⟩, [1, 0]⟩,
    ⟨⟨str "chunk-2", str "doc-1", str "north", [], [], []⟩, [0, 1]⟩]

/-- The similarity of points in the plane. -/
def planeProduct (left right : List ℤ) : ℤ := (List.zipWith (· * ·) left right).foldl (· + ·) 0

theorem runCalls_search_twoPoints :
    ∃ hits : List (VectorHit ℤ),
      (runCalls {} [.upsert twoPoints]).2.search planeProduct [0, 2] 1 [] = .ok hits ∧
        hits.length = min 1 ((runCalls {} [.upsert twoPoints]).2.count []) := by
  obtain ⟨hits, hsearch, hlength, -⟩ :=
    (runCalls_search [.upsert twoPoints] planeProduct [0, 2] Int.one_nonneg []).1 (by decide)
  exact ⟨hits, hsearch, hlength⟩

end Odirag.Retrieval
