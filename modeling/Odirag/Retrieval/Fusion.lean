import Odirag.Foundations.Except
import Odirag.Foundations.Positional
import Odirag.Retrieval.Hit
import Mathlib.Algebra.Order.Field.Basic
import Mathlib.Data.List.AList
import Mathlib.Data.String.Basic

/-!
# Reciprocal rank fusion

Reference: `backend/app/retrieval/rrf.py`.

The loop over the rankings adds up, for each chunk, the reciprocal of a constant plus the rank at
which the chunk first stands (`tally_score`). So fusion is an aggregation by position, and what is
known of these holds of it (`reciprocalRankFusion_spec`). Scores are exact rationals here.
-/

namespace Odirag.Retrieval

open Positional

/-! ## The program -/

/-- A `ValueError`, or a `KeyError`. -/
inductive FusionError
  | value (message : String)
  | key
deriving DecidableEq, Repr

/-- The dictionaries `scores`, `exemplars` and `origins`. -/
structure Tally where
  scores : AList fun _ : String => ℚ
  exemplars : AList fun _ : String => RetrievalHit
  origins : AList fun _ : String => List Text

namespace Tally

/-- `scores[chunk_id]`. -/
def score (t : Tally) (id : String) : ℚ := (t.scores.lookup id).getD 0

/-- `origins[chunk_id]`. -/
def origin (t : Tally) (id : String) : List Text := (t.origins.lookup id).getD []

/-- Count a hit. -/
def add (t : Tally) (weight : ℚ) (hit : RetrievalHit) : Tally where
  scores := t.scores.insert hit.chunkId (t.score hit.chunkId + weight)
  exemplars :=
    if hit.chunkId ∈ t.exemplars then t.exemplars else t.exemplars.insert hit.chunkId hit
  origins := t.origins.insert hit.chunkId ((t.origin hit.chunkId).insert hit.source)

end Tally

/-- What a rank counts. -/
def reciprocal (rrfK : ℤ) (rank : ℕ) : ℚ := 1 / (rrfK + rank)

/-- One hit of a ranking; the state is `seen` and the dictionaries. -/
def addHit (rrfK : ℤ) (state : List String × Tally) (entry : RetrievalHit × ℕ) :
    List String × Tally :=
  if entry.1.chunkId ∈ state.1 then state
  else (entry.1.chunkId :: state.1, state.2.add (reciprocal rrfK entry.2) entry.1)

/-- One ranking. -/
def addRanking (rrfK : ℤ) (t : Tally) (ranking : List RetrievalHit) : Tally :=
  ((ranking.zipIdx 1).foldl (addHit rrfK) ([], t)).2

/-- All rankings. -/
def tally (rrfK : ℤ) (rankings : List (List RetrievalHit)) : Tally :=
  rankings.foldl (addRanking rrfK) ⟨∅, ∅, ∅⟩

/-- `"+".join(sorted(origins))`. -/
def joinOrigins (origins : List Text) : Text :=
  List.intercalate ['+'] (origins.insertionSort (· ≤ ·))

/-- A chunk of the result. -/
def fusedHit (t : Tally) (entry : String × ℕ) : Except FusionError RetrievalHit :=
  match t.exemplars.lookup entry.1 with
  | none => .error .key
  | some hit =>
      .ok (hit.withScore (.finite (t.score entry.1)) entry.2 (joinOrigins (t.origin entry.1)))

/-- `reciprocal_rank_fusion`. -/
def reciprocalRankFusion (rankings : List (List RetrievalHit)) (rrfK : ℤ := 60)
    (limit : Option ℤ := none) : Except FusionError (List RetrievalHit) :=
  if rrfK ≤ 0 then .error (.value "rrf_k must be positive")
  else
    let t := tally rrfK rankings
    let ordered := inOrder t.score t.scores.keys
    let ordered :=
      match limit with
      | none => ordered
      | some limit => ordered.take (max 0 limit).toNat
    (ordered.zipIdx 1).mapM (fusedHit t)

/-! ## The dictionaries -/

/-- The chunks of a ranking. -/
def chunkIds (ranking : List RetrievalHit) : List String := ranking.map RetrievalHit.chunkId

/-- What the place of a chunk counts. -/
def placeWeight (rrfK : ℤ) (place : ℕ) : ℚ := reciprocal rrfK (place + 1)

namespace Tally

/-- The dictionaries have the same keys, and the exemplar of a chunk is a hit of this chunk. -/
structure Consistent (t : Tally) : Prop where
  keys : ∀ id, id ∈ t.exemplars ↔ id ∈ t.scores
  exemplar : ∀ id hit, t.exemplars.lookup id = some hit → hit.chunkId = id

variable {t : Tally} {weight : ℚ} {hit : RetrievalHit} {id : String}

theorem score_add : (t.add weight hit).score id =
    t.score id + if id = hit.chunkId then weight else 0 := by
  by_cases h : id = hit.chunkId
  · subst h
    simp [add, score]
  · simp [add, score, h]

theorem mem_scores_add : id ∈ (t.add weight hit).scores ↔ id = hit.chunkId ∨ id ∈ t.scores := by
  simp [add]

theorem Consistent.add (h : t.Consistent) : (t.add weight hit).Consistent where
  keys id := by
    rw [mem_scores_add, ← h.keys]
    by_cases hmem : hit.chunkId ∈ t.exemplars
    · simp only [Tally.add, if_pos hmem]
      constructor
      · exact .inr
      · rintro (rfl | hid)
        · exact hmem
        · exact hid
    · simp [Tally.add, if_neg hmem]
  exemplar id hit' hlookup := by
    by_cases hmem : hit.chunkId ∈ t.exemplars
    · exact h.exemplar id hit' (by simpa [Tally.add, if_pos hmem] using hlookup)
    · simp only [Tally.add, if_neg hmem] at hlookup
      by_cases hid : id = hit.chunkId
      · subst hid
        rw [AList.lookup_insert] at hlookup
        rw [Option.some.inj hlookup]
      · rw [AList.lookup_insert_ne hid] at hlookup
        exact h.exemplar id hit' hlookup

end Tally

/-- What the loop over a ranking adds: a chunk that was not seen counts once, at its first place. -/
theorem foldl_addHit (rrfK : ℤ) (ranking : List RetrievalHit) (start : ℕ) (seen : List String)
    {t : Tally} (ht : t.Consistent) :
    let t' := ((ranking.zipIdx (start + 1)).foldl (addHit rrfK) (seen, t)).2
    t'.Consistent ∧
      (∀ id, t'.score id = t.score id + if id ∈ seen then 0 else
        share (fun place => placeWeight rrfK (start + place)) (chunkIds ranking) id) ∧
      ∀ id, id ∈ t'.scores ↔ id ∈ t.scores ∨ id ∉ seen ∧ id ∈ chunkIds ranking := by
  induction ranking generalizing start seen t with
  | nil => simp [ht, chunkIds]
  | cons hit ranking ih =>
      -- Behind the first hit every place is one further down.
      have hshift : ∀ id, share (fun place => placeWeight rrfK (start + place))
          (chunkIds (hit :: ranking)) id = if id = hit.chunkId then placeWeight rrfK start else
            share (fun place => placeWeight rrfK (start + 1 + place)) (chunkIds ranking) id := by
        intro id
        rw [chunkIds, List.map_cons, share_cons]
        simp only [Nat.add_zero, Nat.add_comm, Nat.add_left_comm, chunkIds]
      simp only [List.zipIdx_cons, List.foldl_cons]
      by_cases hseen : hit.chunkId ∈ seen
      · have hskip : addHit rrfK (seen, t) (hit, start + 1) = (seen, t) := if_pos hseen
        rw [hskip]
        obtain ⟨hcons, hscore, hmem⟩ := ih (start + 1) seen ht
        refine ⟨hcons, fun id => ?_, fun id => ?_⟩
        · rw [hscore, hshift]
          by_cases hid : id = hit.chunkId
          · simp [hid, hseen]
          · simp [hid]
        · rw [hmem]
          by_cases hid : id = hit.chunkId
          · simp [hid, hseen]
          · simp [hid, chunkIds]
      · have hcount : addHit rrfK (seen, t) (hit, start + 1) =
            (hit.chunkId :: seen, t.add (placeWeight rrfK start) hit) := if_neg hseen
        rw [hcount]
        obtain ⟨hcons, hscore, hmem⟩ := ih (start + 1) (hit.chunkId :: seen) ht.add
        refine ⟨hcons, fun id => ?_, fun id => ?_⟩
        · rw [hscore, Tally.score_add, hshift]
          by_cases hid : id = hit.chunkId
          · simp [hid, hseen]
          · simp [hid]
        · rw [hmem, Tally.mem_scores_add]
          by_cases hid : id = hit.chunkId
          · simp [hid, hseen, chunkIds]
          · simp [hid, chunkIds]

/-- What one ranking adds. -/
theorem addRanking_spec (rrfK : ℤ) (ranking : List RetrievalHit) {t : Tally} (ht : t.Consistent) :
    (addRanking rrfK t ranking).Consistent ∧
      (∀ id, (addRanking rrfK t ranking).score id =
        t.score id + share (placeWeight rrfK) (chunkIds ranking) id) ∧
      ∀ id, id ∈ (addRanking rrfK t ranking).scores ↔ id ∈ t.scores ∨ id ∈ chunkIds ranking := by
  simpa [addRanking] using foldl_addHit rrfK ranking 0 [] ht

theorem foldl_addRanking (rrfK : ℤ) (rankings : List (List RetrievalHit)) {t : Tally}
    (ht : t.Consistent) :
    (rankings.foldl (addRanking rrfK) t).Consistent ∧
      (∀ id, (rankings.foldl (addRanking rrfK) t).score id =
        t.score id + total (placeWeight rrfK) (rankings.map chunkIds) id) ∧
      ∀ id, id ∈ (rankings.foldl (addRanking rrfK) t).scores ↔
        id ∈ t.scores ∨ ∃ ranking ∈ rankings, id ∈ chunkIds ranking := by
  induction rankings generalizing t with
  | nil => simp [ht]
  | cons ranking rankings ih =>
      obtain ⟨hcons, hscore, hmem⟩ := addRanking_spec rrfK ranking ht
      obtain ⟨hcons', hscore', hmem'⟩ := ih hcons
      refine ⟨hcons', fun id => ?_, fun id => ?_⟩
      · rw [List.foldl_cons, hscore', hscore, List.map_cons, total_cons, add_assoc]
      · rw [List.foldl_cons, hmem', hmem]
        simp [or_assoc]

/-- What is read off the dictionaries in the end. -/
theorem tally_spec (rrfK : ℤ) (rankings : List (List RetrievalHit)) :
    (tally rrfK rankings).Consistent ∧
      (∀ id, (tally rrfK rankings).score id =
        total (placeWeight rrfK) (rankings.map chunkIds) id) ∧
      ∀ id, id ∈ (tally rrfK rankings).scores ↔ ∃ ranking ∈ rankings, id ∈ chunkIds ranking := by
  have hempty : (⟨∅, ∅, ∅⟩ : Tally).Consistent := ⟨fun id => by simp, fun id hit h => by simp at h⟩
  obtain ⟨hcons, hscore, hmem⟩ := foldl_addRanking rrfK rankings hempty
  refine ⟨hcons, fun id => ?_, fun id => ?_⟩
  · rw [tally, hscore]
    simp [Tally.score]
  · rw [tally, hmem]
    simp

/-! ## The result -/

theorem divisor_pos {rrfK : ℤ} (h : 1 ≤ rrfK) (place : ℕ) : (0 : ℚ) < rrfK + (place + 1 : ℕ) := by
  have hsum : (0 : ℤ) < rrfK + (place + 1 : ℕ) := by omega
  exact_mod_cast hsum

theorem placeWeight_pos {rrfK : ℤ} (h : 1 ≤ rrfK) (place : ℕ) : 0 < placeWeight rrfK place :=
  one_div_pos.mpr (divisor_pos h place)

theorem placeWeight_strictAnti {rrfK : ℤ} (h : 1 ≤ rrfK) : StrictAnti (placeWeight rrfK) := by
  intro m n hmn
  have hlt : (rrfK + (m + 1 : ℕ) : ℚ) < rrfK + (n + 1 : ℕ) := by
    have hsum : (rrfK + (m + 1 : ℕ) : ℤ) < rrfK + (n + 1 : ℕ) := by omega
    exact_mod_cast hsum
  exact one_div_lt_one_div_of_lt (divisor_pos h m) hlt

/-- Every chunk of the dictionaries gives a hit. -/
theorem mapM_fusedHit {t : Tally} (ht : t.Consistent) {ids : List String}
    (hids : ∀ id ∈ ids, id ∈ t.scores) (start : ℕ) :
    ∃ hits, (ids.zipIdx start).mapM (fusedHit t) = .ok hits ∧ chunkIds hits = ids ∧
      hits.map RetrievalHit.score = ids.map (fun id => .finite (t.score id)) ∧
      hits.map RetrievalHit.rank = List.range' start ids.length := by
  induction ids generalizing start with
  | nil => exact ⟨[], rfl, rfl, rfl, rfl⟩
  | cons id ids ih =>
      obtain ⟨hits, hhits, hchunks, hscores, hranks⟩ :=
        ih (fun d hd => hids d (List.mem_cons_of_mem _ hd)) (start + 1)
      obtain ⟨hit, hlookup⟩ : ∃ hit, t.exemplars.lookup id = some hit :=
        Option.isSome_iff_exists.mp
          (AList.lookup_isSome.mpr ((ht.keys id).mpr (hids id List.mem_cons_self)))
      refine ⟨hit.withScore (.finite (t.score id)) start (joinOrigins (t.origin id)) :: hits,
        ?_, ?_, ?_, ?_⟩
      · simp [List.zipIdx_cons, fusedHit, hlookup, hhits]
        rfl
      · simp [chunkIds, RetrievalHit.withScore, ht.exemplar id hit hlookup] at hchunks ⊢
        exact hchunks
      · simp [RetrievalHit.withScore, hscores]
      · simp [RetrievalHit.withScore, hranks, List.range'_succ]

/-- What fusion of all rankings is to return: `hits` without a limit, and less of them with one. -/
structure FusionSpec (rankings : List (List RetrievalHit)) (rrfK : ℤ) (hits : List RetrievalHit) :
    Prop where
  /-- The chunks of all rankings, each one once. -/
  nodup : (chunkIds hits).Nodup
  mem_iff : ∀ id, id ∈ chunkIds hits ↔ ∃ ranking ∈ rankings, id ∈ chunkIds ranking
  /-- The sum over the rankings of the reciprocal of the constant plus the first rank. -/
  score_eq : ∀ hit ∈ hits,
    hit.score = .finite (total (placeWeight rrfK) (rankings.map chunkIds) hit.chunkId)
  /-- The greater score first, and equal ones by identifier. -/
  ordered : (chunkIds hits).Pairwise (Before (total (placeWeight rrfK) (rankings.map chunkIds)))
  ranks : hits.map RetrievalHit.rank = List.range' 1 hits.length
  /-- A limit returns a prefix. -/
  limited : ∀ limit : ℤ,
    reciprocalRankFusion rankings rrfK (some limit) = .ok (hits.take (max 0 limit).toNat)
  /-- The order of the rankings does not matter. -/
  perm : ∀ rankings', rankings.Perm rankings' → ∃ hits',
    reciprocalRankFusion rankings' rrfK none = .ok hits' ∧
      hits'.map (fun hit => (hit.chunkId, hit.score, hit.rank)) =
        hits.map fun hit => (hit.chunkId, hit.score, hit.rank)
  /-- What all rankings agree on is kept, also in a prefix. -/
  unanimous : ∀ a b, Precedes (rankings.map chunkIds) a b → ∀ n,
    a ∈ chunkIds (hits.take n) ∨ b ∈ chunkIds (hits.take n) →
      (chunkIds (hits.take n)).idxOf a < (chunkIds (hits.take n)).idxOf b

theorem zipIdx_take {α : Type} (xs : List α) (n start : ℕ) :
    (xs.take n).zipIdx start = (xs.zipIdx start).take n := by
  refine List.ext_getElem? fun i => ?_
  rw [List.getElem?_zipIdx, List.getElem?_take, List.getElem?_take, List.getElem?_zipIdx]
  split_ifs <;> rfl

/-- What is returned without a limit and with one. -/
theorem reciprocalRankFusion_eq {rrfK : ℤ} (h : 1 ≤ rrfK) (rankings : List (List RetrievalHit)) :
    ∃ hits, reciprocalRankFusion rankings rrfK none = .ok hits ∧
      (∀ limit : ℤ,
        reciprocalRankFusion rankings rrfK (some limit) = .ok (hits.take (max 0 limit).toNat)) ∧
      chunkIds hits = inOrder (total (placeWeight rrfK) (rankings.map chunkIds))
        (tally rrfK rankings).scores.keys ∧
      hits.map RetrievalHit.score = (chunkIds hits).map (fun id =>
        .finite (total (placeWeight rrfK) (rankings.map chunkIds) id)) ∧
      hits.map RetrievalHit.rank = List.range' 1 hits.length := by
  obtain ⟨hcons, hscore, -⟩ := tally_spec rrfK rankings
  have hsame : (tally rrfK rankings).score = total (placeWeight rrfK) (rankings.map chunkIds) :=
    funext hscore
  have hids : ∀ id ∈ inOrder (tally rrfK rankings).score (tally rrfK rankings).scores.keys,
      id ∈ (tally rrfK rankings).scores := fun id hid =>
    AList.mem_keys.mpr ((perm_inOrder _ _).mem_iff.mp hid)
  obtain ⟨hits, hhits, hchunks, hscores, hranks⟩ := mapM_fusedHit hcons hids 1
  have hk : ¬ rrfK ≤ 0 := by omega
  refine ⟨hits, ?_, fun limit => ?_, ?_, ?_, ?_⟩
  · simp only [reciprocalRankFusion, if_neg hk]
    exact hhits
  · simp only [reciprocalRankFusion, if_neg hk, zipIdx_take]
    exact mapM_take hhits _
  · rw [hchunks, hsame]
  · rw [hscores, hchunks, hsame]
  · rw [hranks, ← hchunks, chunkIds, List.length_map]

/-- The chunks, the scores and the ranks, taken together. -/
theorem summary_eq {hits hits' : List RetrievalHit} (hchunks : chunkIds hits' = chunkIds hits)
    (hscores : hits'.map RetrievalHit.score = hits.map RetrievalHit.score)
    (hranks : hits'.map RetrievalHit.rank = hits.map RetrievalHit.rank) :
    hits'.map (fun hit => (hit.chunkId, hit.score, hit.rank)) =
      hits.map fun hit => (hit.chunkId, hit.score, hit.rank) := by
  induction hits generalizing hits' with
  | nil =>
      rw [List.map_eq_nil_iff.mp hscores]
  | cons hit hits ih =>
      cases hits' with
      | nil => simp at hscores
      | cons hit' hits' =>
          simp only [chunkIds, List.map_cons, List.cons.injEq] at hchunks hscores hranks
          rw [List.map_cons, List.map_cons, ih hchunks.2 hscores.2 hranks.2, hchunks.1, hscores.1,
            hranks.1]

/-- **Reciprocal rank fusion.** With a positive constant, fusion returns what it is to return. -/
theorem reciprocalRankFusion_spec {rrfK : ℤ} (h : 1 ≤ rrfK) (rankings : List (List RetrievalHit)) :
    ∃ hits, reciprocalRankFusion rankings rrfK none = .ok hits ∧ FusionSpec rankings rrfK hits := by
  obtain ⟨hits, hhits, hlimited, hids, hscores, hranks⟩ := reciprocalRankFusion_eq h rankings
  obtain ⟨-, -, hmem⟩ := tally_spec rrfK rankings
  refine ⟨hits, hhits, ?_⟩
  have hperm := perm_inOrder (total (placeWeight rrfK) (rankings.map chunkIds))
    (tally rrfK rankings).scores.keys
  -- The ids are the keys of the tally, put in order.
  have hmem_iff : ∀ id, id ∈ chunkIds hits ↔ ∃ ranking ∈ rankings, id ∈ chunkIds ranking := by
    intro id
    rw [hids, hperm.mem_iff, ← AList.mem_keys, hmem]
  refine
    { nodup := ?_
      mem_iff := hmem_iff
      score_eq := ?_
      ordered := ?_
      ranks := hranks
      limited := hlimited
      perm := ?_
      unanimous := ?_ }
  · rw [hids, hperm.nodup_iff]
    exact AList.keys_nodup _
  · intro hit hhit
    obtain ⟨i, hi, rfl⟩ := List.getElem_of_mem hhit
    have hscore := congrArg (fun scores => scores[i]?) hscores
    simpa [chunkIds, hi] using hscore
  · rw [hids]
    exact pairwise_inOrder _ _
  · intro rankings' hsame
    obtain ⟨hits', hhits', -, hids', hscores', hranks'⟩ := reciprocalRankFusion_eq h rankings'
    obtain ⟨-, -, hmem'⟩ := tally_spec rrfK rankings'
    -- A total is a sum over the rankings, so their order does not matter to it.
    have htotal : total (placeWeight rrfK) (rankings.map chunkIds) =
        total (placeWeight rrfK) (rankings'.map chunkIds) :=
      funext fun id => total_perm (hsame.map _)
    have hkeys : (tally rrfK rankings).scores.keys.Perm (tally rrfK rankings').scores.keys := by
      rw [List.perm_ext_iff_of_nodup (AList.keys_nodup _) (AList.keys_nodup _)]
      intro id
      rw [← AList.mem_keys, ← AList.mem_keys, hmem, hmem']
      simp only [hsame.mem_iff]
    have hchunks : chunkIds hits' = chunkIds hits := by
      rw [hids, hids', htotal]
      exact (inOrder_congr hkeys fun id => rfl).symm
    refine ⟨hits', hhits', ?_⟩
    refine summary_eq hchunks ?_ ?_
    · rw [hscores, hscores', hchunks, htotal]
    · have hlength : hits'.length = hits.length := by
        simpa [chunkIds] using congrArg List.length hchunks
      rw [hranks, hranks', hlength]
  · intro a b hab n hcut
    -- A cut of the result keeps who comes first, if one of the two is still in it.
    have hcut' : chunkIds (hits.take n) = (chunkIds hits).take n := List.map_take
    rw [hcut'] at hcut ⊢
    refine idxOf_take_lt ?_ n hcut
    have hsome : ∃ ranking ∈ rankings.map chunkIds, a ∈ ranking ∨ b ∈ ranking := by
      rcases hcut with ha | hb
      · obtain ⟨ranking, hranking, hid⟩ := (hmem_iff a).mp (List.mem_of_mem_take ha)
        exact ⟨_, List.mem_map_of_mem hranking, .inl hid⟩
      · obtain ⟨ranking, hranking, hid⟩ := (hmem_iff b).mp (List.mem_of_mem_take hb)
        exact ⟨_, List.mem_map_of_mem hranking, .inr hid⟩
    have ha : a ∈ (tally rrfK rankings).scores.keys := by
      obtain ⟨ids, hranking, hid⟩ := hsome
      obtain ⟨ranking, hranking', rfl⟩ := List.mem_map.mp hranking
      have hlt := hab _ hranking hid
      have hin : a ∈ chunkIds ranking :=
        List.idxOf_lt_length_iff.mp (hlt.trans_le List.idxOf_le_length)
      rw [← AList.mem_keys, hmem]
      exact ⟨ranking, hranking', hin⟩
    rw [hids]
    exact idxOf_inOrder_lt ha
      (total_lt (placeWeight_strictAnti h) (placeWeight_pos h) hab hsome)

/-- A chunk that a retriever found. -/
def foundHit (chunkId : String) (source : Text) : RetrievalHit where
  chunkId := chunkId
  documentId := "document"
  content := str "text"
  title := str "title"
  sourceUrl := str "https://a.cn"
  score := .finite 1
  source := source
  metadata := []

/-- Two retrievers, one of which returns a chunk twice. -/
theorem reciprocalRankFusion_two :
    ∃ hits, reciprocalRankFusion [[foundHit "a" (str "bm25"), foundHit "b" (str "bm25")],
        [foundHit "b" (str "vector"), foundHit "b" (str "vector")]] 60 none = .ok hits ∧
      FusionSpec [[foundHit "a" (str "bm25"), foundHit "b" (str "bm25")],
        [foundHit "b" (str "vector"), foundHit "b" (str "vector")]] 60 hits :=
  reciprocalRankFusion_spec (by decide) _

end Odirag.Retrieval
