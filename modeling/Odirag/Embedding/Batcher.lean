import Mathlib.Algebra.GroupWithZero.Nat
import Mathlib.Data.List.Basic
import Odirag.Foundations.Effect
import Odirag.Foundations.Text

/-!
# Embedding in batches

Reference: `backend/app/embedding/batcher.py`.

`EmbeddingBatcher.embed` takes from the cache what it can, embeds the rest in batches and puts the vectors
back by position. Any call to the cache or to the provider may raise, a write to the cache before or
after the value is there. If the cache is coherent with the embedding of single texts, it stays so
whatever happens, and what is returned is the embedding of each text (`embed_spec`).
-/

namespace Odirag.Embedding

/-- What a call to the outside raises; the first two are tried again. -/
inductive Failure where
  | providerUnavailable
  | providerResponse
  | other
  deriving DecidableEq, Repr

/-- `retry_if_exception_type((ProviderUnavailableError, ProviderResponseError))`. -/
def Failure.isRetried : Failure → Bool
  | .other => false
  | _ => true

/-- How a write to the cache ends. -/
inductive WriteOutcome where
  | written
  | failed (failure : Failure) (stored : Bool)

variable {F C : Type}

/-- The cache, and the number of calls to the outside so far. -/
structure World (F : Type) where
  cache : Text → Option (List F)
  calls : ℕ

/-- What the calls to the outside do, by their number. -/
structure Outside (F : Type) where
  get : ℕ → Option Failure
  set : ℕ → WriteOutcome
  sleep : ℕ → Option Failure
  embedDocuments : ℕ → List Text → Except Failure (List (List F))

structure EmbeddingBatchResult (F C : Type) where
  vectors : List (List F)
  cacheHits : ℕ
  embeddedCount : ℕ
  inputChars : ℕ
  estimatedCost : C

/-- The parts of the batcher that `embed` uses. `sha256` is the digest of a text, `estimate` the rounded
cost of so many characters. -/
structure EmbeddingBatcher (C : Type) where
  providerName : Text
  modelName : Text
  version : Text
  batchSize : ℕ
  hasInterval : Bool
  sha256 : Text → Text
  estimate : ℕ → C
  batchSize_pos : 0 < batchSize

/-- An entry of `missing`: index, key and text. -/
structure Missing where
  index : ℕ
  key : Text
  value : Text

/-- The state of the first loop. -/
structure Lookup (F : Type) where
  vectors : List (Option (List F))
  missing : List Missing
  cacheHits : ℕ

/-- The state of the second loop. -/
structure Progress (F : Type) where
  vectors : List (Option (List F))
  embeddedCount : ℕ

namespace EmbeddingBatcher

open Effect

/-- The number of a call. -/
def call : Effect (World F) Failure ℕ := do
  let world ← look
  change fun world => { world with calls := world.calls + 1 }
  return world.calls

variable (outside : Outside F)

/-- `await self.cache.get(key)`. -/
def cacheGet (key : Text) : Effect (World F) Failure (Option (List F)) := do
  let n ← call
  match outside.get n with
  | some failure => raise failure
  | none =>
      let world ← look
      return world.cache key

/-- Store a vector. -/
def store (key : Text) (vector : List F) : Effect (World F) Failure Unit :=
  change fun world => { world with cache := Function.update world.cache key (some vector) }

/-- `await self.cache.set(key, vector)`. -/
def cacheSet (key : Text) (vector : List F) : Effect (World F) Failure Unit := do
  let n ← call
  match outside.set n with
  | .written => store key vector
  | .failed failure stored =>
      if stored then store key vector
      raise failure

/-- `await asyncio.sleep(self.minimum_interval_seconds)`. -/
def sleep : Effect (World F) Failure Unit := do
  let n ← call
  match outside.sleep n with
  | some failure => raise failure
  | none => return ()

/-- `await self.provider.embed_documents(texts)`. -/
def provide (texts : List Text) : Effect (World F) Failure (List (List F)) := do
  let n ← call
  match outside.embedDocuments n texts with
  | .error failure => raise failure
  | .ok vectors => return vectors

/-- The attempts to embed a batch: one, and so many more. -/
def attempts (texts : List Text) : ℕ → Effect (World F) Failure (List (List F))
  | 0 => provide outside texts
  | more + 1 => handle (provide outside texts) fun failure =>
      if failure.isRetried then attempts texts more else raise failure

/-- `_embed_with_retry`: `stop_after_attempt(3)`. -/
def embedWithRetry (texts : List Text) : Effect (World F) Failure (List (List F)) :=
  attempts outside texts 2

variable (batcher : EmbeddingBatcher C)

/-- `_key`. -/
def key (value : Text) : Text :=
  str "embedding:" ++ batcher.providerName ++ str ":" ++ batcher.modelName ++ str ":" ++
    batcher.version ++ str ":" ++ batcher.sha256 value

/-- One text of the first loop. -/
def lookup (found : Lookup F) (text : Text × ℕ) : Effect (World F) Failure (Lookup F) := do
  let key := batcher.key text.1
  match ← cacheGet outside key with
  | none => return { found with missing := found.missing ++ [⟨text.2, key, text.1⟩] }
  | some cached =>
      return { found with
        vectors := found.vectors.set text.2 (some cached)
        cacheHits := found.cacheHits + 1 }

/-- One vector of a batch. -/
def place (progress : Progress F) (item : Missing × List F) :
    Effect (World F) Failure (Progress F) := do
  cacheSet outside item.1.key item.2
  return {
    vectors := progress.vectors.set item.1.index (some item.2)
    embeddedCount := progress.embeddedCount + 1 }

/-- `if offset and self.minimum_interval_seconds`. -/
def pause (offset : ℕ) : Effect (World F) Failure Unit :=
  if offset ≠ 0 ∧ batcher.hasInterval then sleep outside else return ()

/-- One batch. -/
def embedBatch (missing : List Missing) (progress : Progress F) (offset : ℕ) :
    Effect (World F) Failure (Progress F) := do
  let batch := (missing.drop offset).take batcher.batchSize
  pause outside batcher offset
  let embedded ← embedWithRetry outside (batch.map Missing.value)
  if embedded.length ≠ batch.length then raise .providerResponse
  else (batch.zip embedded).foldlM (place outside) progress

/-- `range(0, len(missing), self.batch_size)`. -/
def offsets (length : ℕ) : List ℕ :=
  (List.range ((length + batcher.batchSize - 1) / batcher.batchSize)).map (· * batcher.batchSize)

/-- `embed`. -/
def embed (texts : List Text) : Effect (World F) Failure (EmbeddingBatchResult F C) := do
  let found ← texts.zipIdx.foldlM (lookup outside batcher)
    ⟨List.replicate texts.length none, [], 0⟩
  let done ← (batcher.offsets found.missing.length).foldlM
    (embedBatch outside batcher found.missing) ⟨found.vectors, 0⟩
  if done.vectors.any Option.isNone then raise .providerResponse
  else
    let inputChars := (found.missing.map fun item => item.value.length).sum
    return {
      vectors := done.vectors.map fun vector => vector.getD []
      cacheHits := found.cacheHits
      embeddedCount := done.embeddedCount
      inputChars := inputChars
      estimatedCost := batcher.estimate inputChars }

/-! ## Coherence -/

variable {batcher} {f : Text → List F}

/-- What the cache holds for a text is its embedding. -/
def Coherent (batcher : EmbeddingBatcher C) (f : Text → List F) (world : World F) : Prop :=
  ∀ text vector, world.cache (batcher.key text) = some vector → vector = f text

/-- The key of a text is as good as its digest. -/
theorem sha256_eq_of_key_eq {s t : Text} (h : batcher.key s = batcher.key t) :
    batcher.sha256 s = batcher.sha256 t := by
  unfold key at h
  exact List.append_cancel_left h

/-- Storing the embedding of a text. -/
theorem Coherent.store {world : World F} (h : Coherent batcher f world)
    (hsha256 : ∀ s t, batcher.sha256 s = batcher.sha256 t → f s = f t) (text : Text) :
    Coherent batcher f
      { world with cache := Function.update world.cache (batcher.key text) (some (f text)) } := by
  intro other vector hvector
  by_cases hkey : batcher.key other = batcher.key text
  · dsimp only at hvector
    rw [hkey, Function.update_self] at hvector
    rw [← Option.some.inj hvector]
    exact hsha256 text other (sha256_eq_of_key_eq hkey).symm
  · dsimp only at hvector
    rw [Function.update_of_ne hkey] at hvector
    exact h other vector hvector

/-! ## Calls to the outside -/

theorem ensures_call : Ensures (Coherent batcher f) (call (F := F)) (fun _ => Coherent batcher f)
    (Coherent batcher f) :=
  Ensures.look.bind fun _ => (Ensures.change fun _ h => h.1).bind fun _ => Ensures.pure fun _ h => h

/-- What the cache has for a text is its embedding. -/
theorem ensures_cacheGet (text : Text) :
    Ensures (Coherent batcher f) (cacheGet outside (batcher.key text))
      (fun cached world => Coherent batcher f world ∧ ∀ vector, cached = some vector → vector = f text)
      (Coherent batcher f) := by
  refine ensures_call.bind fun n => ?_
  split
  · exact Ensures.raise fun _ h => h
  · refine Ensures.look.bind fun world => Ensures.pure ?_
    rintro world' ⟨hcoherent, rfl⟩
    exact ⟨hcoherent, fun vector hvector => hcoherent text vector hvector⟩

theorem ensures_store (hsha256 : ∀ s t, batcher.sha256 s = batcher.sha256 t → f s = f t)
    (text : Text) :
    Ensures (Coherent batcher f) (EmbeddingBatcher.store (batcher.key text) (f text))
      (fun _ => Coherent batcher f) (Coherent batcher f) :=
  Ensures.change fun _ h => h.store hsha256 text

/-- A write that fails leaves the cache coherent, whether the vector is there or not. -/
theorem ensures_cacheSet (hsha256 : ∀ s t, batcher.sha256 s = batcher.sha256 t → f s = f t)
    (text : Text) :
    Ensures (Coherent batcher f) (cacheSet outside (batcher.key text) (f text))
      (fun _ => Coherent batcher f) (Coherent batcher f) := by
  refine ensures_call.bind fun n => ?_
  split
  · exact ensures_store hsha256 text
  · next failure stored _ =>
      cases stored with
      | true => exact (ensures_store hsha256 text).bind fun _ => Ensures.raise fun _ h => h
      | false => exact Ensures.raise fun _ h => h

theorem ensures_pause (offset : ℕ) :
    Ensures (Coherent batcher f) (pause outside batcher offset) (fun _ => Coherent batcher f)
      (Coherent batcher f) := by
  unfold pause
  split
  · refine ensures_call.bind fun n => ?_
    split
    · exact Ensures.raise fun _ h => h
    · exact Ensures.pure fun _ h => h
  · exact Ensures.pure fun _ h => h

/-- A provider that fails or embeds each text. -/
def Embeds (outside : Outside F) (f : Text → List F) : Prop :=
  ∀ n texts vectors, outside.embedDocuments n texts = .ok vectors → vectors = texts.map f

theorem ensures_provide (hembeds : Embeds outside f) (texts : List Text) :
    Ensures (Coherent batcher f) (provide outside texts)
      (fun vectors world => Coherent batcher f world ∧ vectors = texts.map f)
      (Coherent batcher f) := by
  refine ensures_call.bind fun n => ?_
  split
  · exact Ensures.raise fun _ h => h
  · next vectors hvectors => exact Ensures.pure fun _ h => ⟨h, hembeds n texts vectors hvectors⟩

/-- Every attempt leaves the cache as it is. -/
theorem ensures_attempts (hembeds : Embeds outside f) (texts : List Text) (more : ℕ) :
    Ensures (Coherent batcher f) (attempts outside texts more)
      (fun vectors world => Coherent batcher f world ∧ vectors = texts.map f)
      (Coherent batcher f) := by
  induction more with
  | zero => exact ensures_provide outside hembeds texts
  | succ more ih =>
      refine (ensures_provide outside hembeds texts).handle fun failure => ?_
      split
      · exact ih
      · exact Ensures.raise fun _ h => h

/-! ## The loops -/

variable {texts : List Text}

/-- The vectors so far are those of their texts. -/
structure Filled (f : Text → List F) (texts : List Text) (vectors : List (Option (List F))) :
    Prop where
  length : vectors.length = texts.length
  embedded : ∀ (i : ℕ) (vector : List F), vectors[i]? = some (some vector) →
    ∃ text, texts[i]? = some text ∧ vector = f text

/-- An entry of `missing` is a text with its position and its key. -/
def Wanted (batcher : EmbeddingBatcher C) (texts : List Text) (item : Missing) : Prop :=
  texts[item.index]? = some item.value ∧ item.key = batcher.key item.value

theorem Filled.set {vectors : List (Option (List F))} (h : Filled f texts vectors) {i : ℕ}
    {text : Text} (htext : texts[i]? = some text) :
    Filled f texts (vectors.set i (some (f text))) := by
  refine ⟨by rw [List.length_set, h.length], fun j vector hvector => ?_⟩
  by_cases hij : i = j
  · subst hij
    have hbound : i < vectors.length := by
      rw [h.length]
      exact (List.getElem?_eq_some_iff.mp htext).1
    rw [List.getElem?_set_self hbound] at hvector
    refine ⟨text, htext, ?_⟩
    injection hvector with hvector
    exact (Option.some.inj hvector).symm
  · rw [List.getElem?_set_ne hij] at hvector
    exact h.embedded j vector hvector

theorem filled_replicate : Filled f texts (List.replicate texts.length (none : Option (List F))) := by
  refine ⟨List.length_replicate, fun i vector hvector => ?_⟩
  have hmem := List.mem_of_getElem? hvector
  exact absurd (List.eq_of_mem_replicate hmem) (by simp)

/-- The state of the first loop after these texts. -/
structure LookedUp (batcher : EmbeddingBatcher C) (f : Text → List F) (texts : List Text)
    (done : List (Text × ℕ)) (found : Lookup F) (world : World F) : Prop where
  coherent : Coherent batcher f world
  filled : Filled f texts found.vectors
  wanted : ∀ item ∈ found.missing, Wanted batcher texts item
  count : found.cacheHits + found.missing.length = done.length

theorem ensures_lookup {done : List (Text × ℕ)} {text : Text × ℕ} (found : Lookup F)
    (htext : texts[text.2]? = some text.1) :
    Ensures (LookedUp batcher f texts done found) (lookup outside batcher found text)
      (LookedUp batcher f texts (done ++ [text])) (Coherent batcher f) := by
  intro world hworld
  refine ((ensures_cacheGet outside text.1).bind
    (R := LookedUp batcher f texts (done ++ [text])) fun cached => ?_) world hworld.coherent
  have hcount := hworld.count
  cases cached with
  | none =>
      refine Ensures.pure fun world' hworld' => ⟨hworld'.1, hworld.filled, fun item hitem => ?_, ?_⟩
      · rcases List.mem_append.mp hitem with hitem | hitem
        · exact hworld.wanted item hitem
        · rw [List.mem_singleton.mp hitem]
          exact ⟨htext, rfl⟩
      · simp only [List.length_append, List.length_singleton]
        omega
  | some cached =>
      refine Ensures.pure fun world' hworld' => ⟨hworld'.1, ?_, hworld.wanted, ?_⟩
      · rw [hworld'.2 cached rfl]
        exact hworld.filled.set htext
      · simp only [List.length_append, List.length_singleton]
        omega

/-- The state of the second loop with so many vectors embedded. -/
structure Placed (batcher : EmbeddingBatcher C) (f : Text → List F) (texts : List Text) (count : ℕ)
    (progress : Progress F) (world : World F) : Prop where
  coherent : Coherent batcher f world
  filled : Filled f texts progress.vectors
  count : progress.embeddedCount = count

variable (hsha256 : ∀ s t, batcher.sha256 s = batcher.sha256 t → f s = f t)

include hsha256 in
theorem ensures_place {count : ℕ} (progress : Progress F) {item : Missing}
    (hitem : Wanted batcher texts item) :
    Ensures (Placed batcher f texts count progress)
      (place outside progress (item, f item.value)) (Placed batcher f texts (count + 1))
      (Coherent batcher f) := by
  intro world hworld
  have hset := ensures_cacheSet outside hsha256 item.value
  rw [← hitem.2] at hset
  refine (hset.bind (R := Placed batcher f texts (count + 1)) fun _ => ?_) world hworld.coherent
  refine Ensures.pure fun world' hworld' => ⟨hworld', hworld.filled.set hitem.1, ?_⟩
  rw [← hworld.count]

include hsha256 in
/-- The vectors of a batch go where their texts are. -/
theorem ensures_places {count : ℕ} (progress : Progress F) {batch : List Missing}
    (hbatch : ∀ item ∈ batch, Wanted batcher texts item) :
    Ensures (Placed batcher f texts count progress)
      ((batch.map fun item => (item, f item.value)).foldlM (place outside) progress)
      (Placed batcher f texts (count + batch.length)) (Coherent batcher f) := by
  have hloop : Ensures (Placed batcher f texts count progress)
      ((batch.map fun item => (item, f item.value)).foldlM (place outside) progress)
      (Placed batcher f texts (count + (batch.map fun item => (item, f item.value)).length))
      (Coherent batcher f) :=
    Ensures.foldlM (I := fun done progress => Placed batcher f texts (count + done.length) progress)
      (fun done pair rest progress hpairs => by
        have hpair : pair ∈ batch.map fun item => (item, f item.value) := by
          rw [hpairs]
          simp
        obtain ⟨item, hitem, rfl⟩ := List.mem_map.mp hpair
        rw [List.length_append, List.length_singleton, ← Nat.add_assoc]
        exact ensures_place outside hsha256 progress (hbatch item hitem)) progress
  rw [List.length_map] at hloop
  exact hloop

include hsha256 in
/-- A batch is embedded as a whole. -/
theorem ensures_embedBatch (hembeds : Embeds outside f) {count : ℕ} (progress : Progress F)
    {missing : List Missing} (hmissing : ∀ item ∈ missing, Wanted batcher texts item)
    (offset : ℕ) :
    Ensures (Placed batcher f texts count progress)
      (embedBatch outside batcher missing progress offset)
      (Placed batcher f texts (count + ((missing.drop offset).take batcher.batchSize).length))
      (Coherent batcher f) := by
  have hbatch : ∀ item ∈ (missing.drop offset).take batcher.batchSize,
      Wanted batcher texts item := fun item hitem =>
    hmissing item (List.mem_of_mem_drop (List.mem_of_mem_take hitem))
  unfold embedBatch
  generalize (missing.drop offset).take batcher.batchSize = batch at hbatch
  intro world hworld
  refine ((ensures_pause outside offset).bind
    (R := Placed batcher f texts (count + batch.length)) fun _ => ?_) world hworld.coherent
  refine (ensures_attempts outside hembeds _ 2).bind fun embedded => ?_
  split
  · exact Ensures.raise fun _ h => h.1
  · rintro world' ⟨hcoherent, rfl⟩
    have hzip : batch.zip ((batch.map Missing.value).map f) =
        batch.map fun item => (item, f item.value) := by
      rw [List.map_map, ← List.map_prod_left_eq_zip]
      rfl
    rw [hzip]
    exact ensures_places outside hsha256 progress hbatch world' ⟨hcoherent, hworld.filled, hworld.count⟩

/-! ## The batches -/

/-- The batches are the missing texts, each once. -/
theorem sum_length_batches {α : Type} (size : ℕ) (xs : List α) (k : ℕ) :
    (((List.range k).map (· * size)).map fun offset => ((xs.drop offset).take size).length).sum =
      (xs.take (k * size)).length := by
  induction k with
  | zero => simp
  | succ k ih =>
      rw [List.range_succ, List.map_append, List.map_append, List.sum_append, ih, Nat.succ_mul,
        List.take_add, List.length_append]
      simp

theorem sum_length_offsets (missing : List Missing) :
    ((batcher.offsets missing.length).map fun offset =>
      ((missing.drop offset).take batcher.batchSize).length).sum = missing.length := by
  have hpos := batcher.batchSize_pos
  have hcover : missing.length ≤
      (missing.length + batcher.batchSize - 1) / batcher.batchSize * batcher.batchSize := by
    have hdiv := Nat.div_add_mod (missing.length + batcher.batchSize - 1) batcher.batchSize
    have hmod := Nat.mod_lt (missing.length + batcher.batchSize - 1) hpos
    rw [Nat.mul_comm] at hdiv
    omega
  rw [offsets, sum_length_batches, List.take_of_length_le hcover]

include hsha256 in
theorem ensures_batches (hembeds : Embeds outside f) (progress : Progress F)
    {missing : List Missing} (hmissing : ∀ item ∈ missing, Wanted batcher texts item) :
    Ensures (Placed batcher f texts 0 progress)
      ((batcher.offsets missing.length).foldlM (embedBatch outside batcher missing) progress)
      (Placed batcher f texts missing.length) (Coherent batcher f) := by
  have hloop : Ensures (Placed batcher f texts 0 progress)
      ((batcher.offsets missing.length).foldlM (embedBatch outside batcher missing) progress)
      (Placed batcher f texts ((batcher.offsets missing.length).map fun offset =>
        ((missing.drop offset).take batcher.batchSize).length).sum) (Coherent batcher f) :=
    Ensures.foldlM (I := fun done progress => Placed batcher f texts
        (done.map fun offset => ((missing.drop offset).take batcher.batchSize).length).sum progress)
      (fun done offset rest progress _ => by
        rw [List.map_append, List.sum_append, List.map_singleton, List.sum_singleton]
        exact ensures_embedBatch outside hsha256 hembeds progress hmissing offset) progress
  rw [sum_length_offsets] at hloop
  exact hloop

/-- Vectors that are all there are the embeddings of the texts. -/
theorem Filled.vectors_eq {vectors : List (Option (List F))} (h : Filled f texts vectors)
    (hall : vectors.any Option.isNone = false) :
    vectors.map (fun vector => vector.getD []) = texts.map f := by
  refine List.ext_getElem? fun i => ?_
  rw [List.getElem?_map, List.getElem?_map]
  cases hi : vectors[i]? with
  | none =>
      rw [List.getElem?_eq_none_iff, h.length, ← List.getElem?_eq_none_iff] at hi
      rw [hi]
      rfl
  | some vector =>
      cases vector with
      | none =>
          have hnone : vectors.any Option.isNone = true :=
            List.any_eq_true.mpr ⟨none, List.mem_of_getElem? hi, rfl⟩
          rw [hall] at hnone
          cases hnone
      | some vector =>
          obtain ⟨text, htext, rfl⟩ := h.embedded i vector hi
          rw [htext]
          rfl

/-- What `embed` has to return. -/
structure Correct (f : Text → List F) (texts : List Text) (result : EmbeddingBatchResult F C) :
    Prop where
  vectors : result.vectors = texts.map f
  count : result.cacheHits + result.embeddedCount = texts.length

include hsha256 in
theorem ensures_embed (hembeds : Embeds outside f) (texts : List Text) :
    Ensures (Coherent batcher f) (batcher.embed outside texts)
      (fun result world => Coherent batcher f world ∧ Correct f texts result)
      (Coherent batcher f) := by
  have hlookup : Ensures (LookedUp batcher f texts [] ⟨List.replicate texts.length none, [], 0⟩)
      (texts.zipIdx.foldlM (lookup outside batcher) ⟨List.replicate texts.length none, [], 0⟩)
      (LookedUp batcher f texts texts.zipIdx) (Coherent batcher f) :=
    Ensures.foldlM (I := LookedUp batcher f texts) (fun done text rest found hxs => by
      have hmem : text ∈ texts.zipIdx := by
        rw [hxs]
        simp
      exact ensures_lookup outside found (List.mem_zipIdx_iff_getElem?.mp hmem)) _
  refine (hlookup.conseq (fun world h => ⟨h, filled_replicate, by simp, rfl⟩)
    fun _ _ h => h).bind fun found => ?_
  intro world hworld
  have hbatches := ensures_batches outside hsha256 hembeds ⟨found.vectors, 0⟩
    hworld.wanted
  refine (hbatches.bind (R := fun result world => Coherent batcher f world ∧
    Correct f texts result) fun done => ?_) world ⟨hworld.coherent, hworld.filled, rfl⟩
  dsimp only
  split
  · exact Ensures.raise fun _ h => h.coherent
  · next hall =>
      refine Ensures.pure fun world' hdone => ⟨hdone.coherent, ?_, ?_⟩
      · exact hdone.filled.vectors_eq (Bool.eq_false_iff.mpr hall)
      · have hcount := hworld.count
        rw [List.length_zipIdx] at hcount
        show found.cacheHits + done.embeddedCount = texts.length
        rw [hdone.count, hcount]

/-- Whatever the calls to the outside do, the cache stays coherent, and what is returned has the
embedding of each text at its position and counts each text once. -/
theorem embed_spec (hsha256 : ∀ s t, batcher.sha256 s = batcher.sha256 t → f s = f t)
    (hembeds : Embeds outside f) (texts : List Text) {world : World F}
    (hcoherent : Coherent batcher f world) :
    Coherent batcher f (batcher.embed outside texts world).2 ∧
      ∀ result, (batcher.embed outside texts world).1 = .ok result →
        result.vectors = texts.map f ∧
          result.cacheHits + result.embeddedCount = texts.length := by
  have h := ensures_embed outside hsha256 hembeds texts world hcoherent
  cases hrun : batcher.embed outside texts world with
  | mk outcome world' =>
      rw [hrun] at h
      cases outcome with
      | error failure => exact ⟨h, fun _ hresult => by cases hresult⟩
      | ok result =>
          refine ⟨h.1, fun other hother => ?_⟩
          obtain rfl : result = other := Except.ok.inj hother
          exact ⟨h.2.vectors, h.2.count⟩

/-! ## Five texts in batches of two -/

/-- An embedding that tells texts of different lengths apart. -/
def lengths (text : Text) : List ℕ := [text.length]

def small : EmbeddingBatcher Unit where
  providerName := str "deterministic"
  modelName := str "lengths"
  version := str "v1"
  batchSize := 2
  hasInterval := false
  sha256 := id
  estimate := fun _ => ()
  batchSize_pos := by decide

/-- A provider whose first answer is an error. -/
def flaky : Outside ℕ where
  get := fun _ => none
  set := fun _ => .written
  sleep := fun _ => none
  embedDocuments := fun n texts =>
    if n = 5 then .error .providerUnavailable else .ok (texts.map lengths)

/-- A cache that knows one of the texts. -/
def warm : World ℕ where
  cache := Function.update (fun _ => none) (small.key (str "bb")) (some [2])
  calls := 0

theorem embeds_flaky : Embeds flaky lengths := by
  intro n texts vectors h
  unfold flaky at h
  dsimp only at h
  split at h
  · cases h
  · exact (Except.ok.inj h).symm

theorem coherent_warm : Coherent small lengths warm := by
  intro text vector h
  by_cases hkey : small.key text = small.key (str "bb")
  · have htext : text = str "bb" := sha256_eq_of_key_eq hkey
    rw [htext] at h ⊢
    exact (Option.some.inj h).symm
  · have hnone : warm.cache (small.key text) = none := by
      show Function.update (fun _ => none) (small.key (str "bb")) (some [2]) (small.key text) = none
      rw [Function.update_of_ne hkey]
    rw [hnone] at h
    cases h

def fiveTexts : List Text := [str "a", str "bb", str "ccc", str "a", str "dddd"]

/-- A repeated text, a cached one and a provider that fails at first: the call returns the vectors of
the texts. -/
theorem embed_spec_flaky :
    Coherent small lengths (small.embed flaky fiveTexts warm).2 ∧
      ∃ result, (small.embed flaky fiveTexts warm).1 = .ok result ∧
        result.vectors = [[1], [2], [3], [1], [4]] ∧ result.cacheHits + result.embeddedCount = 5 := by
  have hspec :=
    embed_spec flaky (fun s t h => by rw [show s = t from h]) embeds_flaky fiveTexts coherent_warm
  obtain ⟨result, hresult⟩ : ∃ result, (small.embed flaky fiveTexts warm).1 = .ok result := by
    have hreturns : (small.embed flaky fiveTexts warm).1.toOption.isSome = true := by
      decide +kernel
    cases hrun : (small.embed flaky fiveTexts warm).1 with
    | ok result => exact ⟨result, rfl⟩
    | error failure =>
        rw [hrun] at hreturns
        cases hreturns
  obtain ⟨hvectors, hcount⟩ := hspec.2 result hresult
  exact ⟨hspec.1, result, hresult, hvectors, hcount⟩

end EmbeddingBatcher

end Odirag.Embedding
