import Mathlib.Algebra.Order.Field.Rat
import Mathlib.Data.List.Nodup
import Mathlib.Data.List.Sort
import Odirag.Foundations.FallibleSort
import Odirag.Foundations.Text
import Odirag.Retrieval.Hit

/-!
# Remote embeddings

Reference: `backend/app/embedding/providers.py`.

The service answers with entries that carry an index and a vector. `embed_documents` sorts the entries by
their indices and counts them, and looks at the indices no further: what it returns belongs to the texts
exactly if the indices are those of the texts (`embedDocuments_aligned_iff`).
-/

namespace Odirag.Embedding

open Retrieval (Score)

/-! ## Values of a response -/

/-- What `response.json()` returns. Numbers may be infinite, or not a number. -/
inductive Value
  | none
  | bool (b : Bool)
  | int (n : ℤ)
  | float (x : Score)
  | str (s : Text)
  | list (items : List Value)
  | dict (fields : List (Text × Value))

/-- The exceptions of the built-in operations. -/
inductive PyError where
  | keyError (key : Text)
  | typeError
  | valueError
  | overflowError
  deriving DecidableEq, Repr

/-- `except (KeyError, TypeError, ValueError)`. -/
def PyError.isCaught : PyError → Bool
  | .overflowError => false
  | _ => true

/-- `x < y` for floating-point numbers. -/
def scoreLess (x y : Score) : Bool := x != .nan && y != .nan && !x.atLeast y

namespace Value

/-- The number of a value; truth values are numbers. -/
def number : Value → Option Score
  | bool b => some (.finite (if b then 1 else 0))
  | int n => some (.finite n)
  | float x => some x
  | _ => Option.none

/-- `value[key]` with a text as key. -/
def subscript (value : Value) (key : Text) : Except PyError Value :=
  match value with
  | dict fields => (fields.lookup key).elim (.error (.keyError key)) .ok
  | _ => .error .typeError

/-- What a loop over the value goes through. -/
def iterate : Value → Except PyError (List Value)
  | list items => .ok items
  | str s => .ok (s.map fun c => str [c])
  | dict fields => .ok (fields.map fun field => str field.1)
  | _ => .error .typeError

/-- `x < y`; how two lists compare is a parameter. -/
def less (listLess : List Value → List Value → Except PyError Bool) (x y : Value) :
    Except PyError Bool :=
  match x.number, y.number with
  | some a, some b => .ok (scoreLess a b)
  | _, _ =>
      match x, y with
      | str s, str t => .ok (s < t)
      | list xs, list ys => listLess xs ys
      | _, _ => .error .typeError

end Value

/-! ## The provider -/

/-- The request of `embed_documents`. -/
structure Request where
  url : Text
  authorization : Text
  model : Text
  input : List Text
  dimensions : Option ℤ

/-- The errors of `embed_documents`, all in the name of `remote_embedding`. -/
inductive EmbeddingError where
  /-- `ProviderUnavailableError`. -/
  | unavailable (message : Text)
  /-- `ProviderResponseError` with the text of an exception. -/
  | malformed (error : PyError)
  /-- `ProviderResponseError` with `embedding count does not match input`. -/
  | countMismatch
  /-- An exception that is not caught. -/
  | raised (error : PyError)

structure RemoteEmbeddingProvider where
  baseUrl : Text
  apiKey : Option Text
  modelName : Text
  dimensions : Option ℤ

/-- `RemoteEmbeddingProvider.__init__`; `strip` is that of texts. -/
def RemoteEmbeddingProvider.new (strip : Text → Text) (baseUrl : Text) (apiKey : Option Text)
    (modelName : Text) (dimensions : Option ℤ) : RemoteEmbeddingProvider where
  baseUrl := (baseUrl.reverse.dropWhile (· == '/')).reverse
  apiKey := (apiKey.map strip).filter (· ≠ [])
  modelName := modelName
  dimensions := dimensions

variable {F : Type} (float : Value → Except PyError F)
  (listLess : List Value → List Value → Except PyError Bool)

/-- `[float(value) for value in item["embedding"]]`. -/
def embedding (item : Value) : Except PyError (List F) := do
  let values ← (← item.subscript (str "embedding")).iterate
  values.mapM float

/-- An item with its key. -/
def keyed (item : Value) : Except PyError (Value × Value) := do
  return (← item.subscript (str "index"), item)

/-- `sorted(payload["data"], key=lambda item: item["index"])`. -/
def ordered (payload : Value) : Except PyError (List (Value × Value)) := do
  let items ← (← payload.subscript (str "data")).iterate
  let pairs ← items.mapM keyed
  sortBy (fun a b => a.1.less listLess b.1) pairs

/-- The vectors of a response, in the order of the indices. -/
def embeddings (payload : Value) : Except PyError (List (List F)) := do
  let items ← ordered listLess payload
  items.mapM fun item => embedding float item.2

namespace RemoteEmbeddingProvider

/-- `request_payload` and what is sent with it. -/
def request (provider : RemoteEmbeddingProvider) (key : Text) (texts : List Text) : Request where
  url := provider.baseUrl ++ str "/embeddings"
  authorization := str "Bearer " ++ key
  model := provider.modelName
  input := texts
  dimensions := provider.dimensions

/-- `embed_documents`; `post` sends a request, and its error is that of the connection, of the status
or of the text of the response. -/
def embedDocuments (provider : RemoteEmbeddingProvider) (post : Request → Except Text Value)
    (texts : List Text) : Except EmbeddingError (List (List F)) :=
  if texts = [] then .ok []
  else
    match provider.apiKey with
    | none => .error (.unavailable (str "API key is not configured"))
    | some key =>
        match post (provider.request key texts) with
        | .error message => .error (.unavailable message)
        | .ok payload =>
            match embeddings float listLess payload with
            | .error error => .error (if error.isCaught then .malformed error else .raised error)
            | .ok vectors =>
                if vectors.length ≠ texts.length then .error .countMismatch else .ok vectors

end RemoteEmbeddingProvider

/-! ## Alignment -/

/-- The entries of a response, none if it has no list of them. -/
def entries (payload : Value) : List Value :=
  match payload.subscript (str "data") >>= Value.iterate with
  | .ok items => items
  | .error _ => []

/-- The number that an entry has as its index. -/
def indexNumber (entry : Value) : Option Score :=
  match entry.subscript (str "index") with
  | .ok value => value.number
  | .error _ => none

/-- The entry is that of the text at this position. -/
def hasIndex (i : ℕ) (entry : Value) : Bool := indexNumber entry = some (.finite i)

/-- The position as a number. -/
def position (i : ℕ) : Option Score := some (.finite i)

/-- Each vector belongs to the one entry that has its position as index. -/
def Aligned (entries : List Value) (n : ℕ) (vectors : List (List F)) : Prop :=
  ∀ i < n, ∃ entry vector, entries.filter (hasIndex i) = [entry] ∧
    embedding float entry = .ok vector ∧ vectors[i]? = some vector

theorem position_injective : Function.Injective position := by
  intro i j h
  simpa [position] using h

theorem nodup_positions (n : ℕ) : ((List.range n).map position).Nodup :=
  List.Nodup.map position_injective List.nodup_range

variable {float listLess} {payload : Value} {vectors : List (List F)}

/-- The items with their keys. -/
theorem keyed_spec {items : List Value} {pairs : List (Value × Value)}
    (h : List.Forall₂ (fun item pair => keyed item = .ok pair) items pairs) :
    pairs.map Prod.snd = items ∧ ∀ pair ∈ pairs, indexNumber pair.2 = pair.1.number := by
  induction h with
  | nil => exact ⟨rfl, by simp⟩
  | @cons item pair items pairs hpair _ ih =>
      obtain ⟨value, hvalue, hkeyed⟩ := bind_eq_ok.mp hpair
      cases hkeyed
      refine ⟨by rw [List.map_cons, ih.1], fun other hother => ?_⟩
      rcases List.mem_cons.mp hother with rfl | hother
      · rw [indexNumber, hvalue]
      · exact ih.2 other hother

/-- The pairs that are sorted, the entries with their indices. -/
theorem ordered_spec {pairs : List (Value × Value)} (h : ordered listLess payload = .ok pairs) :
    (pairs.map Prod.snd).Perm (entries payload) ∧
      ∃ given, sortBy (fun a b : Value × Value => a.1.less listLess b.1) given = .ok pairs ∧
        ∀ pair ∈ given, indexNumber pair.2 = pair.1.number := by
  obtain ⟨data, hdata, h⟩ := bind_eq_ok.mp h
  obtain ⟨items, hitems, h⟩ := bind_eq_ok.mp h
  obtain ⟨given, hgiven, hsorted⟩ := bind_eq_ok.mp h
  have hentries : entries payload = items := by
    rw [entries, bind_eq_ok.mpr ⟨data, hdata, hitems⟩]
  have hboth := keyed_spec (mapM_eq_ok.mp hgiven)
  refine ⟨?_, given, hsorted, hboth.2⟩
  rw [hentries, ← hboth.1]
  exact (sortBy_perm hsorted).map Prod.snd

/-- The vectors are those of the entries, in the order of the sort. -/
theorem embeddings_spec (h : embeddings float listLess payload = .ok vectors) :
    ∃ pairs, ordered listLess payload = .ok pairs ∧
      List.Forall₂ (fun pair vector => embedding float pair.2 = .ok vector) pairs vectors := by
  obtain ⟨pairs, hpairs, h⟩ := bind_eq_ok.mp h
  exact ⟨pairs, hpairs, mapM_eq_ok.mp h⟩

theorem length_entries (h : embeddings float listLess payload = .ok vectors) :
    (entries payload).length = vectors.length := by
  obtain ⟨pairs, hpairs, hvectors⟩ := embeddings_spec h
  rw [← (ordered_spec hpairs).1.length_eq, List.length_map, hvectors.length_eq]

/-- A list with one entry for each position has no other. -/
theorem Aligned.perm (h : Aligned float (entries payload) vectors.length vectors)
    (hlength : (entries payload).length = vectors.length) :
    ((entries payload).map indexNumber).Perm ((List.range vectors.length).map position) := by
  have hsubset : (List.range vectors.length).map position ⊆ (entries payload).map indexNumber := by
    intro number hnumber
    obtain ⟨i, hi, rfl⟩ := List.mem_map.mp hnumber
    obtain ⟨entry, vector, hfilter, -, -⟩ := h i (List.mem_range.mp hi)
    have hentry : entry ∈ (entries payload).filter (hasIndex i) := by
      rw [hfilter]
      exact List.mem_singleton_self entry
    obtain ⟨hmem, hindex⟩ := List.mem_filter.mp hentry
    have heq : indexNumber entry = position i := of_decide_eq_true hindex
    exact heq ▸ List.mem_map_of_mem hmem
  have hsub := List.subperm_of_subset (nodup_positions _) hsubset
  exact (hsub.perm_of_length_le (by simp [hlength])).symm

/-- A finite number, and 0 in place of anything else. -/
def finiteValue : Option Score → ℚ
  | some (.finite q) => q
  | _ => 0

/-- The number by which an entry is sorted. -/
def rank (entry : Value) : ℚ := finiteValue (indexNumber entry)

theorem scoreLess_finite (a b : ℚ) : scoreLess (.finite a) (.finite b) = decide (a < b) := by
  show (!decide (b ≤ a)) = decide (a < b)
  rw [← decide_not]
  exact decide_eq_decide.mpr not_le

theorem Value.less_of_number {x y : Value} {a b : Score} (hx : x.number = some a)
    (hy : y.number = some b) : x.less listLess y = .ok (scoreLess a b) := by
  unfold Value.less
  rw [hx, hy]

/-- Entries with finite indices come in their order. -/
theorem ordered_ascending {pairs : List (Value × Value)} (h : ordered listLess payload = .ok pairs)
    (hfinite : ∀ entry ∈ entries payload, indexNumber entry = some (.finite (rank entry))) :
    (pairs.map fun pair => rank pair.2).Pairwise (· ≤ ·) := by
  obtain ⟨hentries, given, hsorted, hnumber⟩ := ordered_spec h
  have hgiven : ∀ pair ∈ given, pair.1.number = some (.finite (rank pair.2)) := by
    intro pair hpair
    rw [← hnumber pair hpair]
    refine hfinite pair.2 (hentries.mem_iff.mp (List.mem_map_of_mem ?_))
    exact (sortBy_perm hsorted).mem_iff.mpr hpair
  have hless : ∀ a ∈ given, ∀ b ∈ given,
      a.1.less listLess b.1 = .ok (decide (rank a.2 < rank b.2)) := by
    intro a ha b hb
    rw [Value.less_of_number (hgiven a ha) (hgiven b hb), scoreLess_finite]
  obtain ⟨sorted, hresult, hascending⟩ :=
    @exists_sortBy _ _ ℚ _ _ (fun pair : Value × Value => rank pair.2) given hless
  have heq : sorted = pairs := Except.ok.inj (hresult.symm.trans hsorted)
  rw [← heq]
  exact List.pairwise_map.mpr hascending

/-- Where the positions are the indices, the sort puts the entries in their order. -/
theorem ordered_eq_positions {pairs : List (Value × Value)} {n : ℕ}
    (h : ordered listLess payload = .ok pairs)
    (hperm : ((entries payload).map indexNumber).Perm ((List.range n).map position)) :
    pairs.map (fun pair => indexNumber pair.2) = (List.range n).map position := by
  obtain ⟨hentries, -⟩ := ordered_spec h
  have hfinite : ∀ entry ∈ entries payload, indexNumber entry = some (.finite (rank entry)) := by
    intro entry hentry
    obtain ⟨i, -, hi⟩ := List.mem_map.mp (hperm.mem_iff.mp (List.mem_map_of_mem hentry))
    rw [rank, ← hi]
    rfl
  have hindices : (pairs.map fun pair => indexNumber pair.2).Perm ((List.range n).map position) := by
    have hmap := hentries.map indexNumber
    rw [List.map_map] at hmap
    exact hmap.trans hperm
  have hrank : pairs.map (fun pair => indexNumber pair.2) =
      (pairs.map fun pair => rank pair.2).map fun q => some (.finite q) := by
    rw [List.map_map]
    refine List.map_congr_left fun pair hpair => ?_
    exact hfinite pair.2 (hentries.mem_iff.mp (List.mem_map_of_mem hpair))
  have hvalues : (pairs.map fun pair => rank pair.2).Perm
      ((List.range n).map fun i : ℕ => (i : ℚ)) := by
    have hmap := hindices.map finiteValue
    rw [List.map_map, List.map_map] at hmap
    exact hmap
  have hrange : ((List.range n).map fun i : ℕ => (i : ℚ)).Pairwise (· ≤ ·) := by
    refine List.pairwise_map.mpr (List.pairwise_lt_range.imp fun hlt => ?_)
    exact_mod_cast Nat.le_of_lt hlt
  -- Two ascending lists with the same numbers are equal.
  rw [hrank, hvalues.eq_of_pairwise' (ordered_ascending h hfinite) hrange, List.map_map]
  exact List.map_congr_left fun i _ => rfl

/-- Entries whose indices are the positions are found where they belong. -/
theorem aligned_of_perm (h : embeddings float listLess payload = .ok vectors)
    (hperm : ((entries payload).map indexNumber).Perm
      ((List.range vectors.length).map position)) :
    Aligned float (entries payload) vectors.length vectors := by
  obtain ⟨pairs, hpairs, hvectors⟩ := embeddings_spec h
  have hpositions := ordered_eq_positions hpairs hperm
  have hlength : pairs.length = vectors.length := hvectors.length_eq
  intro i hi
  have hi' : i < pairs.length := by omega
  have hindex : indexNumber pairs[i].2 = position i := by
    have hget := congrArg (fun numbers => numbers[i]?) hpositions
    simpa [hi, hi'] using hget
  have hmem : pairs[i].2 ∈ (entries payload).filter (hasIndex i) := by
    refine List.mem_filter.mpr ⟨?_, decide_eq_true hindex⟩
    exact (ordered_spec hpairs).1.mem_iff.mp (List.mem_map_of_mem (List.getElem_mem hi'))
  have hcount : ((entries payload).filter (hasIndex i)).length = 1 := by
    have hone : ((entries payload).map indexNumber).count (position i) = 1 := by
      rw [hperm.count_eq]
      exact List.count_eq_one_of_mem (nodup_positions _)
        (List.mem_map_of_mem (List.mem_range.mpr hi))
    rw [List.count, List.countP_map] at hone
    rw [← List.countP_eq_length_filter, ← hone]
    exact List.countP_congr fun entry _ => by simp [hasIndex, position]
  obtain ⟨entry, hentry⟩ := List.length_eq_one_iff.mp hcount
  rw [hentry, List.mem_singleton] at hmem
  refine ⟨entry, vectors[i], hentry, ?_, List.getElem?_eq_getElem hi⟩
  rw [← hmem]
  exact hvectors.get hi' hi

namespace RemoteEmbeddingProvider

variable {provider : RemoteEmbeddingProvider} {post : Request → Except Text Value}
  {texts : List Text} {key : Text}

/-- What is returned are the vectors of the response, as many as texts. -/
theorem embeddings_of_embedDocuments (hne : texts ≠ []) (hkey : provider.apiKey = some key)
    (hpost : post (provider.request key texts) = .ok payload)
    (h : provider.embedDocuments float listLess post texts = .ok vectors) :
    embeddings float listLess payload = .ok vectors ∧ vectors.length = texts.length := by
  unfold embedDocuments at h
  rw [if_neg hne, hkey] at h
  dsimp only at h
  rw [hpost] at h
  dsimp only at h
  split at h
  · cases h
  · next found hfound =>
      split at h
      · cases h
      · next hlength =>
          cases h
          exact ⟨hfound, not_not.mp hlength⟩

/-- The vectors of an accepted response belong to the texts exactly if the indices of its entries are
the positions of the texts, each of them once. -/
theorem embedDocuments_aligned_iff (hne : texts ≠ []) (hkey : provider.apiKey = some key)
    (hpost : post (provider.request key texts) = .ok payload)
    (h : provider.embedDocuments float listLess post texts = .ok vectors) :
    (vectors.length = texts.length ∧ Aligned float (entries payload) texts.length vectors) ↔
      ((entries payload).map indexNumber).Perm ((List.range texts.length).map position) := by
  obtain ⟨hembeddings, hlength⟩ := embeddings_of_embedDocuments hne hkey hpost h
  rw [← hlength]
  constructor
  · exact fun haligned => haligned.2.perm (length_entries hembeddings)
  · exact fun hperm => ⟨rfl, aligned_of_perm hembeddings hperm⟩

/-! ## Two responses -/

/-- `float(value)` of a number. -/
def numberFloat : Value → Except PyError ℚ
  | .int n => .ok n
  | .float (.finite q) => .ok q
  | _ => .error .typeError

/-- An entry of a response. -/
def entry (index : ℤ) (value : ℚ) : Value :=
  .dict [(str "index", .int index), (str "embedding", .list [.float (.finite value)])]

/-- A response with these entries. -/
def response (items : List Value) : Value := .dict [(str "data", .list items)]

/-- A provider with a key. -/
def keyedProvider : RemoteEmbeddingProvider where
  baseUrl := str "https://embeddings"
  apiKey := some (str "key")
  modelName := str "model"
  dimensions := none

/-- Two texts. -/
def twoTexts : List Text := [str "a", str "b"]

/-- The entries of the two texts, in the other order. -/
def reordered : Value := response [entry 1 (1 / 2), entry 0 1]

/-- A response in another order is accepted, and each vector belongs to its text. -/
theorem embedDocuments_aligned_iff_reordered :
    keyedProvider.embedDocuments numberFloat (fun _ _ => .error .typeError) (fun _ => .ok reordered)
        twoTexts = .ok [[1], [1 / 2]] ∧
      Aligned numberFloat (entries reordered) twoTexts.length [[1], [1 / 2]] := by
  have hembed : keyedProvider.embedDocuments numberFloat (fun _ _ => .error .typeError)
      (fun _ => .ok reordered) twoTexts = .ok [[1], [1 / 2]] := rfl
  have hperm : ((entries reordered).map indexNumber).Perm
      ((List.range twoTexts.length).map position) := by
    decide +kernel
  have haligned := embedDocuments_aligned_iff (by simp [twoTexts])
    (show keyedProvider.apiKey = some (str "key") from rfl) rfl hembed
  exact ⟨hembed, (haligned.mpr hperm).2⟩

/-- Two entries, neither of which is that of the second text. -/
def repeated : Value := response [entry 0 1, entry 0 (1 / 2)]

/-- A response with one index twice is accepted, and its vectors belong to no text. -/
theorem repeated_index_accepted :
    keyedProvider.embedDocuments numberFloat (fun _ _ => .error .typeError) (fun _ => .ok repeated)
        twoTexts = .ok [[1], [1 / 2]] ∧
      ¬ Aligned numberFloat (entries repeated) twoTexts.length [[1], [1 / 2]] := by
  refine ⟨rfl, fun h => ?_⟩
  obtain ⟨entry, -, hfilter, -, -⟩ := h 1 (by decide)
  have hnone : ((entries repeated).filter (hasIndex 1)).length = 0 := by decide +kernel
  rw [hfilter] at hnone
  cases hnone

end RemoteEmbeddingProvider

end Odirag.Embedding
