import Odirag.Foundations.Best
import Odirag.Foundations.Binary64
import Odirag.Foundations.Except
import Odirag.Foundations.Json
import Odirag.Foundations.Replace
import Odirag.Retrieval.Filters
import Mathlib.Data.Char
import Mathlib.Data.List.Lex
import Mathlib.Data.Prod.Lex

/-!
# The BM25 index and its snapshot

Reference: `backend/app/bm25/index.py`, `_load_bm25` of `backend/app/runtime.py`.

The index of a process lives in memory; a rebuild also saves its documents, and a process that starts
reads them back. The process may be killed at any moment of a save. `restart_spec` says which index
the next one starts with, and `search_best` what an index finds. The scores of `rank_bm25` are a
parameter, and so is the text of a JSON document.
-/

namespace Odirag.Bm25

open Retrieval (Dict FilterValue)
open Replace (FileCommand Files Outcome commands issue)

/-! ## Documents -/

/-- A dictionary whose keys are texts. -/
def Metadata := { fields : Json.Fields // (Json.obj fields).distinct = true }
deriving DecidableEq

/-- `isinstance(value, dict)`. -/
def Metadata.ofJson : Json → Option Metadata
  | .obj fields => if h : (Json.obj fields).distinct = true then some ⟨fields, h⟩ else none
  | _ => none

/-- `BM25Document`. -/
structure Document where
  chunkId : Text
  documentId : Text
  title : Text
  content : Text
  sourceUrl : Text
  metadata : Metadata
deriving DecidableEq

/-- `[\u4e00-\u9fff]`. -/
def isHan (c : Char) : Bool := 0x4e00 ≤ c.toNat && c.toNat ≤ 0x9fff

/-- The word that has been read, if there is one. -/
def flush (word : Text) : List Text := if word = [] then [] else [word]

/-- The tokens of the rest of a text, after this beginning of a word. -/
def tokensFrom (word : Text) : Text → List Text
  | [] => flush word
  | c :: rest =>
      if c.isAlphanum then tokensFrom (word ++ [c.toLower]) rest
      else flush word ++ ((if isHan c then [[c]] else []) ++ tokensFrom [] rest)

/-- `_tokenize`. -/
def tokenize (text : Text) : List Text := tokensFrom [] text

/-- The tokens that a document is indexed under. -/
def Document.tokens (document : Document) : List Text :=
  tokenize (document.title ++ ' ' :: document.content)

/-! ## The index -/

/-- `BM25Okapi`: the scores of a corpus for a query, one for each of its documents; `none` is the
`ZeroDivisionError` for a corpus without tokens. -/
structure Okapi where
  scores : List (List Text) → Option (List Text → List ℚ)
  length_scores : ∀ {corpus getScores} query, scores corpus = some getScores →
    (getScores query).length = corpus.length

variable (O : Okapi)

/-- The engine of these documents. -/
def engineOf (documents : List Document) : Option (Option (List Text → List ℚ)) :=
  if documents = [] then some none else (O.scores (documents.map (·.tokens))).map some

/-- `BM25Index`, as `rebuild` leaves it. -/
structure BM25Index where
  documents : List Document
  engine : Option (List Text → List ℚ)
  engine_eq : engineOf O documents = some engine

/-- `BM25Index()`. -/
def emptyIndex : BM25Index O := ⟨[], none, rfl⟩

/-- `rebuild`; `none` if it raises. -/
def rebuild (documents : List Document) : Option (BM25Index O) :=
  match h : engineOf O documents with
  | none => none
  | some engine => some ⟨documents, engine, h⟩

/-- `str(value)`. -/
def toText (render : Json → Text) : Json → Text
  | .str text => text
  | .int n => (toString n).toList
  | value => render value

/-- `value == expected`. -/
def agrees (value : Json) : FilterValue → Bool
  | .str text => value.isText text
  | .int n => value.isNumber n

/-- One round of the loop of `_matches`. -/
def itemMatches (render : Json → Text) (metadata : Metadata) (item : Text × FilterValue) : Bool :=
  let (key, expected) := item
  if key.endsWith (str "_gte") then
    let value := Json.get metadata.1 (key.dropRight 4)
    !value.isNull && !decide (toText render value < expected.toText)
  else if key.endsWith (str "_lte") then
    let value := Json.get metadata.1 (key.dropRight 4)
    !value.isNull && !decide (expected.toText < toText render value)
  else agrees (Json.get metadata.1 key) expected

/-- `_matches`. -/
def metadataMatches (render : Json → Text) (metadata : Metadata) (filters : Dict) : Bool :=
  filters.all (itemMatches render metadata)

/-- `_normalize`. -/
def normalize (scores : List ℚ) : List ℚ :=
  match scores.min?, scores.max? with
  | some minimum, some maximum =>
      if maximum = minimum then scores.map fun _ => 1
      else scores.map fun score =>
        Binary64.div (Binary64.round (score - minimum)) (Binary64.round (maximum - minimum))
  | _, _ => []

/-- What a search returns; the source of every hit is `bm25`. -/
structure Hit where
  chunkId : Text
  documentId : Text
  content : Text
  title : Text
  sourceUrl : Text
  score : ℚ
  rank : ℕ
  metadata : Metadata

/-- A hit with its normalised score and its rank. -/
def hit (entry : (Document × ℚ) × ℕ) : Hit where
  chunkId := entry.1.1.chunkId
  documentId := entry.1.1.documentId
  content := entry.1.1.content
  title := entry.1.1.title
  sourceUrl := entry.1.1.sourceUrl
  score := entry.1.2
  rank := entry.2
  metadata := entry.1.1.metadata

/-- The key of the sort: the best score first, then by identifier. -/
def searchKey (candidate : ℚ × Document) : ℚᵒᵈ ×ₗ Text :=
  toLex (OrderDual.toDual candidate.1, candidate.2.chunkId)

/-- A document that a search may find. -/
def eligible (render : Json → Text) (query : Text) (filters : Dict) (document : Document) : Bool :=
  (tokenize query).any (· ∈ document.tokens) && metadataMatches render document.metadata filters

variable {O}

/-- The candidates of a search, the best first. -/
def BM25Index.ranked (render : Json → Text) (index : BM25Index O)
    (getScores : List Text → List ℚ) (query : Text) (filters : Dict) : List (ℚ × Document) :=
  sortedBy searchKey (((getScores (tokenize query)).zip index.documents).filter fun candidate =>
    eligible render query filters candidate.2)

/-- `search`. -/
def BM25Index.search (render : Json → Text) (index : BM25Index O) (query : Text) (topK : ℤ)
    (filters : Dict) : List Hit :=
  match index.engine with
  | none => []
  | some getScores =>
      if topK ≤ 0 then []
      else
        let ranked := index.ranked render getScores query filters
        let normalized := normalize (ranked.map (·.1))
        ((((ranked.take topK.toNat).map (·.2)).zip normalized).zipIdx 1).map hit

/-! ## The documents of a rebuild -/

/-- A value of a metadata record. -/
def ofValue : FilterValue → Json
  | .str text => .str text
  | .int n => .int n

/-- A metadata record whose keys differ. -/
def ofDict (d : Dict) (h : (d.map (·.1)).Nodup) : Metadata where
  val := d.map fun item => (item.1, ofValue item.2)
  property := by
    have hkeys : ((d.map fun item => (item.1, ofValue item.2)).map Prod.fst).Nodup := by
      rwa [List.map_map]
    have hvalues : Json.distinctFields (d.map fun item => (item.1, ofValue item.2)) = true := by
      clear h hkeys
      induction d with
      | nil => rfl
      | cons item d ih =>
          have hvalue : (ofValue item.2).distinct = true := by cases item.2 <;> rfl
          simp [Json.distinctFields, hvalue, ih]
    rw [Json.distinct, hvalues, Bool.and_true]
    exact decide_eq_true hkeys

theorem nodup_present {entries : List (Text × Option FilterValue)}
    (h : (entries.map (·.1)).Nodup) : ((Retrieval.present entries).map (·.1)).Nodup := by
  refine h.sublist ?_
  induction entries with
  | nil => exact List.Sublist.refl _
  | cons entry entries ih =>
      have htail := ih (List.nodup_cons.mp h).2
      unfold Retrieval.present at htail ⊢
      cases hvalue : entry.2 with
      | none => simpa [hvalue] using htail.cons entry.1
      | some value => simpa [hvalue] using htail

theorem nodup_bm25Document (record : Retrieval.IndexedChunkRecord) :
    ((Retrieval.bm25Document record).metadata.map (·.1)).Nodup := by
  refine nodup_present ?_
  have hkeys : Retrieval.metadataKeys.Nodup := by decide
  exact hkeys

/-- The document of a chunk record. -/
def ofRecord (record : Retrieval.IndexedChunkRecord) : Document where
  chunkId := record.chunkId
  documentId := record.documentId
  title := record.title
  content := record.content
  sourceUrl := record.sourceUrl
  metadata := ofDict (Retrieval.bm25Document record).metadata (nodup_bm25Document record)

variable (O) in
/-- `build_index` of the records that `list_indexed_chunks` returns. -/
def buildIndex (records : List Retrieval.IndexedChunkRecord) : Option (BM25Index O) :=
  rebuild O (records.map ofRecord)

theorem get_ofDict (d : Dict) (h : (d.map (·.1)).Nodup) (key : Text) :
    Json.get (ofDict d h).1 key = ((d.get key).map ofValue).getD .null := by
  change Json.get (d.map fun item => (item.1, ofValue item.2)) key = _
  clear h
  induction d with
  | nil => rfl
  | cons item d ih =>
      rw [List.map_cons, Json.get_cons, ih]
      unfold Dict.get
      rw [List.lookup_cons]
      by_cases hkey : item.1 = key
      · simp [hkey]
      · have hne : (key == item.1) = false := beq_eq_false_iff_ne.mpr (Ne.symm hkey)
        simp [hkey, hne]

theorem agrees_ofValue (value expected : FilterValue) :
    agrees (ofValue value) expected = decide (some value = some expected) := by
  cases value <;> cases expected <;> simp [ofValue, agrees, Json.isText, Json.isNumber, beq_eq_decide]

/-- The filters read a document as they read the record of its chunk. -/
theorem metadataMatches_ofRecord (render : Json → Text) (record : Retrieval.IndexedChunkRecord)
    (filters : Dict) :
    metadataMatches render (ofRecord record).metadata filters =
      Retrieval.BM25Index.matches (Retrieval.bm25Document record).metadata filters := by
  have htext : ∀ value : FilterValue, toText render (ofValue value) = value.toText := by
    intro value
    cases value <;> rfl
  have hnull : ∀ value : FilterValue, (ofValue value).isNull = false := by
    intro value
    cases value <;> rfl
  unfold metadataMatches Retrieval.BM25Index.matches
  congr 1
  funext item
  obtain ⟨key, expected⟩ := item
  simp only [itemMatches, Retrieval.itemMatches, ofRecord, get_ofDict]
  split
  · cases Dict.get (Retrieval.bm25Document record).metadata (key.dropRight 4) with
    | none => rfl
    | some value => simp [htext, hnull]
  · split
    · cases Dict.get (Retrieval.bm25Document record).metadata (key.dropRight 4) with
      | none => rfl
      | some value => simp [htext, hnull]
    · cases Dict.get (Retrieval.bm25Document record).metadata key with
      | none => cases expected <;> rfl
      | some value => exact agrees_ofValue value expected

/-! ## Searching -/

/-- The engine of an index has the scores of its documents. -/
theorem BM25Index.engine_cases (index : BM25Index O) :
    index.documents = [] ∧ index.engine = none ∨
      ∃ getScores, O.scores (index.documents.map (·.tokens)) = some getScores ∧
        index.engine = some getScores := by
  have h := index.engine_eq
  unfold engineOf at h
  split at h
  · next hempty => exact .inl ⟨hempty, (Option.some_inj.mp h).symm⟩
  · obtain ⟨getScores, hscores, hengine⟩ := Option.map_eq_some_iff.mp h
    exact .inr ⟨getScores, hscores, hengine.symm⟩

theorem searchKey_lt_iff {a b : ℚ × Document} :
    searchKey a < searchKey b ↔ b.1 < a.1 ∨ a.1 = b.1 ∧ a.2.chunkId < b.2.chunkId := by
  rw [Prod.Lex.lt_iff]
  rfl

/-- Normalising maps scores to the unit interval in their order, and the best one to 1. -/
theorem normalize_eq (scores : List ℚ) :
    ∃ scale : ℚ → ℚ, normalize scores = scores.map scale ∧
      (∀ a ∈ scores, 0 ≤ scale a ∧ scale a ≤ 1) ∧
      (∀ a ∈ scores, ∀ b ∈ scores, a ≤ b → scale a ≤ scale b) ∧
      ∀ a ∈ scores, (∀ b ∈ scores, b ≤ a) → scale a = 1 := by
  unfold normalize
  split
  · next minimum maximum hmin hmax =>
      obtain ⟨-, hmin⟩ := List.min?_eq_some_iff.mp hmin
      obtain ⟨hmaxmem, hmax⟩ := List.max?_eq_some_iff.mp hmax
      split
      · exact ⟨fun _ => 1, rfl, fun _ _ => ⟨zero_le_one, le_refl 1⟩, fun _ _ _ _ _ => le_refl 1,
          fun _ _ _ => rfl⟩
      · next hne =>
          have hlt : minimum < maximum := lt_of_le_of_ne (hmin _ hmaxmem) (Ne.symm hne)
          have hwidth : 0 < Binary64.round (maximum - minimum) :=
            Binary64.round_pos (sub_pos.mpr hlt)
          have hone : Binary64.div (Binary64.round (maximum - minimum))
              (Binary64.round (maximum - minimum)) = 1 := by
            rw [Binary64.div, div_self (ne_of_gt hwidth), Binary64.round_one]
          have hpos : ∀ a ∈ scores, 0 ≤ Binary64.round (a - minimum) :=
            fun a ha => Binary64.round_nonneg (sub_nonneg.mpr (hmin a ha))
          have hmono : ∀ a ∈ scores, ∀ b, a ≤ b →
              Binary64.div (Binary64.round (a - minimum)) (Binary64.round (maximum - minimum)) ≤
                Binary64.div (Binary64.round (b - minimum))
                  (Binary64.round (maximum - minimum)) := by
            intro a ha b hab
            refine Binary64.div_mono (hpos a ha) (le_of_lt hwidth) ?_
            exact Binary64.round_mono (sub_nonneg.mpr (hmin a ha)) (sub_le_sub_right hab minimum)
          refine ⟨_, rfl, fun a ha => ⟨?_, ?_⟩, fun a ha b _ => hmono a ha b, fun a ha hbest => ?_⟩
          · exact Binary64.round_nonneg (div_nonneg (hpos a ha) (le_of_lt hwidth))
          · exact (hmono a ha maximum (hmax a ha)).trans (le_of_eq hone)
          · rw [le_antisymm (hmax a ha) (hbest maximum hmaxmem)]
            exact hone
  · next hnone =>
      have hempty : scores = [] := by
        cases scores with
        | nil => rfl
        | cons a rest => exact absurd rfl (hnone _ _ rfl)
      subst hempty
      exact ⟨id, rfl, by simp, by simp, by simp⟩

theorem zip_take_map {α β γ : Type} (f : α → β) (g : α → γ) (xs : List α) (k : ℕ) :
    ((xs.take k).map f).zip (xs.map g) = (xs.take k).map fun x => (f x, g x) := by
  induction xs generalizing k with
  | nil => simp
  | cons x xs ih =>
      cases k with
      | zero => simp
      | succ k => simp only [List.take_succ_cons, List.map_cons, List.zip_cons_cons, ih]

/-- A search finds the best `topK` of the documents that share a token with the query and meet the
filters: the others of them come after, by score and then by identifier. The scores of the hits are
in the order of those of the engine and between 0 and 1, and the best document has 1. -/
theorem search_best (render : Json → Text) (index : BM25Index O)
    (hnodup : (index.documents.map (·.chunkId)).Nodup) (query : Text) {topK : ℤ} (htop : 0 < topK)
    (filters : Dict) :
    ∃ (scores : List ℚ) (scale : ℚ → ℚ) (chosen others : List (ℚ × Document)),
      (index.documents ≠ [] → ∃ getScores, O.scores (index.documents.map (·.tokens)) =
        some getScores ∧ scores = getScores (tokenize query)) ∧
      scores.length = index.documents.length ∧
      (chosen ++ others).Perm ((scores.zip index.documents).filter fun candidate =>
        eligible render query filters candidate.2) ∧
      (chosen ++ others).Pairwise (fun a b =>
        b.1 < a.1 ∨ a.1 = b.1 ∧ a.2.chunkId < b.2.chunkId) ∧
      chosen.length = min topK.toNat (chosen ++ others).length ∧
      (∀ a ∈ chosen, 0 ≤ scale a.1 ∧ scale a.1 ≤ 1) ∧
      (∀ a ∈ chosen, ∀ b ∈ chosen, a.1 ≤ b.1 → scale a.1 ≤ scale b.1) ∧
      (∀ a ∈ chosen.head?, scale a.1 = 1) ∧
      index.search render query topK filters =
        (chosen.zipIdx 1).map fun entry => hit ((entry.1.2, scale entry.1.1), entry.2) := by
  rcases index.engine_cases with ⟨hempty, hengine⟩ | ⟨getScores, hscores, hengine⟩
  · refine ⟨[], id, [], [], fun hne => absurd hempty hne, by simp [hempty], by simp, by simp,
      by simp, by simp, by simp, by simp, ?_⟩
    simp [BM25Index.search, hengine]
  · have hlength := O.length_scores (tokenize query) hscores
    rw [List.length_map] at hlength
    have hkeys : ((((getScores (tokenize query)).zip index.documents).filter fun candidate =>
        eligible render query filters candidate.2).map searchKey).Nodup := by
      refine List.Nodup.of_map (fun key => (ofLex key).2) ?_
      rw [List.map_map]
      have hids : ((getScores (tokenize query)).zip index.documents).map
          (fun candidate => candidate.2.chunkId) = index.documents.map (·.chunkId) := by
        have hdocuments := List.map_snd_zip (le_of_eq hlength.symm)
        calc _ = (((getScores (tokenize query)).zip index.documents).map Prod.snd).map
              (·.chunkId) := (List.map_map ..).symm
          _ = _ := by rw [hdocuments]
      have hall : (((getScores (tokenize query)).zip index.documents).map
          fun candidate => candidate.2.chunkId).Nodup := hids ▸ hnodup
      exact hall.sublist (List.filter_sublist.map _)
    generalize hranked : index.ranked render getScores query filters = ranked
    have hpair : ranked.Pairwise fun a b => searchKey a < searchKey b := by
      rw [← hranked]
      exact pairwise_sortedBy_lt hkeys
    obtain ⟨scale, hnormalize, hunit, hmono, hbest⟩ := normalize_eq (ranked.map (·.1))
    have hmem : ∀ a ∈ ranked.take topK.toNat, a.1 ∈ ranked.map (·.1) :=
      fun a ha => List.mem_map_of_mem (List.mem_of_mem_take ha)
    refine ⟨getScores (tokenize query), scale, ranked.take topK.toNat, ranked.drop topK.toNat,
      fun _ => ⟨getScores, hscores, rfl⟩, hlength, ?_, ?_, ?_,
      fun a ha => hunit _ (hmem a ha), fun a ha b hb => hmono _ (hmem a ha) _ (hmem b hb), ?_, ?_⟩
    · rw [List.take_append_drop, ← hranked]
      exact sortedBy_perm _ _
    · rw [List.take_append_drop]
      exact hpair.imp searchKey_lt_iff.mp
    · rw [List.take_append_drop, List.length_take]
    · -- The first candidate has the best score.
      intro a ha
      cases ranked with
      | nil => simp at ha
      | cons first rest =>
          obtain rfl : first = a := by
            cases hk : topK.toNat with
            | zero => omega
            | succ k => simpa [hk] using ha
          refine hbest _ List.mem_cons_self fun b hb => ?_
          obtain ⟨c, hc, rfl⟩ := List.mem_map.mp hb
          rcases List.mem_cons.mp hc with rfl | hc
          · exact le_refl _
          · rcases searchKey_lt_iff.mp ((List.pairwise_cons.mp hpair).1 c hc) with hlt | ⟨heq, -⟩
            · exact le_of_lt hlt
            · exact le_of_eq heq.symm
    · have hnot : ¬ topK ≤ 0 := not_le.mpr htop
      simp only [BM25Index.search, hengine, if_neg hnot, hranked, hnormalize, List.map_map]
      rw [zip_take_map, List.zipIdx_map, List.map_map]
      rfl

/-! ## The snapshot -/

/-- `json` with the text of a file: what is dumped is read back. -/
structure JsonFiles (β : Type) where
  dumps : Json → β
  loads : β → Option Json
  loads_dumps : ∀ {payload : Json}, payload.distinct = true → loads (dumps payload) = some payload

/-- The fields of an entry of the list of documents. -/
def entryFields (document : Document) : Json.Fields :=
  [(str "chunk_id", .str document.chunkId), (str "document_id", .str document.documentId),
    (str "title", .str document.title), (str "content", .str document.content),
    (str "source_url", .str document.sourceUrl), (str "metadata", .obj document.metadata.1)]

/-- An entry of the list of documents. -/
def documentEntry (document : Document) : Json := .obj (entryFields document)

/-- The payload of `save`. -/
def snapshotPayload (generatedAt : Text) (documents : List Document) : Json :=
  .obj [(str "schema_version", .int 1), (str "generated_at", .str generatedAt),
    (str "documents", .arr (documents.map documentEntry))]

/-- How `load` fails: a `ValueError`, a `KeyError`, or a `ZeroDivisionError`. -/
inductive LoadError
  | value (message : String)
  | missing (key : Text)
  | zeroDivision
deriving DecidableEq, Repr

section

variable (render : Json → Text)

/-- `str(item[key])`. -/
def textField (item : Json.Fields) (key : Text) : Except LoadError Text :=
  match item.find? (fun field => field.1 == key) with
  | none => .error (.missing key)
  | some field => .ok (toText render field.2)

/-- One round of the loop of `load`. -/
def loadDocument : Json → Except LoadError Document
  | .obj item =>
      match Metadata.ofJson (Json.get item (str "metadata")) with
      | none => .error (.value "invalid BM25 snapshot document")
      | some metadata => do
          let chunkId ← textField render item (str "chunk_id")
          let documentId ← textField render item (str "document_id")
          let title ← textField render item (str "title")
          let content ← textField render item (str "content")
          let sourceUrl ← textField render item (str "source_url")
          return ⟨chunkId, documentId, title, content, sourceUrl, metadata⟩
  | _ => .error (.value "invalid BM25 snapshot document")

/-- The documents of a payload. -/
def loadDocuments : Json → Except LoadError (List Document)
  | .obj payload =>
      if (Json.get payload (str "schema_version")).isNumber 1 then
        match Json.get payload (str "documents") with
        | .arr rawDocuments => rawDocuments.mapM (loadDocument render)
        | _ => .error (.value "BM25 snapshot documents must be a list")
      else .error (.value "unsupported BM25 snapshot schema")
  | _ => .error (.value "unsupported BM25 snapshot schema")

variable {β : Type} (J : JsonFiles β) (O)

/-- `load` of a file with this text. -/
def load (text : β) : Except LoadError (BM25Index O) :=
  match J.loads text with
  | none => .error (.value "")
  | some payload => do
      let documents ← loadDocuments render payload
      match rebuild O documents with
      | none => .error .zeroDivision
      | some index => return index

/-- `_load_bm25`; an error is an exception that leaves it. -/
def loadBm25 (file : Option β) : Except LoadError (BM25Index O) :=
  match file with
  | none => .ok (emptyIndex O)
  | some text =>
      match load O render J text with
      | .error (.value _) => .ok (emptyIndex O)
      | result => result

/-- An index and the time at which it is saved. -/
structure Save where
  index : BM25Index O
  generatedAt : Text

variable {O}

/-- `save`. -/
def save (s : Save O) : Script (FileCommand Unit β) (Unit → Files β) ℕ := do
  if ← issue () .other then
    if ← issue () (.write (J.dumps (snapshotPayload s.generatedAt s.index.documents))) then
      if ← issue () .rename then return 0 else return 1
    else return 1
  else return 1

/-- The saves of a process and of those after it, one at a time, of indexes with this property. -/
def saver (P : BM25Index O → Prop) :
    Service (FileCommand Unit β) (Unit → Files β) (Outcome β) (Unit → Files β)
      { s : Save O // P s.index } where
  toCommands := commands Unit β
  host := id
  start _ d := d
  main s := save J s.1
  handler status := return status

/-- A process that starts now has this index. -/
def Loads (index : BM25Index O) (d : Unit → Files β) : Prop :=
  loadBm25 O render J (d ()).target = .ok index

end

theorem BM25Index.ext_documents {index index' : BM25Index O}
    (h : index.documents = index'.documents) : index = index' := by
  obtain ⟨documents, engine, hengine⟩ := index
  obtain ⟨documents', engine', hengine'⟩ := index'
  obtain rfl : documents = documents' := h
  obtain rfl : engine = engine' := Option.some_inj.mp (hengine.symm.trans hengine')
  rfl

/-- The documents of an index build it again. -/
theorem rebuild_documents (index : BM25Index O) : rebuild O index.documents = some index := by
  unfold rebuild
  split
  · next hnone =>
      rw [index.engine_eq] at hnone
      cases hnone
  · exact congrArg some (BM25Index.ext_documents rfl)

section

variable {render : Json → Text} {β : Type} {J : JsonFiles β}

theorem Metadata.ofJson_obj (metadata : Metadata) :
    Metadata.ofJson (.obj metadata.1) = some metadata :=
  dif_pos metadata.2

theorem loadDocument_documentEntry (document : Document) :
    loadDocument render (documentEntry document) = .ok document := by
  have hmetadata : Metadata.ofJson (Json.get (entryFields document) (str "metadata")) =
      some document.metadata := Metadata.ofJson_obj document.metadata
  simp only [documentEntry, loadDocument, hmetadata]
  rfl

theorem distinct_snapshotPayload (generatedAt : Text) (documents : List Document) :
    (snapshotPayload generatedAt documents).distinct = true := by
  have hentry : ∀ document : Document, (documentEntry document).distinct = true := by
    intro document
    have hmetadata := document.metadata.2
    simp only [documentEntry, entryFields, Json.distinct, Json.distinctFields, List.map_cons,
      List.map_nil] at hmetadata ⊢
    rw [hmetadata]
    decide
  have hall : Json.distinctItems (documents.map documentEntry) = true := by
    rw [Json.distinctItems_iff]
    intro item hitem
    obtain ⟨document, -, rfl⟩ := List.mem_map.mp hitem
    exact hentry document
  simp only [snapshotPayload, Json.distinct, Json.distinctFields, hall, List.map_cons, List.map_nil]
  decide

/-- What is saved is read back. -/
theorem loadBm25_dumps (index : BM25Index O) (generatedAt : Text) :
    loadBm25 O render J (some (J.dumps (snapshotPayload generatedAt index.documents))) =
      .ok index := by
  have hdocuments : (index.documents.map documentEntry).mapM (loadDocument render) =
      .ok index.documents := by
    rw [mapM_eq_ok, List.forall₂_map_left_iff]
    exact List.forall₂_same.mpr fun document _ => loadDocument_documentEntry document
  have hload : loadDocuments render (snapshotPayload generatedAt index.documents) =
      .ok index.documents := hdocuments
  have hindex : load O render J (J.dumps (snapshotPayload generatedAt index.documents)) =
      .ok index := by
    simp only [load, J.loads_dumps (distinct_snapshotPayload generatedAt index.documents), hload,
      rebuild_documents, bind, Except.bind]
    rfl
  simp only [loadBm25, hindex]

/-- Until the rename a process that starts has the old index, and from then on the new one. -/
theorem triple_save (s : Save O) (old : BM25Index O) :
    Script.Triple (commands Unit β)
      (fun d => Loads render J old d ∨ Loads render J s.index d) (Loads render J old) (save J s)
      (fun status => Loads render J (if status = 0 then s.index else old)) := by
  intro d hd
  let new := J.dumps (snapshotPayload s.generatedAt s.index.documents)
  have hold : ∀ d', Replace.Has () (d ()).target (fun _ => none) d' → Loads render J old d' := by
    intro d' h
    unfold Loads
    rw [h.1]
    exact hd
  have hnew : ∀ d', Replace.Has () (some new) (fun _ => none) d' → Loads render J s.index d' := by
    intro d' h
    unfold Loads
    rw [h.1]
    exact loadBm25_dumps s.index s.generatedAt
  suffices htriple : Script.Triple (commands Unit β)
      (fun d => Loads render J old d ∨ Loads render J s.index d)
      (Replace.Has () (d ()).target fun _ => none) (save J s)
      (fun status => Loads render J (if status = 0 then s.index else old)) from
    htriple d ⟨rfl, fun _ hn => absurd rfl hn⟩
  have hone : ∀ d', Replace.Has () (d ()).target (fun _ => none) d' →
      (Loads render J old d' ∨ Loads render J s.index d') ∧
        Loads render J (if (1 : ℕ) = 0 then s.index else old) d' :=
    fun d' h => ⟨.inl (hold d' h), hold d' h⟩
  unfold save
  refine Script.Triple.bind (Replace.triple_issue .other (by simp) fun d' h => .inl (hold d' h))
    fun made => ?_
  cases made with
  | false => exact Script.Triple.pure hone
  | true =>
      refine Script.Triple.bind (Replace.triple_write fun d' h => .inl (hold d' h)) fun written => ?_
      cases written with
      | false => exact Script.Triple.pure fun d' h => hone d' h.1
      | true =>
          refine Script.Triple.bind ((Replace.triple_rename fun d' h =>
            h.imp (hold d') (hnew d')).pre fun d' h => ⟨h.1, h.2 rfl⟩) fun renamed => ?_
          cases renamed with
          | false => exact Script.Triple.pure hone
          | true => exact Script.Triple.pure fun d' h => ⟨.inr (hnew d' h), hnew d' h⟩

/-- Whatever is saved, whatever fails and wherever the process is killed: a process that starts finds
the empty index of a missing file or one that was saved, as it was, and raises nothing; until the
rename of a save it finds the index from before, and after a save that went through the new one. -/
theorem restart_spec (render : Json → Text) (J : JsonFiles β) (P : BM25Index O → Prop)
    {tr : List (World (FileCommand Unit β) (Unit → Files β) (Unit → Files β) ×
      Event (Outcome β) { s : Save O // P s.index })} {w}
    (h : (System.ofNext (saver J P).next fun w =>
      ∃ d index, w = .idle d ∧ P index ∧ Loads render J index d).Run System.always tr w) :
    (∃ index, P index ∧ Loads render J index ((saver J P).hostOf w)) ∧
      ∀ (s : Save O) (old : BM25Index O), Script.Triple (commands Unit β)
        (fun d => Loads render J old d ∨ Loads render J s.index d) (Loads render J old) (save J s)
        (fun status => Loads render J (if status = 0 then s.index else old)) := by
  refine ⟨?_, triple_save⟩
  obtain ⟨w₀, hinit, hpath⟩ := h
  refine Service.invariant (S := saver J P) (D := fun d => ∃ index, P index ∧ Loads render J index d)
    ⟨w₀, hinit, hpath.mono fun _ _ _ _ _ => Service.allowed_of fun _ _ _ _ => trivial⟩ ?_ ?_ ?_
  · rintro w ⟨d, index, rfl, hP, hloads⟩
    exact ⟨index, hP, hloads⟩
  · rintro ⟨s, hs⟩ d ⟨old, hP, hloads⟩
    have hsave := triple_save s old d hloads
    refine Script.wp_weaken (Script.wp_mono hsave fun _ _ _ => trivial) ?_
    rintro d' (hd' | hd')
    · exact ⟨old, hP, hd'⟩
    · exact ⟨s.index, hs, hd'⟩
  · exact fun status d hd => ⟨hd, trivial⟩

end

/-! ## Two documents -/

/-- Scores that count the tokens of the query. -/
def overlap : Okapi where
  scores corpus := some fun query =>
    corpus.map fun tokens => ((query.filter (· ∈ tokens)).length : ℚ)
  length_scores query h := by
    obtain rfl := Option.some_inj.mp h
    simp

/-- Files that hold the payload itself. -/
def plainFiles : JsonFiles Json := ⟨id, some, fun _ => rfl⟩

def twoDocuments : BM25Index overlap where
  documents :=
    [⟨str "chunk-1", str "doc-1", str "Grants", str "for research", [], ⟨[], rfl⟩⟩,
      ⟨str "chunk-2", str "doc-1", str "Grants", str "for research in 2024", [], ⟨[], rfl⟩⟩]
  engine := _
  engine_eq := rfl

theorem search_best_twoDocuments :
    ∃ (chosen : List (ℚ × Document)) (scale : ℚ → ℚ), chosen.length ≤ 1 ∧
      (∀ a ∈ chosen.head?, scale a.1 = 1) ∧
      twoDocuments.search (fun _ => []) (str "2024") 1 [] =
        (chosen.zipIdx 1).map fun entry => hit ((entry.1.2, scale entry.1.1), entry.2) := by
  obtain ⟨_, scale, chosen, _, -, -, -, -, hlength, -, -, hbest, hsearch⟩ :=
    search_best (fun _ => []) twoDocuments (by decide) (str "2024") (zero_lt_one' ℤ) []
  exact ⟨chosen, scale, hlength.trans_le (Nat.min_le_left _ _), hbest, hsearch⟩

/-- A save is killed while it writes, and the next one goes through. -/
def killedAndSaved : List (Event (Outcome Json) { s : Save overlap // s.index = twoDocuments ∨
    s.index = emptyIndex overlap }) :=
  let s := ⟨⟨twoDocuments, str "2024-01-01"⟩, .inl rfl⟩
  let fine : Outcome Json := ⟨true, .null, false⟩
  [.start s, .outcome fine, .outcome ⟨false, .str (str "half"), false⟩, .kill,
    .start s, .outcome fine, .outcome fine, .outcome fine, .outcome fine]

/-- A data directory without a snapshot. -/
def noSnapshot : Unit → Files Json := fun _ => ⟨none, none⟩

theorem restart_spec_killedAndSaved :
    ∃ w, System.exec (saver plainFiles fun index => index = twoDocuments ∨
        index = emptyIndex overlap).next (.idle noSnapshot) killedAndSaved = some w ∧
      ∃ index, (index = twoDocuments ∨ index = emptyIndex overlap) ∧
        Loads (fun _ => []) plainFiles index ((saver plainFiles fun index =>
          index = twoDocuments ∨ index = emptyIndex overlap).hostOf w) := by
  have hexec : (System.exec (saver plainFiles fun index => index = twoDocuments ∨
      index = emptyIndex overlap).next (.idle noSnapshot) killedAndSaved).isSome := by
    decide
  obtain ⟨w, hw⟩ := Option.isSome_iff_exists.mp hexec
  have hempty : Loads (fun _ => []) plainFiles (emptyIndex overlap) noSnapshot := rfl
  exact ⟨w, hw, (restart_spec (fun _ => []) plainFiles _
    ⟨.idle noSnapshot, ⟨noSnapshot, _, rfl, .inr rfl, hempty⟩, System.exec_path hw⟩).1⟩

end Odirag.Bm25
