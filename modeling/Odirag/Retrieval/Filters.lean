import Odirag.Foundations.Date
import Mathlib.Data.List.Nodup
import Mathlib.Data.List.TakeWhile

/-!
# Metadata filters

Reference: `_ALLOWED_FILTERS` of `backend/app/retrieval/analysis.py`, `list_indexed_chunks` of
`backend/app/repositories/indexing.py`, `backend/app/services/bm25.py`, `_payload` of
`backend/app/services/indexing.py`, and the filters of `backend/app/bm25/index.py` and
`backend/app/vector_store/store.py`.

One filter dictionary is applied by three back ends to two records that are built apart from one
another: the metadata of the BM25 index and the payload of the vector point.
-/

namespace Odirag.Retrieval

/-- A value of a metadata record or of a filter. -/
inductive FilterValue
  | str (text : Text)
  | int (n : ℤ)
deriving DecidableEq, Repr

/-- `str(value)`. -/
def FilterValue.toText : FilterValue → Text
  | str text => text
  | int n => (toString n).toList

/-- A dictionary; an earlier entry hides a later one with the same key. -/
abbrev Dict := List (Text × FilterValue)

/-- `d.get(key)`. -/
def Dict.get (d : Dict) (key : Text) : Option FilterValue := d.lookup key

/-- The entries whose value is not `None`. -/
def present (entries : List (Text × Option FilterValue)) : Dict :=
  entries.filterMap fun e => e.2.map (e.1, ·)

/-! ## The two records -/

/-- The columns of a `sources` row that the records hold. -/
structure SourceColumns where
  name : Text
  officialStatus : Text
deriving DecidableEq

/-- The columns of a `documents` row that the records hold, with its source. -/
structure DocumentColumns where
  documentId : Text
  title : Text
  sourceUrl : Text
  sourceId : Option ℤ := none
  source : Option SourceColumns := none
  region : Option Text := none
  city : Option Text := none
  documentType : Option Text := none
  issuingAuthority : Option Text := none
  documentNumber : Option Text := none
  publishDate : Option Date := none
  version : ℕ := 1
deriving DecidableEq

/-- The columns of a `chunks` row that the records hold. -/
structure ChunkColumns where
  chunkId : Text
  content : Text
  contentHash : Text
  sectionPath : Option Text := none
  sectionTitle : Option Text := none
  pageNumber : Option ℤ := none
deriving DecidableEq

/-- `IndexedChunkRecord`. -/
structure IndexedChunkRecord where
  chunkId : Text
  documentId : Text
  title : Text
  content : Text
  sourceUrl : Text
  sourceId : Option ℤ
  sourceName : Option Text
  officialStatus : Option Text
  region : Option Text
  city : Option Text
  documentType : Option Text
  issuingAuthority : Option Text
  documentNumber : Option Text
  publishDate : Option Date
  documentVersion : ℕ
  sectionPath : Option Text
  sectionTitle : Option Text
  pageNumber : Option ℤ
deriving DecidableEq

/-- The record of `list_indexed_chunks` for a row. -/
def indexedChunkRecord (document : DocumentColumns) (chunk : ChunkColumns) : IndexedChunkRecord where
  chunkId := chunk.chunkId
  documentId := document.documentId
  title := document.title
  content := chunk.content
  sourceUrl := document.sourceUrl
  sourceId := document.sourceId
  sourceName := document.source.map (·.name)
  officialStatus := document.source.map (·.officialStatus)
  region := document.region
  city := document.city
  documentType := document.documentType
  issuingAuthority := document.issuingAuthority
  documentNumber := document.documentNumber
  publishDate := document.publishDate
  documentVersion := document.version
  sectionPath := chunk.sectionPath
  sectionTitle := chunk.sectionTitle
  pageNumber := chunk.pageNumber

/-- `BM25Document`. -/
structure BM25Document where
  chunkId : Text
  documentId : Text
  title : Text
  content : Text
  sourceUrl : Text
  metadata : Dict
deriving DecidableEq

/-- `BM25RebuildService._document`. -/
def bm25Document (record : IndexedChunkRecord) : BM25Document where
  chunkId := record.chunkId
  documentId := record.documentId
  title := record.title
  content := record.content
  sourceUrl := record.sourceUrl
  metadata := present [
    (str "source_id", record.sourceId.map .int),
    (str "source_name", record.sourceName.map .str),
    (str "official_status", record.officialStatus.map .str),
    (str "region", record.region.map .str),
    (str "city", record.city.map .str),
    (str "document_type", record.documentType.map .str),
    (str "issuing_authority", record.issuingAuthority.map .str),
    (str "document_number", record.documentNumber.map .str),
    (str "publish_date", record.publishDate.map fun d => .str d.isoformat),
    (str "document_version", some (.int record.documentVersion)),
    (str "section_path", record.sectionPath.map .str),
    (str "section_title", record.sectionTitle.map .str),
    (str "page_number", record.pageNumber.map .int)]

/-- `VectorPoint`, without the vector. -/
structure VectorPoint where
  pointId : Text
  documentId : Text
  content : Text
  title : Text
  sourceUrl : Text
  payload : Dict
deriving DecidableEq

/-- `IndexingService._payload`. -/
def indexingPayload (document : DocumentColumns) (chunk : ChunkColumns) : Dict :=
  present [
    (str "source_id", document.sourceId.map .int),
    (str "source_name", document.source.map fun s => .str s.name),
    (str "official_status", document.source.map fun s => .str s.officialStatus),
    (str "region", document.region.map .str),
    (str "city", document.city.map .str),
    (str "document_type", document.documentType.map .str),
    (str "issuing_authority", document.issuingAuthority.map .str),
    (str "document_number", document.documentNumber.map .str),
    (str "publish_date", document.publishDate.map fun d => .str d.isoformat),
    (str "document_version", some (.int document.version)),
    (str "section_path", chunk.sectionPath.map .str),
    (str "section_title", chunk.sectionTitle.map .str),
    (str "page_number", chunk.pageNumber.map .int),
    (str "content_hash", some (.str chunk.contentHash))]

/-- The point of `index_document` for a chunk. -/
def vectorPoint (document : DocumentColumns) (chunk : ChunkColumns) : VectorPoint where
  pointId := chunk.chunkId
  documentId := document.documentId
  content := chunk.content
  title := document.title
  sourceUrl := document.sourceUrl
  payload := indexingPayload document chunk

/-- What `InMemoryVectorStore` filters: the payload, overwritten by the fields of the point. -/
def VectorPoint.searched (point : VectorPoint) : Dict :=
  [(str "document_id", .str point.documentId), (str "content", .str point.content),
    (str "title", .str point.title), (str "source_url", .str point.sourceUrl)] ++ point.payload

/-- The payload that `QdrantVectorStore.upsert` stores. -/
def VectorPoint.upserted (point : VectorPoint) : Dict :=
  [(str "document_id", .str point.documentId), (str "chunk_id", .str point.pointId),
    (str "content", .str point.content), (str "title", .str point.title),
    (str "source_url", .str point.sourceUrl)] ++ point.payload

/-! ## The three filters -/

/-- One round of the loop of `_matches`. -/
def itemMatches (metadata : Dict) (item : Text × FilterValue) : Bool :=
  let (key, expected) := item
  if key.endsWith (str "_gte") then
    match metadata.get (key.dropRight 4) with
    | none => false
    | some value => !decide (value.toText < expected.toText)
  else if key.endsWith (str "_lte") then
    match metadata.get (key.dropRight 4) with
    | none => false
    | some value => !decide (expected.toText < value.toText)
  else decide (metadata.get key = some expected)

/-- `_matches` of `bm25/index.py`. -/
def BM25Index.matches (metadata filters : Dict) : Bool := filters.all (itemMatches metadata)

/-- `_matches` of `vector_store/store.py`. -/
def InMemoryVectorStore.matches (payload filters : Dict) : Bool := filters.all (itemMatches payload)

/-- `FieldCondition`; the bounds of a range by their names. -/
inductive FieldCondition
  | matchValue (key : Text) (value : FilterValue)
  | datetimeRange (key : Text) (bounds : Dict)
  | range (key : Text) (bounds : Dict)
deriving DecidableEq

/-- `key.rsplit("_", 1)`. -/
def rsplit (key : Text) : Text × Text :=
  ((key.reverse.dropWhile (· != '_')).tail.reverse, (key.reverse.takeWhile (· != '_')).reverse)

/-- `d[key] = value`. -/
def Dict.set (d : Dict) (key : Text) (value : FilterValue) : Dict :=
  match d with
  | [] => [(key, value)]
  | (k, v) :: rest => if k = key then (k, value) :: rest else (k, v) :: Dict.set rest key value

/-- `ranges.setdefault(field_name, {})[bound] = expected`. -/
def setBound (ranges : List (Text × Dict)) (field bound : Text) (expected : FilterValue) :
    List (Text × Dict) :=
  match ranges with
  | [] => [(field, [(bound, expected)])]
  | (f, bounds) :: rest =>
      if f = field then (f, bounds.set bound expected) :: rest
      else (f, bounds) :: setBound rest field bound expected

/-- The key ends with the name of a bound. -/
def isRange (key : Text) : Bool := key.endsWith (str "_gte") || key.endsWith (str "_lte")

/-- One round of the first loop of `_qdrant_filter`. -/
def addFilter (acc : List FieldCondition × List (Text × Dict)) (item : Text × FilterValue) :
    List FieldCondition × List (Text × Dict) :=
  let (key, expected) := item
  if isRange key then (acc.1, setBound acc.2 (rsplit key).1 (rsplit key).2 expected)
  else (acc.1 ++ [.matchValue key expected], acc.2)

/-- The condition of the second loop. -/
def rangeCondition (r : Text × Dict) : FieldCondition :=
  if r.1 = str "publish_date" then .datetimeRange r.1 r.2 else .range r.1 r.2

/-- `_qdrant_filter`. -/
def qdrantFilter (filters : Dict) : Option (List FieldCondition) :=
  let acc := filters.foldl addFilter ([], [])
  let conditions := acc.1 ++ acc.2.map rangeCondition
  if conditions = [] then none else some conditions

/-! ## Qdrant -/

/-- How Qdrant reads a datetime: an ISO date is an instant, in the order of the dates. -/
structure Datetimes where
  instant : Text → Option ℤ
  ofDate : Date → ℤ
  instant_isoformat : ∀ d, instant d.isoformat = some (ofDate d)
  ofDate_le : ∀ a b, ofDate a ≤ ofDate b ↔ a ≤ b

/-- A value within a bound. -/
def withinBound (bound : Text) (expected value : ℤ) : Bool :=
  if bound = str "gte" then decide (expected ≤ value)
  else if bound = str "lte" then decide (value ≤ expected)
  else true

namespace Datetimes

variable (Q : Datetimes)

/-- The instant of a stored or expected value. -/
def read : FilterValue → Option ℤ
  | .str text => Q.instant text
  | .int _ => none

/-- The number of a stored or expected value. -/
def readInt : FilterValue → Option ℤ
  | .str _ => none
  | .int n => some n

/-- A stored value lies within all bounds; a missing one does not. -/
def inRange (read : FilterValue → Option ℤ) (payload : Dict) (key : Text) (bounds : Dict) : Bool :=
  match (payload.get key).bind read with
  | none => false
  | some value => bounds.all fun b =>
      match read b.2 with
      | none => false
      | some expected => withinBound b.1 expected value

/-- A point meets a condition. -/
def meets (payload : Dict) : FieldCondition → Bool
  | .matchValue key value => decide (payload.get key = some value)
  | .datetimeRange key bounds => inRange Q.read payload key bounds
  | .range key bounds => inRange readInt payload key bounds

/-- A point meets a filter: all conditions of `must`, if there is a filter. -/
def accepts (payload : Dict) (filter : Option (List FieldCondition)) : Bool :=
  filter.elim true fun conditions => conditions.all (Q.meets payload)

end Datetimes

/-! ## The filters that are admitted -/

/-- `_ALLOWED_FILTERS`. -/
def allowedFilters : List Text :=
  [str "document_id", str "source_id", str "region", str "city", str "document_type",
    str "issuing_authority", str "publish_date_gte", str "publish_date_lte",
    str "document_version"]

/-- `{**d, **e}`. -/
def Dict.update (d e : Dict) : Dict := e.foldl (fun d item => d.set item.1 item.2) d

/-- The filters that `analyze` applies; `none` if it raises. -/
def analyze (inferred supplied : Dict) : Option Dict :=
  if supplied.all fun item => allowedFilters.contains item.1 then some (inferred.update supplied)
  else none

/-- The fields of the allowed filters. -/
inductive FilterField
  | documentId | sourceId | region | city | documentType | issuingAuthority
  | publishDateGte | publishDateLte | documentVersion
deriving DecidableEq, Repr

namespace FilterField

/-- The key of a filter. -/
def key : FilterField → Text
  | documentId => str "document_id"
  | sourceId => str "source_id"
  | region => str "region"
  | city => str "city"
  | documentType => str "document_type"
  | issuingAuthority => str "issuing_authority"
  | publishDateGte => str "publish_date_gte"
  | publishDateLte => str "publish_date_lte"
  | documentVersion => str "document_version"

theorem key_injective : Function.Injective key := by
  have hall : ∀ f g : FilterField, f.key = g.key → f = g := by
    intro f g
    cases f <;> cases g <;> decide
  exact hall

/-- The entry of the records that the filter reads. -/
def column : FilterField → Text
  | publishDateGte | publishDateLte => str "publish_date"
  | field => field.key

/-- The value has the type of the field. -/
def Typed (field : FilterField) (value : FilterValue) : Prop :=
  match field with
  | sourceId | documentVersion => ∃ n, value = .int n
  | publishDateGte | publishDateLte => ∃ d : Date, value = .str d.isoformat
  | _ => ∃ text, value = .str text

end FilterField

/-- A filter dictionary that the query analyser admits. -/
structure Filters where
  items : Dict
  distinct : (items.map (·.1)).Nodup
  typed : ∀ item ∈ items, ∃ field : FilterField, item.1 = field.key ∧ field.Typed item.2

/-- The supplied values have the types of their fields. -/
def WellTyped (supplied : Dict) : Prop :=
  ∀ field expected, (FilterField.key field, expected) ∈ supplied → field.Typed expected

theorem exists_key_of_allowed {key : Text} (h : allowedFilters.contains key = true) :
    ∃ field : FilterField, key = field.key := by
  have hall : ∀ key ∈ allowedFilters, ∃ field ∈ [FilterField.documentId, .sourceId, .region, .city,
      .documentType, .issuingAuthority, .publishDateGte, .publishDateLte, .documentVersion],
      key = field.key := by
    decide
  obtain ⟨field, -, hkey⟩ := hall key (List.contains_iff_mem.mp h)
  exact ⟨field, hkey⟩

theorem Dict.mem_keys_set {d : Dict} {key k : Text} {value : FilterValue}
    (h : k ∈ (d.set key value).map (·.1)) : k = key ∨ k ∈ d.map (·.1) := by
  induction d with
  | nil =>
      rw [Dict.set, List.map_singleton, List.mem_singleton] at h
      exact .inl h
  | cons e d ih =>
      obtain ⟨k', v⟩ := e
      rw [Dict.set] at h
      split at h
      · exact .inr h
      · rw [List.map_cons, List.mem_cons] at h ⊢
        rcases h with rfl | h
        · exact .inr (.inl rfl)
        · exact (ih h).imp_right .inr

theorem Dict.mem_set {d : Dict} {key : Text} {value : FilterValue} {item : Text × FilterValue}
    (h : item ∈ d.set key value) : item ∈ d ∨ item = (key, value) := by
  induction d with
  | nil => exact .inr (List.mem_singleton.mp h)
  | cons e d ih =>
      obtain ⟨k, v⟩ := e
      rw [Dict.set] at h
      split at h
      · next heq =>
          rcases List.mem_cons.mp h with rfl | h
          · exact .inr (heq ▸ rfl)
          · exact .inl (List.mem_cons_of_mem _ h)
      · rcases List.mem_cons.mp h with rfl | h
        · exact .inl List.mem_cons_self
        · exact (ih h).imp_left (List.mem_cons_of_mem _)

theorem Dict.nodup_set {d : Dict} {key : Text} {value : FilterValue}
    (h : (d.map (·.1)).Nodup) : ((d.set key value).map (·.1)).Nodup := by
  induction d with
  | nil => exact List.nodup_singleton key
  | cons e d ih =>
      obtain ⟨k, v⟩ := e
      obtain ⟨hnotin, hrest⟩ := List.nodup_cons.mp h
      rw [Dict.set]
      split
      · exact h
      · next hne =>
          refine List.nodup_cons.mpr ⟨fun hmem => ?_, ih hrest⟩
          rcases mem_keys_set hmem with heq | hmem
          · exact hne heq
          · exact hnotin hmem

/-- The dictionary that the analyser applies is an admitted one. -/
theorem analyze_admits {inferred : Filters} {supplied applied : Dict} (htyped : WellTyped supplied)
    (h : analyze inferred.items supplied = some applied) :
    ∃ filters : Filters, filters.items = applied := by
  unfold analyze at h
  split at h
  · next hallowed =>
      cases h
      unfold Dict.update
      induction supplied generalizing inferred with
      | nil => exact ⟨inferred, rfl⟩
      | cons item supplied ih =>
          rw [List.all_cons, Bool.and_eq_true] at hallowed
          obtain ⟨field, hkey⟩ := exists_key_of_allowed hallowed.1
          have hitem : field.Typed item.2 := by
            refine htyped field item.2 ?_
            rw [← hkey]
            exact List.mem_cons_self
          let next : Filters := {
            items := inferred.items.set item.1 item.2
            distinct := Dict.nodup_set inferred.distinct
            typed := by
              intro e he
              rcases Dict.mem_set he with he | rfl
              · exact inferred.typed e he
              · exact ⟨field, hkey, hitem⟩ }
          exact @ih next
            (fun f v hmem => htyped f v (List.mem_cons_of_mem _ hmem)) hallowed.2
  · cases h

namespace DocumentColumns

/-- The value of the document that a filter is about. -/
def value (document : DocumentColumns) : FilterField → Option FilterValue
  | .documentId => some (.str document.documentId)
  | .sourceId => document.sourceId.map .int
  | .region => document.region.map .str
  | .city => document.city.map .str
  | .documentType => document.documentType.map .str
  | .issuingAuthority => document.issuingAuthority.map .str
  | .publishDateGte | .publishDateLte => document.publishDate.map fun d => .str d.isoformat
  | .documentVersion => some (.int document.version)

/-- What a filter means: the document has this value, or a publication date within the bound. -/
def Admits (document : DocumentColumns) (field : FilterField) (expected : FilterValue) : Prop :=
  match field with
  | .publishDateGte =>
      ∃ p d, document.publishDate = some p ∧ expected = .str d.isoformat ∧ d ≤ p
  | .publishDateLte =>
      ∃ p d, document.publishDate = some p ∧ expected = .str d.isoformat ∧ p ≤ d
  | field => document.value field = some expected

end DocumentColumns

/-! ## What the records hold -/

/-- A record holds the values that are not `None`. -/
theorem get_present {entries : List (Text × Option FilterValue)} {keys : List Text}
    (hkeys : entries.map (·.1) = keys) (h : keys.Nodup) (key : Text) :
    Dict.get (present entries) key = (entries.lookup key).join := by
  induction entries generalizing keys with
  | nil => rfl
  | cons e entries ih =>
      obtain ⟨k, v⟩ := e
      rw [← hkeys, List.map_cons] at h
      obtain ⟨hnotin, hrest⟩ := List.nodup_cons.mp h
      have hih := ih rfl hrest
      unfold Dict.get present at hih ⊢
      by_cases hk : key = k
      · subst hk
        cases v with
        | none =>
            have hnone : entries.lookup key = none := by
              refine List.lookup_eq_none_iff.mpr fun p hp => ?_
              rw [bne_iff_ne]
              rintro rfl
              exact hnotin (List.mem_map.mpr ⟨p, hp, rfl⟩)
            rw [hnone] at hih
            simpa [List.lookup_cons] using hih
        | some v => simp
      · have hbeq : (key == k) = false := beq_eq_false_iff_ne.mpr hk
        cases v with
        | none => simpa [List.lookup_cons, hbeq] using hih
        | some v => simpa [List.lookup_cons, hbeq] using hih

/-- The keys of the BM25 metadata. -/
def metadataKeys : List Text :=
  [str "source_id", str "source_name", str "official_status", str "region", str "city",
    str "document_type", str "issuing_authority", str "document_number", str "publish_date",
    str "document_version", str "section_path", str "section_title", str "page_number"]

section Records

variable (document : DocumentColumns) (chunk : ChunkColumns)

/-- The metadata of the BM25 index lacks the document id. -/
theorem get_bm25Document (field : FilterField) :
    (bm25Document (indexedChunkRecord document chunk)).metadata.get field.column =
      if field = .documentId then none else document.value field := by
  have hkeys : metadataKeys.Nodup := by decide
  rw [bm25Document, get_present ?_ hkeys]
  · cases field <;> rfl
  · rfl

theorem get_indexingPayload {field : FilterField} (h : field ≠ .documentId) :
    (indexingPayload document chunk).get field.column = document.value field := by
  have hkeys : (metadataKeys ++ [str "content_hash"]).Nodup := by decide
  rw [indexingPayload, get_present ?_ hkeys]
  · cases field with
    | documentId => exact absurd rfl h
    | _ => rfl
  · rfl

/-- The fields of the point that hide an entry of the payload are no filter columns. -/
theorem get_searched (field : FilterField) :
    (vectorPoint document chunk).searched.get field.column = document.value field := by
  by_cases h : field = .documentId
  · subst h
    rfl
  · rw [← get_indexingPayload document chunk h]
    cases field with
    | documentId => exact absurd rfl h
    | _ => rfl

theorem get_upserted (field : FilterField) :
    (vectorPoint document chunk).upserted.get field.column = document.value field := by
  by_cases h : field = .documentId
  · subst h
    rfl
  · rw [← get_indexingPayload document chunk h]
    cases field with
    | documentId => exact absurd rfl h
    | _ => rfl

end Records

/-! ## One filter -/

section Item

variable {document : DocumentColumns} {metadata : Dict} {field : FilterField}
  {expected : FilterValue}

theorem admits_publishDateGte {d : Date} :
    document.Admits .publishDateGte (.str d.isoformat) ↔
      ∃ p, document.publishDate = some p ∧ d ≤ p := by
  constructor
  · rintro ⟨p, d', hp, hexpected, hle⟩
    have hnumber := Date.number_eq_of_isoformat (FilterValue.str.inj hexpected)
    exact ⟨p, hp, Nat.le_trans (Nat.le_of_eq hnumber) hle⟩
  · rintro ⟨p, hp, hle⟩
    exact ⟨p, d, hp, rfl, hle⟩

theorem admits_publishDateLte {d : Date} :
    document.Admits .publishDateLte (.str d.isoformat) ↔
      ∃ p, document.publishDate = some p ∧ p ≤ d := by
  constructor
  · rintro ⟨p, d', hp, hexpected, hle⟩
    have hnumber := Date.number_eq_of_isoformat (FilterValue.str.inj hexpected)
    exact ⟨p, hp, Nat.le_trans hle (Nat.le_of_eq hnumber.symm)⟩
  · rintro ⟨p, hp, hle⟩
    exact ⟨p, d, hp, rfl, hle⟩

/-- A record that holds the document's value passes a filter exactly if the filter admits the
document. -/
theorem itemMatches_iff (htyped : field.Typed expected)
    (hget : metadata.get field.column = document.value field) :
    itemMatches metadata (field.key, expected) = true ↔ document.Admits field expected := by
  cases field with
  | publishDateGte =>
      obtain ⟨d, rfl⟩ := htyped
      have hdate : metadata.get (str "publish_date") =
          document.publishDate.map fun d => .str d.isoformat := hget
      change (match metadata.get (str "publish_date") with
        | none => false
        | some value => !decide (value.toText < d.isoformat)) = true ↔ _
      rw [hdate, admits_publishDateGte]
      cases document.publishDate with
      | none => simp
      | some p => simp [FilterValue.toText, Date.isoformat_lt_iff]
  | publishDateLte =>
      obtain ⟨d, rfl⟩ := htyped
      have hdate : metadata.get (str "publish_date") =
          document.publishDate.map fun d => .str d.isoformat := hget
      change (match metadata.get (str "publish_date") with
        | none => false
        | some value => !decide (d.isoformat < value.toText)) = true ↔ _
      rw [hdate, admits_publishDateLte]
      cases document.publishDate with
      | none => simp
      | some p => simp [FilterValue.toText, Date.isoformat_lt_iff]
  | _ =>
      change decide (metadata.get _ = some expected) = true ↔ _
      rw [decide_eq_true_iff]
      exact hget ▸ Iff.rfl

/-- The condition that `_qdrant_filter` builds from one filter. -/
def itemCondition (item : Text × FilterValue) : FieldCondition :=
  if isRange item.1 then rangeCondition ((rsplit item.1).1, [((rsplit item.1).2, item.2)])
  else .matchValue item.1 item.2

/-- A point whose payload holds the document's value meets the condition of a filter exactly if the
filter admits the document. -/
theorem meets_itemCondition_iff (Q : Datetimes) (htyped : field.Typed expected)
    (hget : metadata.get field.column = document.value field) :
    Q.meets metadata (itemCondition (field.key, expected)) = true ↔
      document.Admits field expected := by
  cases field with
  | publishDateGte =>
      obtain ⟨d, rfl⟩ := htyped
      have hdate : metadata.get (str "publish_date") =
          document.publishDate.map fun d => .str d.isoformat := hget
      change Datetimes.inRange Q.read metadata (str "publish_date")
        [(str "gte", .str d.isoformat)] = true ↔ _
      rw [Datetimes.inRange, hdate, admits_publishDateGte]
      cases document.publishDate with
      | none => simp
      | some p =>
          simp [Datetimes.read, Q.instant_isoformat, withinBound, Q.ofDate_le]
  | publishDateLte =>
      obtain ⟨d, rfl⟩ := htyped
      have hdate : metadata.get (str "publish_date") =
          document.publishDate.map fun d => .str d.isoformat := hget
      have hname : str "lte" ≠ str "gte" := by decide
      change Datetimes.inRange Q.read metadata (str "publish_date")
        [(str "lte", .str d.isoformat)] = true ↔ _
      rw [Datetimes.inRange, hdate, admits_publishDateLte]
      cases document.publishDate with
      | none => simp
      | some p =>
          simp [Datetimes.read, Q.instant_isoformat, withinBound, Q.ofDate_le, hname]
  | _ =>
      change decide (metadata.get _ = some expected) = true ↔ _
      rw [decide_eq_true_iff]
      exact hget ▸ Iff.rfl

end Item

/-! ## The whole dictionary -/

/-- The two parts of `rsplit` with the underscore between them. -/
theorem rsplit_spec {key : Text} (h : '_' ∈ key) : key = (rsplit key).1 ++ '_' :: (rsplit key).2 := by
  have hsplit := List.takeWhile_append_dropWhile (p := (· != '_')) (l := key.reverse)
  cases hdrop : key.reverse.dropWhile (· != '_') with
  | nil =>
      rw [List.dropWhile_eq_nil_iff] at hdrop
      have hne := hdrop '_' (List.mem_reverse.mpr h)
      simp at hne
  | cons c rest =>
      have hc : c = '_' := by
        have hhead := List.head?_dropWhile_not (· != '_') key.reverse
        rw [hdrop] at hhead
        simpa using hhead
      have hreverse := congrArg List.reverse hsplit
      rw [hdrop, hc, List.reverse_append, List.reverse_cons, List.reverse_reverse] at hreverse
      unfold rsplit
      rw [hdrop, List.tail_cons]
      simpa using hreverse.symm

/-- A range key is known from its parts. -/
theorem rsplit_injective {k k' : Text} (h : isRange k = true) (h' : isRange k' = true)
    (heq : rsplit k = rsplit k') : k = k' := by
  have hunderscore : ∀ key : Text, isRange key = true → '_' ∈ key := by
    intro key hkey
    rcases Bool.or_eq_true_iff.mp hkey with hsuffix | hsuffix
    · exact (List.isSuffixOf_iff_suffix.mp hsuffix).mem (by decide)
    · exact (List.isSuffixOf_iff_suffix.mp hsuffix).mem (by decide)
  rw [rsplit_spec (hunderscore k h), rsplit_spec (hunderscore k' h'), heq]

/-- A new key is added at the end. -/
theorem Dict.set_of_notMem {d : Dict} {key : Text} {value : FilterValue}
    (h : key ∉ d.map (·.1)) : d.set key value = d ++ [(key, value)] := by
  induction d with
  | nil => rfl
  | cons e d ih =>
      obtain ⟨k, v⟩ := e
      rw [List.map_cons, List.mem_cons, not_or] at h
      rw [Dict.set, if_neg (Ne.symm h.1), ih h.2, List.cons_append]

section Fold

variable (Q : Datetimes) (payload : Dict)

/-- Bounds are checked one by one. -/
theorem inRange_append (read : FilterValue → Option ℤ) (key : Text) (xs ys : Dict) :
    Datetimes.inRange read payload key (xs ++ ys) =
      (Datetimes.inRange read payload key xs && Datetimes.inRange read payload key ys) := by
  unfold Datetimes.inRange
  cases (payload.get key).bind read with
  | none => rfl
  | some value => simp [List.all_append]

theorem meets_rangeCondition_append (key : Text) (xs ys : Dict) :
    Q.meets payload (rangeCondition (key, xs ++ ys)) =
      (Q.meets payload (rangeCondition (key, xs)) && Q.meets payload (rangeCondition (key, ys))) := by
  unfold rangeCondition
  split
  · exact inRange_append payload Q.read key xs ys
  · exact inRange_append payload Datetimes.readInt key xs ys

/-- A bound that is not there yet adds its own condition. -/
theorem all_setBound {ranges : List (Text × Dict)} {field bound : Text} {expected : FilterValue}
    (hfresh : ∀ bounds, (field, bounds) ∈ ranges → bound ∉ bounds.map (·.1)) :
    (setBound ranges field bound expected).all (Q.meets payload ∘ rangeCondition) =
      (ranges.all (Q.meets payload ∘ rangeCondition) &&
        Q.meets payload (rangeCondition (field, [(bound, expected)]))) := by
  induction ranges with
  | nil => simp [setBound]
  | cons r ranges ih =>
      obtain ⟨f, bounds⟩ := r
      rw [setBound]
      split
      · next heq =>
          subst heq
          have hset : bounds.set bound expected = bounds ++ [(bound, expected)] :=
            Dict.set_of_notMem (hfresh bounds List.mem_cons_self)
          rw [hset, List.all_cons, List.all_cons, Function.comp_apply, Function.comp_apply,
            meets_rangeCondition_append]
          ac_rfl
      · rw [List.all_cons, List.all_cons,
          ih fun bounds hmem => hfresh bounds (List.mem_cons_of_mem _ hmem), Bool.and_assoc]

omit Q payload in
/-- The bounds after a new one. -/
theorem mem_setBound {ranges : List (Text × Dict)} {field bound f b : Text} {bounds : Dict}
    {expected : FilterValue} (h : (f, bounds) ∈ setBound ranges field bound expected)
    (hb : b ∈ bounds.map (·.1)) :
    (f = field ∧ b = bound) ∨ ∃ bounds', (f, bounds') ∈ ranges ∧ b ∈ bounds'.map (·.1) := by
  induction ranges with
  | nil =>
      rw [setBound, List.mem_singleton] at h
      cases h
      rw [List.map_singleton, List.mem_singleton] at hb
      exact .inl ⟨rfl, hb⟩
  | cons r ranges ih =>
      obtain ⟨f', bounds'⟩ := r
      have hkeep : ∀ g, (∃ bounds', (g, bounds') ∈ ranges ∧ b ∈ bounds'.map (·.1)) →
          ∃ bounds'', (g, bounds'') ∈ (f', bounds') :: ranges ∧ b ∈ bounds''.map (·.1) :=
        fun g ⟨bounds'', hmem, hb''⟩ => ⟨bounds'', List.mem_cons_of_mem _ hmem, hb''⟩
      rw [setBound] at h
      split at h
      · next heq =>
          subst heq
          rcases List.mem_cons.mp h with heq | hmem
          · cases heq
            rcases Dict.mem_keys_set hb with rfl | hb
            · exact .inl ⟨rfl, rfl⟩
            · exact .inr ⟨bounds', List.mem_cons_self, hb⟩
          · exact .inr (hkeep f ⟨bounds, hmem, hb⟩)
      · rcases List.mem_cons.mp h with heq | hmem
        · cases heq
          exact .inr ⟨_, List.mem_cons_self, hb⟩
        · exact (ih hmem).imp_right (hkeep f)

/-- What the loop has built from the filters so far. -/
structure Built (items : Dict) (acc : List FieldCondition × List (Text × Dict)) : Prop where
  all : (acc.1 ++ acc.2.map rangeCondition).all (Q.meets payload) =
    items.all fun item => Q.meets payload (itemCondition item)
  bounds : ∀ f bounds, (f, bounds) ∈ acc.2 → ∀ b ∈ bounds.map (·.1),
    ∃ k ∈ items.map (·.1), isRange k = true ∧ rsplit k = (f, b)

variable {Q payload}

/-- One round of the loop. -/
theorem Built.addFilter {items : Dict} {acc : List FieldCondition × List (Text × Dict)}
    {item : Text × FilterValue} (h : Built Q payload items acc)
    (hnew : item.1 ∉ items.map (·.1)) :
    Built Q payload (items ++ [item]) (Retrieval.addFilter acc item) := by
  obtain ⟨key, expected⟩ := item
  have hall := h.all
  rw [List.all_append, List.all_map] at hall
  unfold Retrieval.addFilter
  dsimp only
  split
  · next hrange =>
      have hfresh : ∀ bounds, ((rsplit key).1, bounds) ∈ acc.2 →
          (rsplit key).2 ∉ bounds.map (·.1) := by
        intro bounds hmem hbound
        obtain ⟨k, hk, hkrange, hkparts⟩ := h.bounds _ bounds hmem _ hbound
        exact hnew (rsplit_injective hkrange hrange hkparts ▸ hk)
      refine ⟨?_, fun f bounds hmem b hb => ?_⟩
      · rw [List.all_append, List.all_map, all_setBound Q payload hfresh, ← Bool.and_assoc, hall,
          List.all_append, List.all_cons, List.all_nil, Bool.and_true, itemCondition, if_pos hrange]
      · rw [List.map_append]
        rcases mem_setBound hmem hb with ⟨rfl, rfl⟩ | ⟨bounds', hmem', hb'⟩
        · exact ⟨key, List.mem_append_right _ List.mem_cons_self, hrange, rfl⟩
        · obtain ⟨k, hk, hkrange, hkparts⟩ := h.bounds f bounds' hmem' b hb'
          exact ⟨k, List.mem_append_left _ hk, hkrange, hkparts⟩
  · next hexact =>
      refine ⟨?_, fun f bounds hmem b hb => ?_⟩
      · rw [List.all_append, List.all_append, List.all_map, List.all_append, ← hall, List.all_cons,
          List.all_nil, Bool.and_true, List.all_cons, List.all_nil, Bool.and_true, itemCondition,
          if_neg hexact]
        ac_rfl
      · obtain ⟨k, hk, hkparts⟩ := h.bounds f bounds hmem b hb
        rw [List.map_append]
        exact ⟨k, List.mem_append_left _ hk, hkparts⟩

/-- `_qdrant_filter` asks for every filter of a dictionary. -/
theorem accepts_qdrantFilter {items : Dict} (h : (items.map (·.1)).Nodup) :
    Q.accepts payload (qdrantFilter items) =
      items.all fun item => Q.meets payload (itemCondition item) := by
  have hbuilt : Built Q payload items (items.foldl addFilter ([], [])) := by
    induction items using List.reverseRecOn with
    | nil => exact ⟨rfl, fun f bounds hmem => by cases hmem⟩
    | append_singleton items item ih =>
        rw [List.map_append, List.nodup_append] at h
        rw [List.foldl_append]
        refine (ih h.1).addFilter fun hmem => ?_
        exact h.2.2 _ hmem _ (List.mem_singleton.mpr rfl) rfl
  rw [← hbuilt.all]
  unfold qdrantFilter Datetimes.accepts
  dsimp only
  split
  · next hnone =>
      rw [hnone]
      rfl
  · rfl

end Fold

/-! ## The three decisions -/

section Decisions

variable (Q : Datetimes) (document : DocumentColumns) (chunk : ChunkColumns) (filters : Filters)

/-- The BM25 index accepts the chunk. -/
def bm25Accepts : Bool :=
  BM25Index.matches (bm25Document (indexedChunkRecord document chunk)).metadata filters.items

/-- `InMemoryVectorStore` accepts the chunk. -/
def inMemoryAccepts : Bool :=
  InMemoryVectorStore.matches (vectorPoint document chunk).searched filters.items

/-- Qdrant accepts the chunk. -/
def qdrantAccepts : Bool :=
  Q.accepts (vectorPoint document chunk).upserted (qdrantFilter filters.items)

/-- The three back ends decide alike. -/
def Coincide : Prop :=
  bm25Accepts document chunk filters = inMemoryAccepts document chunk filters ∧
    inMemoryAccepts document chunk filters = qdrantAccepts Q document chunk filters

/-- Every filter of the dictionary admits the document. -/
def Filters.Admit : Prop :=
  ∀ field expected, (field.key, expected) ∈ filters.items → document.Admits field expected

variable {Q document chunk filters}

/-- A decision that treats each filter as the document's columns do. -/
theorem all_iff_admitted {accepts : Text × FilterValue → Bool}
    (h : ∀ field expected, (FilterField.key field, expected) ∈ filters.items →
      field.Typed expected → (accepts (field.key, expected) = true ↔ document.Admits field expected)) :
    filters.items.all accepts = true ↔ filters.Admit document := by
  rw [List.all_eq_true]
  constructor
  · intro hall field expected hmem
    obtain ⟨field', hkey, htyped⟩ := filters.typed _ hmem
    obtain rfl : field = field' := FilterField.key_injective hkey
    exact (h field expected hmem htyped).mp (hall _ hmem)
  · rintro hadmitted ⟨key, expected⟩ hmem
    obtain ⟨field, rfl, htyped⟩ := filters.typed _ hmem
    exact (h field expected hmem htyped).mpr (hadmitted field expected hmem)

theorem inMemoryAccepts_iff : inMemoryAccepts document chunk filters = true ↔
    filters.Admit document :=
  all_iff_admitted fun field _ _ htyped => itemMatches_iff htyped (get_searched document chunk field)

theorem qdrantAccepts_iff : qdrantAccepts Q document chunk filters = true ↔
    filters.Admit document := by
  rw [qdrantAccepts, accepts_qdrantFilter filters.distinct]
  exact all_iff_admitted fun field _ _ htyped =>
    meets_itemCondition_iff Q htyped (get_upserted document chunk field)

/-- The BM25 index accepts no document if a document id is asked for. -/
theorem bm25Accepts_iff : bm25Accepts document chunk filters = true ↔
    (∀ expected, (FilterField.documentId.key, expected) ∉ filters.items) ∧
      filters.Admit document := by
  have hmetadata := get_bm25Document document chunk
  by_cases hid : ∀ expected, (FilterField.documentId.key, expected) ∉ filters.items
  · refine Iff.trans (all_iff_admitted fun field expected hmem htyped => ?_) (and_iff_right hid).symm
    have hfield : field ≠ .documentId := fun heq => hid expected (heq ▸ hmem)
    exact itemMatches_iff htyped ((hmetadata field).trans (if_neg hfield))
  · refine iff_of_false (fun haccepts => ?_) fun h => hid h.1
    push Not at hid
    obtain ⟨expected, hmem⟩ := hid
    have hitem := List.all_eq_true.mp haccepts _ hmem
    change decide (Dict.get _ FilterField.documentId.column = some expected) = true at hitem
    rw [hmetadata .documentId, if_pos rfl] at hitem
    exact absurd (of_decide_eq_true hitem) (Option.some_ne_none expected).symm

/-- The three back ends decide alike about a chunk exactly if the dictionary has no filter on the
document id, or one of its filters refuses the document. -/
theorem filters_coincide_iff : Coincide Q document chunk filters ↔
    (∀ expected, (FilterField.documentId.key, expected) ∉ filters.items) ∨
      ∃ field expected, (FilterField.key field, expected) ∈ filters.items ∧
        ¬ document.Admits field expected := by
  have hvector : inMemoryAccepts document chunk filters = qdrantAccepts Q document chunk filters :=
    Bool.eq_iff_iff.mpr (inMemoryAccepts_iff.trans qdrantAccepts_iff.symm)
  have hrefused : (¬ filters.Admit document) ↔
      ∃ field expected, (FilterField.key field, expected) ∈ filters.items ∧
        ¬ document.Admits field expected := by
    unfold Filters.Admit
    push Not
    rfl
  rw [Coincide, and_iff_left hvector, Bool.eq_iff_iff, bm25Accepts_iff, inMemoryAccepts_iff,
    ← hrefused]
  tauto

end Decisions

/-! ## A filter on the document id -/

/-- Qdrant's instants for dates of the form `YYYY-MM-DD`. -/
def isoDatetimes : Datetimes where
  instant text := (Date.parseNumber text).map fun n => (n : ℤ)
  ofDate d := d.number
  instant_isoformat d := by rw [Date.parseNumber_isoformat]; rfl
  ofDate_le _ _ := Int.ofNat_le

/-- A document with a publication date. -/
def notice : DocumentColumns where
  documentId := str "doc-1"
  title := str "Notice"
  sourceUrl := str "https://gov.example/notice"
  publishDate := some { year := 2024, month := 5, day := 1 }

/-- Its chunk. -/
def noticeChunk : ChunkColumns where
  chunkId := str "c-1"
  content := str "text"
  contentHash := str "hash"

/-- The filter asks for this document. -/
def noticeFilters : Filters where
  items := [(FilterField.documentId.key, .str (str "doc-1"))]
  distinct := by simp
  typed := by
    intro item hitem
    rw [List.mem_singleton] at hitem
    exact ⟨.documentId, by rw [hitem], str "doc-1", by rw [hitem]⟩

/-- The vector stores accept the document that the filter asks for, and the BM25 index does not. -/
theorem document_id_filter_empties_bm25 :
    ∃ document chunk filters, ¬ Coincide isoDatetimes document chunk filters := by
  refine ⟨notice, noticeChunk, noticeFilters, fun h => ?_⟩
  have hbm25 : bm25Accepts notice noticeChunk noticeFilters = false := by decide
  have hmemory : inMemoryAccepts notice noticeChunk noticeFilters = true := by decide
  rw [Coincide, hbm25, hmemory] at h
  exact Bool.false_ne_true h.1

end Odirag.Retrieval
