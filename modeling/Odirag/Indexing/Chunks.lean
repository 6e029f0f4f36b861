import Odirag.Documents.Document
import Mathlib.Data.Finset.Image
import Mathlib.Data.List.Sort

/-!
# The chunks of a document

Reference: `_drafts`, `_append_drafts`, `_chunk`, `_replace_required` and `_token_count` of
`backend/app/services/indexing.py`; `list_indexable_attachments` of
`backend/app/repositories/indexing.py`.

A chunk id is a UUID of version 5 over a text that joins the components of `PointId`; it is
modelled by these components, so two ids are equal exactly if everything they name is. What the
chunker makes of a text and what the digest of a text is are parameters.
-/

namespace Odirag.Indexing

open Documents

/-- `ChunkDraft`, without the index, which is not read. -/
structure ChunkDraft where
  content : String
  sectionPath : List String
  sectionTitle : Option String
  charCount : ℕ
deriving DecidableEq, Repr

/-- `Attachment.parse_status`. -/
inductive ParseStatus
  | pending | parsed | completed | failed | unsupported
deriving DecidableEq, Repr

/-- An `attachments` row, as far as indexing reads it. -/
structure Attachment where
  id : ℕ
  attachmentName : String
  parseStatus : ParseStatus
  parsedText : Option String
  pageCount : Option ℕ := none
deriving DecidableEq, Repr

/-- `_SourceDraft`. -/
structure SourceDraft where
  index : ℕ
  content : String
  sectionPath : List String
  sectionTitle : Option String
  charCount : ℕ
  attachmentId : Option ℕ
  pageNumber : Option ℕ
deriving DecidableEq, Repr

/-- The components of a chunk id, which is also the id of the vector point. -/
structure PointId where
  documentId : String
  version : ℕ
  attachmentId : Option ℕ
  pageNumber : Option ℕ
  index : ℕ
  sectionPath : List String
  sectionTitle : Option String
  providerName : String
  modelName : String
  embeddingVersion : String
  digest : String
deriving DecidableEq, Repr

/-- `Chunk.vector_status`. -/
inductive VectorStatus
  | pending | indexed | stale
deriving DecidableEq, Repr

/-- The columns of a `chunks` row that indexing writes. -/
structure Chunk where
  chunkId : PointId
  attachmentId : Option ℕ
  chunkIndex : ℕ
  sectionPath : Option String
  sectionTitle : Option String
  pageNumber : Option ℕ
  content : String
  contentHash : String
  charCount : ℕ
  tokenCount : ℕ
  embeddingModel : String
  embeddingVersion : String
  vectorStatus : VectorStatus := .pending
deriving DecidableEq, Repr

/-- The chunker, the digest and the embedding settings of the indexing service. -/
structure Indexer where
  chunk : String → List ChunkDraft
  sha256 : String → String
  dimensions : ℕ
  providerName : String
  modelName : String
  embeddingVersion : String := "v1"

/-! ## Drafts -/

/-- The attachments whose text is indexed, in the order of their ids. -/
def indexableAttachments (attachments : List Attachment) : List Attachment :=
  (attachments.insertionSort fun a b => a.id ≤ b.id).filter fun a =>
    (a.parseStatus = .completed ∨ a.parseStatus = .parsed) ∧ a.parsedText ≠ none ∧
      a.parsedText ≠ some ""

/-- `text.split("\f")`. -/
def splitPages (text : String) : List String :=
  (text.toList.splitOn (Char.ofNat 12)).map String.ofList

/-- One draft of `_append_drafts`. -/
def sourceDraft (attachment : Option Attachment) (pageNumber : Option ℕ) (index : ℕ)
    (draft : ChunkDraft) : SourceDraft where
  index
  content := draft.content
  sectionPath := match attachment with
    | some a => a.attachmentName :: draft.sectionPath
    | none => draft.sectionPath
  sectionTitle := match attachment with
    | some a => orElse draft.sectionTitle (some a.attachmentName)
    | none => draft.sectionTitle
  charCount := draft.charCount
  attachmentId := attachment.map (·.id)
  pageNumber

/-- `_append_drafts`: each draft is numbered by its place in the output. -/
def appendDrafts (attachment : Option Attachment) (pageNumber : Option ℕ)
    (output : List SourceDraft) (drafts : List ChunkDraft) : List SourceDraft :=
  drafts.foldl (fun output draft => output ++ [sourceDraft attachment pageNumber output.length draft])
    output

namespace Indexer

variable (ix : Indexer)

/-- The pages of one attachment, appended in order. -/
def appendAttachment (output : List SourceDraft) (attachment : Attachment) : List SourceDraft :=
  let pages := splitPages (attachment.parsedText.getD "")
  let hasPages := decide (1 < pages.length) || attachment.pageCount.isSome
  pages.zipIdx.foldl (fun output page =>
    appendDrafts (some attachment) (if hasPages then some (page.2 + 1) else none) output
      (ix.chunk page.1)) output

/-- `_drafts`. -/
def drafts (document : Document) (attachments : List Attachment) : List SourceDraft :=
  (indexableAttachments attachments).foldl ix.appendAttachment
    (appendDrafts none none [] (ix.chunk document.content))

/-! ## Chunks -/

/-- `_token_count`: runs of ASCII letters and digits, and single Chinese characters. -/
def tokenCount (text : String) : ℕ :=
  (text.toList.foldl (fun (count : ℕ × Bool) c =>
    if c.isAlphanum then (if count.2 then count.1 else count.1 + 1, true)
    else if 0x4e00 ≤ c.toNat && c.toNat ≤ 0x9fff then (count.1 + 1, false)
    else (count.1, false)) (0, false)).1

/-- The id of `_chunk`. -/
def pointId (document : Document) (draft : SourceDraft) : PointId where
  documentId := document.documentId
  version := document.version
  attachmentId := draft.attachmentId
  pageNumber := draft.pageNumber
  index := draft.index
  sectionPath := draft.sectionPath
  sectionTitle := draft.sectionTitle
  providerName := ix.providerName
  modelName := ix.modelName
  embeddingVersion := ix.embeddingVersion
  digest := ix.sha256 draft.content

/-- `_chunk`. -/
def makeChunk (document : Document) (draft : SourceDraft) : Chunk where
  chunkId := ix.pointId document draft
  attachmentId := draft.attachmentId
  chunkIndex := draft.index
  sectionPath :=
    let path := " > ".intercalate draft.sectionPath
    if path = "" then none else some path
  sectionTitle := draft.sectionTitle
  pageNumber := draft.pageNumber
  content := draft.content
  contentHash := ix.sha256 draft.content
  charCount := draft.charCount
  tokenCount := tokenCount draft.content
  embeddingModel := ix.modelName
  embeddingVersion := ix.embeddingVersion

/-- The chunks that a document with these attachments is indexed as. -/
def chunks (document : Document) (attachments : List Attachment) : List Chunk :=
  (ix.drafts document attachments).map (ix.makeChunk document)

/-- The chunk was produced from the current version and content of the document, with the
attachments of some time. -/
def Produces (document : Document) (id : PointId) : Prop :=
  ∃ attachments, id ∈ (ix.chunks document attachments).map (·.chunkId)

/-- `_replace_required`. -/
def replaceRequired (existing desired : List Chunk) : Bool :=
  if existing.length ≠ desired.length then true
  else (existing.zip desired).any fun pair =>
    pair.1.chunkId != pair.2.chunkId || pair.1.embeddingModel != pair.2.embeddingModel ||
      pair.1.embeddingVersion != pair.2.embeddingVersion

/-- A chunk carries the version of its document. -/
@[simp] theorem makeChunk_version (document : Document) (draft : SourceDraft) :
    (ix.makeChunk document draft).chunkId.version = document.version := rfl

theorem version_of_mem_chunks {ix : Indexer} {document : Document} {attachments : List Attachment}
    {chunk : Chunk} (h : chunk ∈ ix.chunks document attachments) :
    chunk.chunkId.version = document.version := by
  obtain ⟨draft, -, rfl⟩ := List.mem_map.mp h
  rfl

/-- What a document produces depends on its id, its version and its content. -/
theorem chunks_congr {document document' : Document}
    (hid : document'.documentId = document.documentId)
    (hversion : document'.version = document.version)
    (hcontent : document'.content = document.content) (attachments : List Attachment) :
    ix.chunks document' attachments = ix.chunks document attachments := by
  have hdrafts : ix.drafts document' attachments = ix.drafts document attachments := by
    unfold drafts
    rw [hcontent]
  unfold chunks
  rw [hdrafts]
  refine List.map_congr_left fun draft _ => ?_
  simp only [makeChunk, pointId, hid, hversion]

theorem Produces.congr {document document' : Document} {id : PointId}
    (h : ix.Produces document id) (hid : document'.documentId = document.documentId)
    (hversion : document'.version = document.version)
    (hcontent : document'.content = document.content) : ix.Produces document' id := by
  obtain ⟨attachments, hmem⟩ := h
  refine ⟨attachments, ?_⟩
  rwa [ix.chunks_congr hid hversion hcontent]

/-- What a document produces carries its version. -/
theorem Produces.version {document : Document} {id : PointId} (h : ix.Produces document id) :
    id.version = document.version := by
  obtain ⟨attachments, hmem⟩ := h
  obtain ⟨chunk, hchunk, rfl⟩ := List.mem_map.mp hmem
  exact version_of_mem_chunks hchunk

/-- Rows that need no replacement have the desired ids, in order. -/
theorem ids_of_not_replaceRequired {existing desired : List Chunk}
    (h : replaceRequired existing desired = false) :
    existing.map (·.chunkId) = desired.map (·.chunkId) := by
  induction existing generalizing desired with
  | nil =>
      cases desired with
      | nil => rfl
      | cons d desired => simp [replaceRequired] at h
  | cons e existing ih =>
      cases desired with
      | nil => simp [replaceRequired] at h
      | cons d desired =>
          unfold replaceRequired at h ih
          split at h
          · cases h
          · next hlength =>
              simp only [List.zip_cons_cons, List.any_cons, Bool.or_eq_false_iff, bne_eq_false_iff_eq]
                at h
              have hlength' : ¬ existing.length ≠ desired.length := by simpa using hlength
              have htail := @ih desired (by simpa [hlength'] using h.2)
              rw [List.map_cons, List.map_cons, htail, h.1.1.1]

end Indexer

/-! ## Numbering -/

/-- The drafts are numbered by their places. -/
def Numbered (drafts : List SourceDraft) : Prop :=
  drafts.map (·.index) = List.range drafts.length

theorem Numbered.append {output : List SourceDraft} (h : Numbered output)
    (attachment : Option Attachment) (pageNumber : Option ℕ) (drafts : List ChunkDraft) :
    Numbered (appendDrafts attachment pageNumber output drafts) := by
  unfold appendDrafts
  induction drafts generalizing output with
  | nil => exact h
  | cons draft drafts ih =>
      refine ih ?_
      unfold Numbered at h ⊢
      rw [List.map_append, h, List.length_append, List.length_singleton, List.range_succ]
      rfl

/-- The chunks of a document have pairwise different ids. -/
theorem Indexer.chunkIds_nodup (ix : Indexer) (document : Document)
    (attachments : List Attachment) :
    ((ix.chunks document attachments).map (·.chunkId)).Nodup := by
  have hnumbered : Numbered (ix.drafts document attachments) := by
    have hattachment : ∀ output a, Numbered output → Numbered (ix.appendAttachment output a) := by
      intro output a h
      unfold Indexer.appendAttachment
      dsimp only
      generalize (splitPages (a.parsedText.getD "")).zipIdx = pages
      induction pages generalizing output with
      | nil => exact h
      | cons page pages ih => exact ih _ (h.append _ _ _)
    have hall : ∀ (list : List Attachment) (output : List SourceDraft), Numbered output →
        Numbered (list.foldl ix.appendAttachment output) := by
      intro list
      induction list with
      | nil => exact fun output h => h
      | cons a list ih => exact fun output h => ih _ (hattachment output a h)
    refine hall _ _ (Numbered.append ?_ _ _ _)
    rfl
  -- The index is a component of the id.
  refine List.Nodup.of_map (·.index) ?_
  have hindex : ((ix.chunks document attachments).map (·.chunkId)).map (·.index) =
      (ix.drafts document attachments).map (·.index) := by
    simp [Indexer.chunks, Indexer.makeChunk, Indexer.pointId]
  rw [hindex, hnumbered]
  exact List.nodup_range

end Odirag.Indexing
