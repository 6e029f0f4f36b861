import Odirag.Attachments.Extraction

/-!
# The life of an attachment

Reference: `backend/app/services/attachment_download.py`, `backend/app/services/parsing.py`.

A row is downloaded and parsed any number of times, and the files on disk may become anything in
between: a download that dies after it replaced the file leaves the row behind. A download never lets
a row count as parsed, and where the row still does, it has the names and the digest that it had
(`download_sameFile`).
-/

namespace Odirag.Attachments

/-- The row and the files. -/
structure Held where
  row : ParsedRow
  files : Files

/-- What happens to an attachment. -/
inductive AttachmentStep
  | download (call : DownloadCall)
  | parse (call : ParseCall)
  /-- The files change. -/
  | disk (files : Files)

section

variable (D : DetectTools) (storage : FileStorage)

/-- The row and the files after a step. -/
def Held.next (s : Held) : AttachmentStep → Held
  | .download call =>
      let stored := download D storage ⟨s.row.toAttachment, s.files⟩ call
      ⟨{ s.row with toAttachment := stored.row }, stored.files⟩
  | .parse call => ⟨(parseAttachment D s.row s.files call).row, s.files⟩
  | .disk files => ⟨s.row, files⟩

/-- Downloads and calls of `parse_attachment` in any order, from a row that is not parsed yet. -/
def attachments : System Held AttachmentStep :=
  .ofNext (fun s step => some (s.next D storage step)) fun s => s.row.parseStatus ≠ .parsed

end

/-- What the name, the parser and the digest of a row are read from. -/
structure SameFile (row row' : Attachment) : Prop where
  parseStatus : row'.parseStatus = row.parseStatus
  attachmentName : row'.attachmentName = row.attachmentName
  sourceUrl : row'.sourceUrl = row.sourceUrl
  localPath : row'.localPath = row.localPath
  mimeType : row'.mimeType = row.mimeType
  fileExtension : row'.fileExtension = row.fileExtension
  fileHash : row'.fileHash = row.fileHash

section

variable {D : DetectTools} {storage : FileStorage} {s : Stored} {call : DownloadCall}

theorem recordFailure_sameFile {row : Attachment} (hrow : SameFile s.row row) (error : Failure)
    (now : ℕ) : (recordFailure D s row error now).row.parseStatus ≠ .parsed ∨
      SameFile s.row (recordFailure D s row error now).row := by
  obtain ⟨hstatus, hname, hurl, hpath, hmime, hextension, hhash⟩ := hrow
  have hsame : ∀ row' : Attachment, SameFile row row' → SameFile s.row row' := fun row' h =>
    ⟨h.parseStatus.trans hstatus, h.attachmentName.trans hname, h.sourceUrl.trans hurl,
      h.localPath.trans hpath, h.mimeType.trans hmime, h.fileExtension.trans hextension,
      h.fileHash.trans hhash⟩
  unfold recordFailure
  cases error.response with
  | none =>
      dsimp only
      split_ifs
      · exact .inl nofun
      · exact .inr (hsame _ ⟨rfl, rfl, rfl, rfl, rfl, rfl, rfl⟩)
  | some response =>
      dsimp only
      split_ifs
      · exact .inl nofun
      · exact .inr (hsame _ ⟨rfl, rfl, rfl, rfl, rfl, rfl, rfl⟩)

/-- A row that counts as parsed after a download describes the file that it described before. -/
theorem download_sameFile (D : DetectTools) (storage : FileStorage) (s : Stored)
    (call : DownloadCall) :
    (download D storage s call).row.parseStatus ≠ .parsed ∨
      SameFile s.row (download D storage s call).row := by
  unfold download
  split_ifs
  · exact .inr ⟨rfl, rfl, rfl, rfl, rfl, rfl, rfl⟩
  · cases call.fetched with
    | error error =>
        dsimp only
        exact recordFailure_sameFile (by constructor <;> rfl) _ _
    | ok response =>
        dsimp only
        split
        · exact recordFailure_sameFile (by constructor <;> rfl) _ _
        · split
          · exact .inl nofun
          · split
            · exact recordFailure_sameFile (by constructor <;> rfl) _ _
            · exact .inl nofun

end

end Odirag.Attachments
