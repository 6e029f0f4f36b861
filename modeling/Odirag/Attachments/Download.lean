import Odirag.Attachments.Detection
import Odirag.Crawler.Fetcher
import Odirag.Foundations.Run

/-!
# Downloading an attachment

Reference: `AttachmentDownloadService.download` of `backend/app/services/attachment_download.py`,
`FileStorage.save` of `backend/app/crawler/storage.py`.

The row of one attachment and the stored files. The remote side and the disk are inputs of a call:
what the fetch gives, and whether saving fails. Commits succeed. A row is in order when a
completed download with a local path describes the file that is stored there (`Agrees`). A
response of an unsupported type is recorded without being stored, so it has to be the stored file
over again; the theorem at the end says that this is the only way to get out of order.
-/

namespace Odirag.Attachments

open Crawler (FetchResponse strip)

/-! ## Storage -/

/-- The stored files. -/
abbrev Files := Text → Option (List UInt8)

/-- `FileStorage`; the root is an absolute path without links in it. -/
structure FileStorage where
  root : Text
  maxBytes : ℕ
  allowedExtensions : List Text

/-- Replace each run of characters that are not plain by an underscore; `inRun` says whether such a
run is being read. -/
def replaceRuns (inRun : Bool) : Text → Text
  | [] => []
  | c :: rest =>
      if Url.isAsciiAlpha c || Url.isAsciiDigit c || c == '_' || c == '-' then
        c :: replaceRuns false rest
      else if inRun then replaceRuns true rest
      else '_' :: replaceRuns true rest

section

variable (D : DetectTools)

/-- `safe_filename`. -/
def safeFilename (name fallback : Text) (identity : Option Text) : Text :=
  let decoded := strip (Url.unquote D.toTools name)
  let basename := pathName (forwardSlashes decoded)
  let rawSuffix := D.lower (splitSuffix basename).2
  let suffix := if isPlainSuffix rawSuffix then rawSuffix else []
  let rawStem := if suffix = [] then basename else (splitSuffix basename).1
  let stem := (Text.stripBy (fun c => c == '_' || c == '-') (replaceRuns false rawStem)).take 100
  let digestInput :=
    match identity with
    | none => decoded
    | some identity => identity ++ Char.ofNat 0 :: decoded
  let digest := (D.sha256 (digestInput.flatMap String.utf8EncodeChar)).take 10
  (if stem = [] then fallback else stem) ++ '-' :: (digest ++ suffix)

/-- `_expected_checksum` of a given digest; `none` is a `ValueError`. -/
def expectedChecksum (expected : Text) : Option Text :=
  let normalized := D.lower (strip expected)
  if normalized.length = 64 ∧
      normalized.all (fun c => ('a' ≤ c && c ≤ 'f') || ('0' ≤ c && c ≤ '9')) then some normalized
  else none

/-- `FileStorage.save`: where the content goes, or the name of the exception. A safe name has no
separator, so the target is below the root. `fails` is an error of the disk before the file is
replaced. -/
def save (storage : FileStorage) (content : List UInt8) (checksum namespaceName filename
    identity : Text) (fails : Option String) : Except String Text :=
  if storage.maxBytes < content.length then .error "ValueError"
  else
    match expectedChecksum D checksum with
    | none => .error "ValueError"
    | some expected =>
        let name := safeFilename D filename (str "attachment") (some identity)
        if D.lower (splitSuffix name).2 ∉ storage.allowedExtensions then .error "ValueError"
        else
          let directory := storage.root ++ '/' :: safeFilename D namespaceName (str "source") none
          match fails with
          | some error => .error error
          | none =>
              if D.sha256 content ≠ expected then .error "ValueError"
              else .ok (directory ++ '/' :: name)

end

/-! ## Rows -/

/-- `download_status`. -/
inductive DownloadStatus
  | pending
  | completed
  | failed
deriving DecidableEq, Repr

/-- `parse_status`. -/
inductive ParseStatus
  | pending
  | parsed
  | unsupported
  | failed
deriving DecidableEq, Repr

/-- `Attachment`, as far as downloading reads or writes it. -/
structure Attachment where
  id : ℕ
  documentId : ℕ
  attachmentName : Text
  sourceUrl : Text
  localPath : Option Text := none
  mimeType : Option Text := none
  fileExtension : Option Text := none
  fileType : String := "unknown"
  fileSize : Option ℕ := none
  fileHash : Option Text := none
  downloadHttpStatus : Option ℕ := none
  downloadFinalUrl : Option Text := none
  downloadErrorCode : Option String := none
  downloadRetryable : Bool := false
  downloadStatus : DownloadStatus := .pending
  parseStatus : ParseStatus := .pending
  typeDetectionSource : Option String := none
  errorCode : Option String := none
  retryable : Bool := false
  errorMessage : Option String := none
  processedAt : Option ℕ := none
deriving DecidableEq

/-- An exception: the name of its class, and the response that some carry. -/
structure Failure where
  name : String
  response : Option (ℕ × Text) := none
deriving DecidableEq

/-- `_SUPPORTED_TYPES` and `_OCR_TYPES`. -/
def savedTypes : List String := ["pdf", "docx", "xlsx", "txt", "html", "jpg", "png", "webp"]

/-- `_download_error`. -/
def downloadError (error : Failure) : String × Bool :=
  if error.name ∈ ["TimeoutError", "ReadTimeout", "ConnectTimeout", "PoolTimeout", "WriteTimeout"]
  then ("DOWNLOAD_TIMEOUT", true)
  else if error.name = "UnsafeUrlError" then ("DOWNLOAD_SSRF_BLOCKED", false)
  else if error.name = "ResponseTooLargeError" then ("DOWNLOAD_TOO_LARGE", false)
  else if error.name = "RedirectLimitError" then ("DOWNLOAD_REDIRECT_LIMIT", false)
  else if error.name ∈ ["ConnectError", "NetworkError", "RemoteProtocolError", "ReadError"] then
    ("DOWNLOAD_TRANSPORT_ERROR", true)
  else if error.name = "HTTPStatusError" then
    let status := (error.response.map Prod.fst).getD 0
    if status = 429 then ("DOWNLOAD_HTTP_429", true)
    else if 500 ≤ status then ("DOWNLOAD_HTTP_5XX", true)
    else ("DOWNLOAD_HTTP_" ++ Nat.repr status, false)
  else ("DOWNLOAD_ERROR", false)

/-- `_filename_for`. -/
def filenameFor (detected : DetectedAttachmentType) (fallback : Text) : Text :=
  let filename := (firstName [detected.filename, some fallback]).getD (str "attachment")
  let stem := (splitSuffix (pathName filename)).1
  if detected.extension = [] then filename
  else (if stem = [] then str "attachment" else stem) ++ detected.extension

/-- `_record_download_success`. -/
def recordDownloadSuccess (row : Attachment) (response : FetchResponse) (contentHash : Text)
    (detected : DetectedAttachmentType) : Attachment :=
  { row with
    downloadHttpStatus := some response.statusCode
    downloadFinalUrl := some response.url
    mimeType := some response.contentType
    fileSize := some response.content.length
    fileHash := some contentHash
    fileType := detected.fileType
    fileExtension := nonEmpty detected.extension
    typeDetectionSource := some detected.source
    downloadStatus := .completed
    downloadErrorCode := none
    downloadRetryable := false }

/-- The row and the files. -/
structure Stored where
  row : Attachment
  files : Files

/-- One call of `download`: what the fetch gives and what saving meets. -/
structure DownloadCall where
  force : Bool
  now : ℕ
  fetched : Except Failure FetchResponse
  saveFails : Option String := none

section

variable (D : DetectTools) (storage : FileStorage)

/-- The local file is the one that the row describes. -/
def hasValidLocalBytes (s : Stored) : Bool :=
  match s.row.localPath.bind nonEmpty, s.row.fileHash.bind nonEmpty with
  | some path, some hash => (s.files path).any fun content => D.sha256 content = hash
  | _, _ => false

/-- Nothing needs to be fetched. -/
def isCached (s : Stored) (call : DownloadCall) : Bool :=
  !call.force && hasValidLocalBytes D s && s.row.downloadStatus = .completed &&
    s.row.downloadErrorCode = none

/-- The `except` branch. -/
def recordFailure (s : Stored) (row : Attachment) (error : Failure) (now : ℕ) : Stored :=
  let (code, retryable) := downloadError error
  let row :=
    match error.response with
    | none => row
    | some (status, url) =>
        { row with downloadHttpStatus := some status, downloadFinalUrl := nonEmpty url }
  let row :=
    { row with
      downloadStatus := .failed
      downloadErrorCode := some code
      downloadRetryable := retryable
      processedAt := some now }
  if !hasValidLocalBytes D s || row.parseStatus ≠ .parsed then
    { s with
      row :=
        { row with
          parseStatus := .failed
          errorCode := some code
          retryable := retryable
          errorMessage := some ("attachment download failed: " ++ code) } }
  else { s with row := row }

/-- A type without a parser: the response is recorded and not stored. -/
def recordUnsupported (s : Stored) (row : Attachment) (response : FetchResponse)
    (detected : DetectedAttachmentType) (now : ℕ) : Stored :=
  let code :=
    if detected.fileType ∈ ["doc", "xls", "legacy_office"] then "UNSUPPORTED_LEGACY_FORMAT"
    else "UNSUPPORTED_FILE_TYPE"
  { s with
    row :=
      { recordDownloadSuccess row response (D.sha256 response.content) detected with
        parseStatus := .unsupported
        errorCode := some code
        retryable := false
        errorMessage := some ("no reliable parser is registered for " ++ detected.fileType)
        processedAt := some now } }

/-- The file is stored, over the one that was there. -/
def recordSaved (s : Stored) (row : Attachment) (response : FetchResponse)
    (detected : DetectedAttachmentType) (path : Text) : Stored where
  row :=
    { recordDownloadSuccess row response (D.sha256 response.content) detected with
      localPath := some path
      parseStatus := .pending
      errorCode := none
      retryable := false
      errorMessage := none
      processedAt := none }
  files := Function.update s.files path (some response.content)

/-- Type detection on a response. -/
def detected (row : Attachment) (response : FetchResponse) : Option DetectedAttachmentType :=
  detectAttachmentType D (some response.contentType) response.contentDisposition
    (some response.content) (some row.attachmentName) (some response.url)

/-- `AttachmentDownloadService.download`. -/
def download (s : Stored) (call : DownloadCall) : Stored :=
  if isCached D s call then s
  else
    let row := { s.row with downloadHttpStatus := none, downloadFinalUrl := none }
    match call.fetched with
    | .error error => recordFailure D s row error call.now
    | .ok response =>
        let row :=
          { row with
            downloadHttpStatus := some response.statusCode
            downloadFinalUrl := some response.url }
        match detected D row response with
        | none => recordFailure D s row ⟨"ValueError", none⟩ call.now
        | some type =>
            if type.fileType ∉ savedTypes then recordUnsupported D s row response type call.now
            else
              match save D storage response.content (D.sha256 response.content)
                (Nat.repr row.documentId).toList (filenameFor type row.attachmentName)
                (str "attachment-" ++ (Nat.repr row.id).toList) call.saveFails with
              | .error name => recordFailure D s row ⟨name, none⟩ call.now
              | .ok path => recordSaved D s row response type path

/-! ## Rows and files -/

/-- A completed download with a local path describes the file that is stored there. -/
def Agrees (s : Stored) : Prop :=
  s.row.downloadStatus = .completed → ∀ path, s.row.localPath = some path →
    ∃ content, s.files path = some content ∧ s.row.fileHash = some (D.sha256 content) ∧
      s.row.fileSize = some content.length

/-- A response that is recorded without being stored is the stored file over again. -/
def KeepsFile (s : Stored) (call : DownloadCall) : Prop :=
  isCached D s call = false → ∀ response, call.fetched = .ok response →
    ∀ type, detected D s.row response = some type → type.fileType ∉ savedTypes →
      ∀ path, s.row.localPath = some path →
        ∃ content, s.files path = some content ∧
          D.sha256 content = D.sha256 response.content ∧ content.length = response.content.length

/-- Sequences of calls, from any row that is in order. -/
def downloads : System Stored DownloadCall :=
  .ofNext (fun s call => some (download D storage s call)) (Agrees D)

end

section

variable {D : DetectTools} {storage : FileStorage} {s : Stored} {call : DownloadCall}

@[simp] theorem recordFailure_downloadStatus (row : Attachment) (error : Failure) (now : ℕ) :
    (recordFailure D s row error now).row.downloadStatus = .failed := by
  unfold recordFailure
  cases error.response <;> (simp only; split <;> rfl)

/-- A failed download is no completed one. -/
theorem agrees_recordFailure (row : Attachment) (error : Failure) (now : ℕ) :
    Agrees D (recordFailure D s row error now) := by
  intro hcompleted
  rw [recordFailure_downloadStatus] at hcompleted
  cases hcompleted

/-- A stored file is the one that its row describes. -/
theorem agrees_recordSaved (row : Attachment) (response : FetchResponse)
    (type : DetectedAttachmentType) (path : Text) :
    Agrees D (recordSaved D s row response type path) := by
  intro _ path' hpath
  obtain rfl : path = path' := by simpa [recordSaved, recordDownloadSuccess] using hpath
  exact ⟨response.content, by simp [recordSaved], rfl, rfl⟩

/-- A recorded response has to be the file that the row keeps. -/
theorem agrees_recordUnsupported {row : Attachment} {response : FetchResponse}
    {type : DetectedAttachmentType} {now : ℕ} :
    Agrees D (recordUnsupported D s row response type now) ↔
      ∀ path, row.localPath = some path →
        ∃ content, s.files path = some content ∧
          D.sha256 content = D.sha256 response.content ∧
            content.length = response.content.length := by
  constructor
  · intro hagrees path hpath
    obtain ⟨content, hfile, hhash, hsize⟩ := hagrees rfl path hpath
    exact ⟨content, hfile, (Option.some.inj hhash).symm, (Option.some.inj hsize).symm⟩
  · intro hsame _ path hpath
    obtain ⟨content, hfile, hhash, hsize⟩ := hsame path hpath
    exact ⟨content, hfile, congrArg some hhash.symm, congrArg some hsize.symm⟩

/-- A call keeps a row in order exactly if it keeps the file that the row describes. -/
theorem agrees_download_iff (hs : Agrees D s) :
    Agrees D (download D storage s call) ↔ KeepsFile D s call := by
  unfold download KeepsFile
  cases hcached : isCached D s call with
  | true => simpa using hs
  | false =>
      cases hfetched : call.fetched with
      | error error => simpa using agrees_recordFailure _ _ _
      | ok response =>
          have hdetected : ∀ (status : Option ℕ) (url : Option Text),
              detected D { s.row with downloadHttpStatus := status, downloadFinalUrl := url }
                response = detected D s.row response := fun _ _ => rfl
          simp only [Bool.false_eq_true, if_false, hdetected, forall_const, Except.ok.injEq,
            forall_eq']
          cases htype : detected D s.row response with
          | none => simpa using agrees_recordFailure _ _ _
          | some type =>
              simp only [Option.some.injEq, forall_eq']
              by_cases hsaved : type.fileType ∈ savedTypes
              · simp only [hsaved, not_true_eq_false, if_false, false_implies, iff_true]
                split
                · exact agrees_recordFailure _ _ _
                · exact agrees_recordSaved _ _ _ _
              · simp only [hsaved, not_false_eq_true, if_true, forall_const]
                exact agrees_recordUnsupported

/-- In every sequence of downloads the row describes the stored file at every moment exactly if each
response of a type that is not stored comes while no file is kept, or is the kept file over again. -/
theorem file_matches_row_iff {tr : List (Stored × DownloadCall)} {s : Stored}
    (h : (downloads D storage).Run System.always tr s) :
    (∀ tr' s', System.Position s tr tr' s' → Agrees D s') ↔
      ∀ s₁ call, (s₁, call) ∈ tr → KeepsFile D s₁ call := by
  refine h.everywhere_iff (I := fun _ s => Agrees D s) (fun _ hs => hs) ?_
  intro tr s call s' _ hs hstep
  obtain rfl : download D storage s call = s' := by
    simpa [downloads, System.ofNext] using hstep
  exact agrees_download_iff hs

end

/-! ## A file that becomes another type -/

/-- The standard library on plain texts, with the digests that are needed. -/
def sampleTools : DetectTools where
  lower := List.map Url.lowerAscii
  nfkc := id
  bracketedNetloc _ := true
  decodeUtf8 bytes := bytes.map fun b => Char.ofNat b.toNat
  ipAddress _ := none
  idna := some
  parseInt _ := none
  getFilename _ := none
  zipNames _ := .badZipFile
  isText _ := true
  sha256 content :=
    if content = bytes (str "%PDF-1") then
      str "21af8e71c8703196df7fe1ff901869a88fe64c07bbaa83d838efb45a52b4f303"
    else if content = bytes (str "old") then
      str "cba06b5736faf67e54b07b561eae94395e774c517a7d910a54369e1263ccfbd4"
    else if content = bytes (str "9") then
      str "19581e27de7ced00ff1ce50b2047e7a567c76b1cbaebabe5ef03f7c3017bb5b7"
    else str "2bc2c7829f8b7b06cf43e95a699f1449b8f87a28a0b28b3f6381566660606960"

def sampleStorage : FileStorage where
  root := str "/data"
  maxBytes := 1024
  allowedExtensions := strs [".pdf", ".docx"]

/-- A row as a crawl leaves it. -/
def sampleStored : Stored where
  row := { id := 7, documentId := 9, attachmentName := str "a.pdf",
           sourceUrl := str "https://a.cn/f" }
  files _ := none

/-- What the remote side serves under these headers. -/
def sampleCall (contentType content : Text) : DownloadCall where
  force := true
  now := 1
  fetched := .ok
    { url := str "https://a.cn/f"
      statusCode := 200
      content := bytes content
      contentType := contentType
      encoding := str "utf-8"
      contentDisposition := none }

/-- A PDF file is downloaded. -/
def savedStored : Stored :=
  download sampleTools sampleStorage sampleStored
    (sampleCall (str "application/pdf") (str "%PDF-1"))

/-- The remote file has become an old Word file, and the download is repeated. -/
def replacedStored : Stored :=
  download sampleTools sampleStorage savedStored
    (sampleCall (str "application/msword") (str "old"))

theorem agrees_sampleStored : Agrees sampleTools sampleStored := fun h => by cases h

theorem savedStored_path :
    (downloads sampleTools sampleStorage).Path System.always sampleStored
      [(sampleStored, sampleCall (str "application/pdf") (str "%PDF-1"))] savedStored :=
  .cons .nil trivial rfl

theorem file_matches_row_iff_saved :
    Agrees sampleTools sampleStored ∧ Agrees sampleTools savedStored := by
  have hall := (file_matches_row_iff
      ⟨sampleStored, agrees_sampleStored, savedStored_path⟩).mpr fun s₁ call hmem => by
    obtain ⟨rfl, rfl⟩ : s₁ = sampleStored ∧ call = _ := by simpa using hmem
    intro _ _ _ _ _ _ path hpath
    cases hpath
  exact ⟨hall _ _ (.earlier .last), hall _ _ .last⟩

/-- The row of a repeated download has the digest of a file that is not stored. -/
theorem unsupported_replaces_hash :
    ∃ tr s, (downloads sampleTools sampleStorage).Run System.always tr s ∧
      ¬ Agrees sampleTools s := by
  refine ⟨_, replacedStored,
    ⟨sampleStored, agrees_sampleStored,
      System.Path.cons savedStored_path trivial rfl⟩, fun h => ?_⟩
  have hpath : replacedStored.row.localPath =
      some (str "/data/9-19581e27de/a-2bc2c7829f.pdf") := by decide
  have hfile : replacedStored.files (str "/data/9-19581e27de/a-2bc2c7829f.pdf") =
      some (bytes (str "%PDF-1")) := by decide
  obtain ⟨content, hcontent, hhash, -⟩ := h (by decide) _ hpath
  obtain rfl : bytes (str "%PDF-1") = content := by
    rw [hfile] at hcontent
    exact Option.some.inj hcontent
  exact absurd hhash (by decide)

end Odirag.Attachments
