import Odirag.Crawler.Urls

/-!
# The type of an attachment

Reference: `backend/app/attachments/detection.py`.

What a response's headers, bytes and names say about its type, and in which order they are
believed. Reading a header, an archive and a multi-byte text are parameters.
-/

namespace Odirag.Attachments

open Crawler (NetTools strip)

/-- What reading the bytes as a zip archive gives. -/
inductive ZipListing
  | names (names : List Text)
  | badZipFile
  | raises

/-- The parts of the standard library that detection uses. -/
structure DetectTools extends NetTools where
  /-- `Message.get_filename` of a `Content-Disposition` header. -/
  getFilename : Text → Option Text
  /-- `ZipFile(BytesIO(content)).namelist()`. -/
  zipNames : List UInt8 → ZipListing
  /-- Whether the bytes decode as UTF-8 or GB18030. -/
  isText : List UInt8 → Bool
  /-- `hashlib.sha256(content).hexdigest()`. -/
  sha256 : List UInt8 → Text

/-! ## Paths -/

/-- `Path(text).name`: the last component. -/
def pathName (text : Text) : Text :=
  (((text.splitOn '/').filter fun part => part ≠ [] ∧ part ≠ ['.']).getLast?).getD []

/-- The stem and the suffix of a name, which has one when a dot stands inside. -/
def splitSuffix (name : Text) : Text × Text :=
  match Url.rpartition '.' name with
  | (some stem, extension) =>
      if stem ≠ [] ∧ extension ≠ [] then (stem, '.' :: extension) else (name, [])
  | (none, _) => (name, [])

/-- `text.replace("\\", "/")`. -/
def forwardSlashes (text : Text) : Text := text.map fun c => if c.toNat = 92 then '/' else c

/-- `re.fullmatch(r"\.[a-z0-9]{1,15}", suffix)`. -/
def isPlainSuffix (suffix : Text) : Bool :=
  match suffix with
  | '.' :: extension =>
      extension.all (fun c => ('a' ≤ c && c ≤ 'z') || ('0' ≤ c && c ≤ '9')) &&
        1 ≤ extension.length && extension.length ≤ 15
  | _ => false

/-- `value or None` for a text. -/
def nonEmpty (text : Text) : Option Text := if text = [] then none else some text

/-- `a or b` for texts that may be missing. -/
def firstName (names : List (Option Text)) : Option Text :=
  names.findSome? fun name => name.bind nonEmpty

/-! ## Types -/

/-- `_MIME_TYPES`. -/
def mimeTypes : List (String × String) :=
  [("application/pdf", "pdf"), ("application/msword", "doc"), ("application/vnd.ms-excel", "xls"),
    ("application/vnd.openxmlformats-officedocument.wordprocessingml.document", "docx"),
    ("application/vnd.openxmlformats-officedocument.spreadsheetml.sheet", "xlsx"),
    ("image/jpeg", "jpg"), ("image/jpg", "jpg"), ("image/png", "png"), ("image/webp", "webp"),
    ("text/html", "html"), ("application/xhtml+xml", "html"), ("text/plain", "txt")]

/-- `_EXTENSION_TYPES`. -/
def extensionTypes : List (String × String) :=
  [(".doc", "doc"), (".docx", "docx"), (".htm", "html"), (".html", "html"), (".jpeg", "jpg"),
    (".jpg", "jpg"), (".pdf", "pdf"), (".png", "png"), (".shtml", "html"), (".txt", "txt"),
    (".webp", "webp"), (".xls", "xls"), (".xlsx", "xlsx"), (".et", "et"), (".jsp", "jsp"),
    (".mp4", "mp4"), (".ofd", "ofd"), (".wps", "wps")]

/-- `_CANONICAL_EXTENSIONS`. -/
def canonicalExtensions : List (String × String) :=
  [("doc", ".doc"), ("docx", ".docx"), ("html", ".html"), ("jpg", ".jpg"), ("pdf", ".pdf"),
    ("png", ".png"), ("txt", ".txt"), ("webp", ".webp"), ("xls", ".xls"), ("xlsx", ".xlsx")]

/-- `_GENERIC_MIME_TYPES`. -/
def genericMimeTypes : List String := ["", "application/octet-stream", "binary/octet-stream"]

/-- Look a key up in a table. -/
def tableGet (table : List (String × String)) (key : Text) : Option String :=
  table.lookup (String.ofList key)

/-- `DetectedAttachmentType`. -/
structure DetectedAttachmentType where
  fileType : String
  extension : Text
  filename : Option Text
  mimeType : Option Text
  source : String
deriving DecidableEq

section

variable (D : DetectTools)

/-- `_normalized_mime`. -/
def normalizedMime (value : Option Text) : Text :=
  D.lower (strip (Url.partition ';' (value.getD [])).1)

/-- `_content_disposition_filename`. -/
def contentDispositionFilename (value : Option Text) : Option Text :=
  (value.bind nonEmpty).bind fun header =>
    ((D.getFilename header).bind nonEmpty).bind fun filename =>
      nonEmpty ((pathName (forwardSlashes (Url.unquote D.toTools filename))).take 1024)

/-- `_url_filename`; `none` of the outer kind is a `ValueError`. -/
def urlFilename (value : Option Text) : Option (Option Text) :=
  match value.bind nonEmpty with
  | none => some none
  | some url =>
      (Url.urlsplit D.toTools url).map fun parsed =>
        nonEmpty ((pathName (Url.unquote D.toTools parsed.path)).take 1024)

/-- `_safe_suffix`. -/
def safeSuffix (value : Option Text) : Text :=
  let suffix := D.lower (splitSuffix (pathName (forwardSlashes (value.getD [])))).2
  if isPlainSuffix suffix then suffix else []

/-- `_type_from_filename`. -/
def typeFromFilename (value : Option Text) : Option String :=
  tableGet extensionTypes (safeSuffix D value)

/-- An ASCII text as bytes. -/
def bytes (text : Text) : List UInt8 := text.map fun c => UInt8.ofNat c.toNat

/-- The white space that `bytes.lstrip` removes. -/
def isByteSpace (b : UInt8) : Bool := (9 ≤ b && b ≤ 13) || b == 32

/-- ASCII letters in lower case. -/
def lowerByte (b : UInt8) : UInt8 := if 65 ≤ b && b ≤ 90 then b + 32 else b

/-- The part of the bytes that a text is recognised by. -/
def isHtml (content : List UInt8) : Bool :=
  let head := ((content.take 4096).dropWhile isByteSpace).map lowerByte
  (strs ["<!doctype html", "<html", "<?xml"]).any (fun t => (bytes t).isPrefixOf head) ||
    head.tails.any fun tail => (bytes (str "<body")).isPrefixOf tail

/-- `_type_from_magic`; `none` of the outer kind is an exception of the archive reader. -/
def typeFromMagic (content : Option (List UInt8)) : Option (Option String) :=
  let content := content.getD []
  let starts := fun (signature : List UInt8) => signature.isPrefixOf content
  let html :=
    if isHtml content then some "html"
    else if !(content.take 4096).contains 0 && D.isText (content.take 4096) then some "txt"
    else none
  if content = [] then some none
  else if starts (bytes (str "%PDF-")) then some (some "pdf")
  else if starts [0x89, 0x50, 0x4e, 0x47, 0x0d, 0x0a, 0x1a, 0x0a] then some (some "png")
  else if starts [0xff, 0xd8, 0xff] then some (some "jpg")
  else if 12 ≤ content.length && starts (bytes (str "RIFF")) &&
      (bytes (str "WEBP")).isPrefixOf (content.drop 8) then some (some "webp")
  else if starts [0xd0, 0xcf, 0x11, 0xe0, 0xa1, 0xb1, 0x1a, 0xe1] then some (some "legacy_office")
  else if starts [0x50, 0x4b, 0x03, 0x04] || starts [0x50, 0x4b, 0x05, 0x06] ||
      starts [0x50, 0x4b, 0x07, 0x08] then
    match D.zipNames content with
    | .raises => none
    | .badZipFile => some none
    | .names names =>
        if names.any fun name => (str "word/").isPrefixOf name then some (some "docx")
        else if names.any fun name => (str "xl/").isPrefixOf name then some (some "xlsx")
        else some html
  else some html

/-- A piece of evidence: where it is from, the type it names, and the name of the file. -/
structure Candidate where
  source : String
  fileType : Option String
  filename : Option Text

/-- The evidence in the order in which it is believed. -/
def candidates (mime : Text) (disposition : Option Text) (magic : Option String)
    (original url : Option Text) : List Candidate :=
  (if String.ofList mime ∉ genericMimeTypes then
    [⟨"content_type", tableGet mimeTypes mime, none⟩] else []) ++
  (if disposition ≠ none then
    [⟨"content_disposition", typeFromFilename D disposition, disposition⟩] else []) ++
  (if magic ≠ none then [⟨"magic", magic, disposition⟩] else []) ++
  (if original ≠ none then
    [⟨"original_filename", typeFromFilename D original, original⟩] else []) ++
  (if url ≠ none then [⟨"url_suffix", typeFromFilename D url, url⟩] else [])

/-- The type of an old office file, which only a name tells. -/
def legacyType (mime : Text) (names : List (Option Text)) : DetectedAttachmentType :=
  let named := names.findSome? fun filename =>
    match typeFromFilename D filename with
    | some "doc" => some ("doc", filename)
    | some "xls" => some ("xls", filename)
    | _ => none
  match named with
  | some (fileType, filename) =>
      ⟨fileType, ((canonicalExtensions.lookup fileType).getD "").toList, filename, nonEmpty mime,
        "magic_and_filename"⟩
  | none => ⟨"legacy_office", [], firstName names, nonEmpty mime, "magic"⟩

/-- The type that the first piece of evidence names. -/
def believedType (mime : Text) (names : List (Option Text)) (evidence : List Candidate) :
    DetectedAttachmentType :=
  let found := evidence.findSome? fun c => c.fileType.map fun fileType => (c, fileType)
  match found with
  | some (c, fileType) =>
      { fileType := fileType
        extension :=
          match canonicalExtensions.lookup fileType with
          | some extension => extension.toList
          | none => safeSuffix D c.filename
        filename := firstName (c.filename :: names)
        mimeType := nonEmpty mime
        source := c.source }
  | none => ⟨"unknown", [], firstName names, nonEmpty mime, "unknown"⟩

/-- `detect_attachment_type`; `none` is an exception. -/
def detectAttachmentType (contentType contentDisposition : Option Text)
    (content : Option (List UInt8)) (originalFilename sourceUrl : Option Text) :
    Option DetectedAttachmentType := do
  let mime := normalizedMime D contentType
  let disposition := contentDispositionFilename D contentDisposition
  let original := originalFilename.bind nonEmpty
  let magic ← typeFromMagic D content
  let url ← urlFilename D sourceUrl
  let names := [disposition, original, url]
  return if magic = some "legacy_office" then legacyType D mime names
    else believedType D mime names (candidates D mime disposition magic original url)

end

end Odirag.Attachments
