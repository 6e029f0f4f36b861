import Odirag.Crawler.Page

/-!
# Reading a JSON API

Reference: `backend/app/crawler/generic.py`.

The functions that find an API in a page without links and read its answers: the URLs that a
script mentions, the items of an answer, the candidate and the document of an item, and the URL of
the next answer.
-/

namespace Odirag.Crawler

open Json (Fields)
open Regex (char oneOf seqs plus star opt)

/-! ## Hints -/

/-- A character without regard to case, which takes in the dotted and the dotless i and the long
s. -/
def ignoringCase (c : Char) : Regex :=
  char fun d => Url.lowerAscii d == c || (c == 'i' && (d.toNat == 0x130 || d.toNat == 0x131)) ||
    (c == 's' && d.toNat == 0x17f)

/-- A word without regard to case. -/
def wordIgnoringCase (word : Text) : Regex := seqs (word.map ignoringCase)

/-- `["']`. -/
def quoteMark : Regex := char fun c => c.toNat == 34 || c.toNat == 39

/-- `[^"']`. -/
def notQuoteMark : Regex := char fun c => !(c.toNat == 34 || c.toNat == 39)

/-- `_API_HINT_RE`. -/
def apiHint : Regex :=
  seqs [quoteMark,
    .group "url" (.alt
      (seqs [wordIgnoringCase (str "http"), opt (ignoringCase 's'), wordIgnoringCase (str "://"),
        plus notQuoteMark])
      (seqs [char (· == '/'), star notQuoteMark,
        oneOf [wordIgnoringCase (str "api"), wordIgnoringCase (str "ajax"),
          wordIgnoringCase (str "json")],
        star notQuoteMark])),
    quoteMark]

section

variable (T : CrawlTools)

/-- `_discover_api_hints`. -/
def discoverApiHints (html baseUrl : Text) : List Text :=
  (apiHint.finditer html).foldl (fun hints found =>
    match (found.group "url").bind fun value => safeNormalize T value baseUrl with
    | some candidate => if candidate ∉ hints then hints ++ [candidate] else hints
    | none => hints) []

/-! ## Items -/

mutual

/-- `_find_item_list`. -/
def findItemList : Json → Option (List Json)
  | .arr items =>
      if items.any fun item => match item with | .obj _ => true | _ => false then some items
      else findInItems items
  | .obj fields => findInFields fields
  | _ => none

/-- The first list that one of the values has. -/
def findInItems : List Json → Option (List Json)
  | [] => none
  | item :: items =>
      match findItemList item with
      | some (found :: rest) => some (found :: rest)
      | _ => findInItems items

/-- The first list that the value of one of the fields has. -/
def findInFields : List (Text × Json) → Option (List Json)
  | [] => none
  | (_, value) :: fields =>
      match findItemList value with
      | some (found :: rest) => some (found :: rest)
      | _ => findInFields fields

end

/-- The value at a path. -/
def atPath : List Text → Json → Json
  | [], value => value
  | part :: parts, .obj fields => atPath parts (Json.get fields part)
  | _ :: _, _ => .null

/-- `_extract_api_items`. -/
def extractApiItems (payload : Json) (config : Fields) : List Fields :=
  let current :=
    match Json.get config (str "items_path") with
    | .str path =>
        if strip path = [] then payload
        else atPath ((Text.stripBy (· == '.') path).splitOn '.') payload
    | _ => payload
  let items :=
    match current with
    | .arr items => items
    | _ => (findItemList payload).getD []
  items.filterMap fun item =>
    match item with
    | .obj fields => some fields
    | _ => none

/-- `_first_string`. -/
def firstString (value : Fields) (keys : List Text) : Option Text :=
  keys.findSome? fun key => if key = [] then none else notBlank (Json.get value key)

/-- `str(config.get(key, default))`. -/
def configText (config : Fields) (key default : Text) : Text :=
  ((lookup config key).map (Json.toText T.render)).getD default

/-- The URL that a template makes of an item. -/
def templateUrl (item config : Fields) : Except Exn (Option Text) :=
  match Json.get config (str "detail_url_template") with
  | .str template =>
      match firstString item [configText T config (str "id_field") (str "id"), str "id", str "ID"] with
      | none => .ok none
      | some identifier =>
          match T.format template (setField item (str "id") (.str identifier)) with
          | .ok url => .ok (some url)
          | .error none => .ok none
          | .error (some exc) => .error exc
  | _ => .ok none

/-- The URL of an item as it stands there, or from the template. -/
def itemUrl (item config : Fields) : Except Exn (Option Text) :=
  match firstString item (configText T config (str "url_field") []
    :: strs ["url", "URL", "link", "href", "article_url", "detail_url"]) with
  | some value => .ok (some value)
  | none => templateUrl T item config

/-- `_candidate_from_api_item`. -/
def candidateFromApiItem (item config : Fields) (baseUrl : Text) :
    Except Exn (Option CandidateLink) := do
  match (← itemUrl T item config).filter (· ≠ []) with
  | none => return none
  | some value =>
      match safeNormalize T value baseUrl with
      | none => return none
      | some url =>
          let title := (firstString item (configText T config (str "title_field") []
            :: strs ["title", "TITLE", "name", "subject"])).getD []
          let (score, reasons) ← scoreCandidate T url title
          return some {
            url := url
            anchorText := title
            score := max score 2
            reasons := str "api_item" :: reasons
            apiItem := some item }

/-- The URL that an answer names as the next one. -/
def namedNext (payload : Json) : Option Text :=
  (strs ["next", "next_url", "nextPage", "next_page"]).findSome? fun key =>
    match Json.get (Json.mapping payload) key with
    | .str value => if strip value = [] then none else some value
    | _ => none

/-- `_next_api_url`. -/
def nextApiUrl (payload : Json) (currentUrl : Text) (config : Fields) (pageIndex : ℕ) :
    Except Exn (Option Text) :=
  match namedNext payload with
  | some value => .ok (safeNormalize T value currentUrl)
  | none =>
      let fields := Json.mapping payload
      let hasMore := (lookup fields (str "has_more")).getD (Json.get fields (str "hasNext"))
      let pageParam := strip (configText T config (str "page_param") [])
      if Json.isBool false hasMore ∨ pageParam = [] then .ok none
      else do
        let current ← currentPageNumber T currentUrl [(str "page_param", .str pageParam)]
        -- A current page of 0 counts as none.
        let page := (current.filter (· ≠ 0)).getD (pageIndex + 1)
        some <$> replaceQuery T currentUrl pageParam (Nat.repr (page + 1)).toList

/-! ## Documents -/

/-- `_api_item_has_content`. -/
def apiItemHasContent (item : Fields) : Bool :=
  (firstString item (strs ["content", "正文", "body", "text"])).isSome

/-- `_attachments_from_api_item`. -/
def attachmentsFromApiItem (item : Fields) (baseUrl : Text) :
    Except Exn (List CrawledAttachment) :=
  match Json.get item (str "attachments") with
  | .arr raw =>
      collect (fun attachment =>
        match attachment with
        | .obj fields =>
            match (firstString fields (strs ["url", "href", "source_url"])).bind fun value =>
              safeNormalize T value baseUrl with
            | none => .ok none
            | some url => do
                let fileType := (← extension T url).dropWhile (· == '.')
                return some {
                  name := (firstString fields (strs ["name", "title"])).getD (lastSegment url)
                  url := url
                  fileType := if fileType = [] then none else some fileType }
        | _ => .ok none) raw
  | _ => .ok []

/-- `_document_from_api_item`. -/
def documentFromApiItem (item : Fields) (url : Text) : Except Exn CrawledDocument := do
  let content := (firstString item (strs ["content", "正文", "body", "text"])).getD []
  let title := (firstString item (strs ["title", "TITLE", "name", "subject"])).getD url
  let published := firstString item (strs ["published_at", "publish_date", "date", "DOCRELPUBTIME"])
  let attachments ← attachmentsFromApiItem T item url
  return {
    title := strip title
    url := ← normalize T url
    rawHtml := T.dumps (.obj item)
    text := strip content
    publishDateText := published
    attachments := attachments
    warnings := if content ≠ [] then ["API_CONTENT"] else ["API_DETAIL_REQUIRED"] }

end

end Odirag.Crawler
