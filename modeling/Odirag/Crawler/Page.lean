import Odirag.Crawler.Rules

/-!
# Reading a page

Reference: `backend/app/crawler/generic.py`.

The functions that read one parsed page: the article links of a list page with their scores, the
page that it names as the next one, its kind, and the document of a detail page.
-/

namespace Odirag.Crawler

open Json (Fields)
open Regex (char opt oneOf seqs plus between exactly lit anyOf star)

/-! ## Records -/

/-- `CrawledAttachment`. -/
structure CrawledAttachment where
  name : Text
  url : Text
  fileType : Option Text := none
deriving DecidableEq

/-- How a text was extracted. -/
inductive ExtractionMethod
  | html
  | pdf
  | doc
  | docx
  | xls
  | xlsx
  | image
  | imageOcr
  | mixed
deriving DecidableEq, Repr

/-- `CrawledDocument`. -/
structure CrawledDocument where
  title : Text
  url : Text
  rawHtml : Text
  text : Text
  publishDateText : Option Text
  attachments : List CrawledAttachment
  extractionMethod : ExtractionMethod := .html
  needsOcr : Bool := false
  imageUrls : List Text := []
  imageAltTexts : List Text := []
  warnings : List String := []
  discoveryScore : ℤ := 0
deriving DecidableEq

/-- `CandidateLink`. -/
structure CandidateLink where
  url : Text
  anchorText : Text
  score : ℤ
  reasons : List Text
  apiItem : Option Fields := none

/-! ## Patterns -/

/-- `_ARTICLE_PATH_TERMS`. -/
def articlePathTerms : List Text :=
  strs ["/art/", "/article/", "/content/", "/detail/", "/news/", "/xxgk/", "/zwgk/", "/zc/",
    "/zcwj/", "/zcfg/", "/tzgg/", "/wjfb/", "/notice/", "/公告/", "/通知/"]

/-- `_ARTICLE_TEXT_TERMS`. -/
def articleTextTerms : List Text :=
  strs ["通知", "公告", "政策", "规定", "办法", "意见", "方案", "规划", "标准", "条例", "细则", "解读",
    "名单", "公示", "批复", "决定", "报告", "article", "policy", "notice", "announcement"]

/-- `_NAVIGATION_TERMS`. -/
def navigationTerms : List Text :=
  strs ["登录", "注册", "搜索", "分享", "首页", "返回顶部", "打印", "字体", "上一页", "下一页", "next",
    "prev", "更多", "网站地图", "备案", "隐私", "联系我们"]

/-- `_NEXT_TERMS`. -/
def nextTerms : List Text := strs ["下一页", "下页", "后一页", "next", "下一篇"]

/-- `_PAGE_PARAMETERS`. -/
def pageParameters : List Text :=
  strs ["page", "p", "pagenum", "page_num", "pageindex", "page_index", "pn"]

/-- `_NON_ARTICLE_EXTENSIONS`. -/
def nonArticleExtensions : List Text :=
  strs [".css", ".js", ".json", ".xml", ".jpg", ".jpeg", ".png", ".gif", ".webp", ".svg", ".ico",
    ".mp4", ".mp3", ".wav", ".pdf", ".doc", ".docx", ".xls", ".xlsx", ".zip", ".rar"]

/-- `_ATTACHMENT_EXTENSIONS`. -/
def attachmentExtensions : List Text :=
  strs [".pdf", ".doc", ".docx", ".xls", ".xlsx", ".txt", ".zip", ".rar", ".jpg", ".jpeg", ".png",
    ".gif", ".webp"]

/-- `$`: the end of the text, or a line break at the end. -/
def endOfText : Regex :=
  .notAhead (.alt (char (· != '\n')) (.seq (char (· == '\n')) (char fun _ => true)))

/-- `_DATE_PATH_RE`. -/
def datePath (T : CrawlTools) : Regex :=
  seqs [lit "/", oneOf [lit "19", lit "20"], exactly (char T.isDigit) 2,
    between (.seq (anyOf "-_/") (between (char T.isDigit) 1 2)) 0 2, .alt (lit "/") endOfText]

/-- `_NUMERIC_ID_RE`. -/
def numericId (T : CrawlTools) : Regex :=
  seqs [.alt .start (anyOf "/_-"), .rep (char T.isDigit) 3 none true, .alt endOfText (anyOf "/_.-")]

/-! ## Article links -/

section

variable (T : CrawlTools)

/-- `_excluded_href`. -/
def excludedHref (value : Text) : Bool :=
  let stripped := T.lower (strip value)
  stripped = [] ||
    (strs ["javascript:", "mailto:", "tel:", "#"]).any fun scheme => scheme.isPrefixOf stripped

/-- `_is_navigation_label`. -/
def isNavigationLabel (value : Text) : Bool :=
  let label := T.lower (strip value)
  label = [] || label.containsAny navigationTerms

/-- `score_candidate`. -/
def scoreCandidate (url anchorText : Text) (element : Option (T.Doc × T.Tag) := none) :
    Except Exn (ℤ × List Text) := do
  let parsed ← split T url
  let path := T.lower parsed.path
  let label := T.lower (strip anchorText)
  let pathHits := (articlePathTerms.filter path.contains).map (Text.stripBy (· == '/'))
  let textHits := articleTextTerms.filter fun term => label.contains (T.lower term)
  let dated := ((datePath T).search path).isSome
  let numbered := ((numericId T).search path).isSome
  let listed :=
    match element with
    | none => false
    | some (doc, tag) =>
        let classes := List.intercalate [' '] (tagValues T doc tag (str "class"))
        let parentClasses :=
          match T.parent doc tag with
          | some parent => List.intercalate [' '] (tagValues T doc parent (str "class"))
          | none => []
        (T.lower (classes ++ ' ' :: parentClasses)).containsAny
          (strs ["list", "title", "item", "news"])
  let directory := path.containsAny (strs ["/list", "index.", "newschild", "common_list"])
  let score : ℤ :=
    min 6 (2 * pathHits.length) + (if dated then 3 else 0) + (if numbered then 1 else 0)
      + min 4 textHits.length + (if listed then 1 else 0) - (if directory then 4 else 0)
      - (if label = [] then 1 else 0)
  let reasons :=
    (pathHits.take 3).map (str "path:" ++ ·)
      ++ (if dated then [str "path:date"] else [])
      ++ (if numbered then [str "path:id"] else [])
      ++ (textHits.take 4).map (str "text:" ++ ·)
      ++ (if listed then [str "dom:list"] else [])
      ++ (if directory then [str "path:directory"] else [])
      ++ (if label = [] then [str "text:empty"] else [])
  return (score, reasons)

/-- The order of the candidates: best first, then by URL. -/
def leCandidate (x y : CandidateLink) : Bool :=
  if x.score = y.score then Url.leText x.url y.url else decide (y.score < x.score)

/-- The candidate of one link of a list page. -/
def candidateOf (doc : T.Doc) (pageUrl baseHost : Text) (pagination : Fields) (currentUrl : Text)
    (selected : Option (List T.Tag)) (element : T.Tag) : Except Exn (Option CandidateLink) := do
  if selected.any fun tags => element ∉ tags then return none
  match T.attr doc element (str "href") with
  | .text rawHref =>
      if excludedHref T rawHref then return none
      match safeNormalize T rawHref pageUrl with
      | none => return none
      | some url =>
          let host := rstripDots (T.lower (← hostnameOf T url))
          let allowSubdomains :=
            ((lookup pagination (str "allow_subdomains")).map Json.truthy).getD true
          if host = [] ∨ sameSite T baseHost host allowSubdomains = false then return none
          if url = currentUrl ∨ (← extension T url) ∈ nonArticleExtensions then return none
          let label := T.getText doc element [' ']
          let (score, reasons) ← scoreCandidate T url label (some (doc, element))
          if isNavigationLabel T label then return none
          if selected.isNone ∧
              score < intConfig T.toNetTools pagination (str "candidate_min_score") 2 then
            return none
          return some { url := url, anchorText := label, score := score, reasons := reasons }
  | _ => return none

/-- The elements that a narrow selector selects; a broad one selects none. -/
def selectedLinks (doc : T.Doc) (selectors : Fields) : Except Exn (Option (List T.Tag)) :=
  match optionalSelector selectors (str "list_link") with
  | none => .ok none
  | some selector =>
      if selector ∈ strs ["a", "a[href]", "a[href*='']"] then .ok none
      else (T.select doc selector).map some

/-- `_extract_candidates`. -/
def extractCandidates (doc : T.Doc) (pageUrl baseHost : Text) (selectors pagination : Fields)
    (currentUrl : Text) : Except Exn (List CandidateLink) := do
  let selected ← selectedLinks T doc selectors
  let elements ← T.select doc (str "a[href]")
  let candidates ←
    collect (candidateOf T doc pageUrl baseHost pagination currentUrl selected) elements
  return candidates.insertionSort fun x y => leCandidate x y = true

/-! ## The next page -/

/-- `_page_parameter`. -/
def pageParameter (config : Fields) (url : Text) : Except Exn (Option Text) :=
  match optionalSelector config (str "page_param") with
  | some explicit => .ok (some explicit)
  | none => do
      let parsed ← split T url
      let keys := (Url.parseQsl T.toTools parsed.query).map fun pair => T.lower pair.1
      return pageParameters.find? fun key => key ∈ keys

/-- `_current_page_number`, which `_page_number` only calls. -/
def currentPageNumber (url : Text) (config : Fields) : Except Exn (Option ℕ) := do
  match ← pageParameter T config url with
  | none => return none
  | some param =>
      let parsed ← split T url
      let value := (Url.parseQsl T.toTools parsed.query).find? fun pair =>
        T.lower pair.1 = T.lower param
      return (value.bind fun pair => T.parseInt pair.2).bind fun number =>
        if 0 ≤ number then some number.toNat else none

/-- `_replace_query`. -/
def replaceQuery (url key value : Text) : Except Exn Text := do
  let parsed ← split T url
  let query := (Url.parseQsl T.toTools parsed.query).filter fun pair => pair.1 ≠ key
  return Url.urlunsplit
    ⟨parsed.scheme, parsed.netloc, parsed.path, Url.urlencode (query ++ [(key, value)]), []⟩

/-- The next page that one of the selected controls names. -/
def selectedNext (doc : T.Doc) (pageUrl : Text) (visited : List Text) :
    List Text → Except Exn (Option Text)
  | [] => .ok none
  | selector :: selectors => do
      let element := (← T.select doc selector).head?
      let href := element.bind fun tag => truthyAttr T (T.attr doc tag (str "href"))
      match href.bind fun href => safeNormalize T href pageUrl with
      | some candidate =>
          if candidate ∉ visited then return some candidate
          else selectedNext doc pageUrl visited selectors
      | none => selectedNext doc pageUrl visited selectors

/-- The label of a link says that it leads to the next page. -/
def saysNext (doc : T.Doc) (element : T.Tag) : Bool :=
  let label := T.lower (T.getText doc element [' '])
  let aria :=
    match T.attr doc element (str "aria-label") with
    | .missing => []
    | .text value => T.lower value
    | .texts values => T.lower (T.render (.arr (values.map .str)))
  (label ++ ' ' :: aria).containsAny nextTerms

/-- The links of a page, up to the first unvisited one that is labelled as the next page, which is
returned; otherwise those with a page number above the current one. -/
def linkedNext (doc : T.Doc) (pageUrl : Text) (pagination : Fields) (visited : List Text)
    (currentPage : Option ℕ) : List T.Tag → Except Exn (Option Text × List (ℕ × Text))
  | [] => .ok (none, [])
  | element :: elements =>
      match truthyAttr T (T.attr doc element (str "href")) with
      | none => linkedNext doc pageUrl pagination visited currentPage elements
      | some href =>
          match safeNormalize T href pageUrl with
          | none => linkedNext doc pageUrl pagination visited currentPage elements
          | some candidate => do
              if saysNext T doc element ∧ candidate ∉ visited then return (some candidate, [])
              let number ← currentPageNumber T candidate pagination
              let above := number.filter fun n => currentPage.all fun current => current < n
              let (found, rest) ← linkedNext doc pageUrl pagination visited currentPage elements
              return (found, (above.map fun n => (n, candidate)).toList ++ rest)

/-- The URL with the least number, the first one of several. -/
def leastNumbered : List (ℕ × Text) → Option (ℕ × Text)
  | [] => none
  | link :: links =>
      match leastNumbered links with
      | none => some link
      | some least => if least.1 < link.1 then some least else some link

/-- `_find_next_page`. -/
def findNextPage (doc : T.Doc) (pageUrl : Text) (pagination : Fields) (visited : List Text) :
    Except Exn (Option Text) := do
  let selectors := (optionalSelector pagination (str "next_selector")).toList
    ++ [str "a[rel='next'], link[rel='next']"]
  match ← selectedNext T doc pageUrl visited selectors with
  | some candidate => return some candidate
  | none =>
      let currentPage ← currentPageNumber T pageUrl pagination
      let elements ← T.select doc (str "a[href]")
      let (labelled, numbered) ← linkedNext T doc pageUrl pagination visited currentPage elements
      match labelled, leastNumbered numbered with
      | some candidate, _ => return some candidate
      | none, some link => return some link.2
      | none, none =>
          match ← pageParameter T pagination pageUrl with
          | none => return none
          | some param =>
              -- A current page of 0 counts as none.
              let current := (currentPage.filter (· ≠ 0)).getD
                (intConfig T.toNetTools pagination (str "page_start") 1)
              some <$> replaceQuery T pageUrl param (Nat.repr (current + 1)).toList

/-! ## The kind of a page -/

/-- `_classify_page`. -/
structure PageClassification where
  url : Text
  kind : String
  statusCode : ℕ
deriving DecidableEq

/-- A JSON text, by its first character. -/
def looksLikeJson (text : Text) : Bool :=
  (text.dropWhile Documents.isSpace).head?.any fun c => c.toNat = 0x7b || c == '['

/-- `_classify_page`. -/
def classifyPage (response : FetchResponse) (text : Text) (doc : T.Doc) :
    Except Exn PageClassification := do
  let finds := fun selector => (fun tags => !List.isEmpty tags) <$> T.select doc selector
  let kind ←
    if (T.lower response.contentType).contains (str "json") || looksLikeJson text then
      pure "json_api"
    else if ← finds (str "article, .article, .detail, .pages_content, #UCAP-CONTENT") then
      pure "html_detail_or_mixed"
    else if ← finds (str "a[href]") then pure "html_list_or_navigation"
    else if ← finds (str "script") then pure "spa_shell"
    else pure "unknown"
  return { url := ← normalize T response.url, kind := kind, statusCode := response.statusCode }

/-- `_select_first`: an invalid selector is a `ValueError`. -/
def selectFirst (doc : T.Doc) (configured : Option Text) (fallbacks : List Text) :
    Except Exn (Option T.Tag) :=
  go (configured.toList ++ fallbacks)
where
  go : List Text → Except Exn (Option T.Tag)
    | [] => .ok none
    | selector :: selectors =>
        match T.select doc selector with
        | .error _ =>
            .error (.value (str "DETAIL_SCHEMA_UNKNOWN: invalid selector " ++ T.repr selector))
        | .ok (tag :: _) => .ok (some tag)
        | .ok [] => go selectors

/-- `_looks_like_detail_page`. -/
def looksLikeDetailPage (doc : T.Doc) (url : Text) (selectors : Fields) : Except Exn Bool := do
  if Json.isBool true (Json.get selectors (str "detail_url")) ||
      Json.isText (str "detail") (Json.get selectors (str "mode")) then
    return true
  let path := (← split T url).path
  if ((datePath T).search path).isNone && ((numericId T).search path).isNone then return false
  let content ← selectFirst T doc (optionalSelector selectors (str "content"))
    (strs ["article", "main", ".content", ".detail", ".pages_content", "#UCAP-CONTENT"])
  match content with
  | none => return false
  | some content =>
      let textLength := (T.getText doc content [' ']).length
      let linkCount := (← T.selectIn doc content (str "a[href]")).length
      return 180 ≤ textLength && max 1 linkCount * 20 < textLength

/-! ## Detail pages -/

/-- The last segment of a URL. -/
def lastSegment (url : Text) : Text := (Url.rpartition '/' url).2

/-- The attachments among the elements; `seen` are the URLs of those found before. -/
def attachmentsOf (doc : T.Doc) (base : Text) :
    List Text → List T.Tag → Except Exn (List CrawledAttachment)
  | _, [] => .ok []
  | seen, element :: elements =>
      match truthyAttr T (T.attr doc element (str "href")) with
      | none => attachmentsOf doc base seen elements
      | some href =>
          match safeNormalize T href base with
          | none => attachmentsOf doc base seen elements
          | some url => do
              let extension ← extension T url
              if extension ∉ attachmentExtensions ∨ url ∈ seen then
                attachmentsOf doc base seen elements
              else
                let label := T.getText doc element [' ']
                let fileType := extension.dropWhile (· == '.')
                let rest ← attachmentsOf doc base (url :: seen) elements
                return { name := if label = [] then lastSegment url else label
                         url := url
                         fileType := if fileType = [] then none else some fileType } :: rest

/-- The images among the elements, with their alternative texts. -/
def imagesOf (doc : T.Doc) (base : Text) : List T.Tag → List Text × List Text → List Text × List Text
  | [], found => found
  | image :: images, (urls, alts) =>
      let raw :=
        match truthyAttr T (T.attr doc image (str "src")) with
        | some _ => T.attr doc image (str "src")
        | none => T.attr doc image (str "data-src")
      match raw with
      | .text rawUrl =>
          match if strip rawUrl = [] then none else safeNormalize T rawUrl base with
          | none => imagesOf doc base images (urls, alts)
          | some url =>
              if url ∈ urls then imagesOf doc base images (urls, alts)
              else
                let alt := tagValue T doc image (str "alt")
                imagesOf doc base images
                  (urls ++ [url], if alt = [] then alts else alts ++ [alt])
      | _ => imagesOf doc base images (urls, alts)

/-- The content of a `meta` element, or the text of another one. -/
def elementText (doc : T.Doc) (element : T.Tag) : Text :=
  if T.name doc element = str "meta" then tagValue T doc element (str "content")
  else T.getText doc element [' ']

/-- How the text of a page was extracted, and whether its images have to be read. -/
def extractionOf (text : Text) (imageUrls : List Text) : ExtractionMethod × Bool :=
  if text.length < 120 ∧ imageUrls ≠ [] then (.image, true)
  else if imageUrls ≠ [] then (.mixed, text.length < 300)
  else (.html, false)

/-- `parse_detail_response`. -/
def parseDetailResponse (response : FetchResponse) (selectors : Fields) :
    Except Exn CrawledDocument := do
  let html ← T.decode response.content response.encoding
  let doc ← T.parse html
  let titleElement ← selectFirst T doc (optionalSelector selectors (str "title"))
    (strs ["h1", "h2", "meta[property='og:title']", "title"])
  let contentElement ← selectFirst T doc (optionalSelector selectors (str "content"))
    (strs ["article", "main", "[role='main']", ".article", ".content", ".detail", ".TRS_Editor",
      ".pages_content", ".article-content", ".news-content", "#UCAP-CONTENT", "#content"])
  match titleElement, contentElement with
  | none, _ => throw (.value (str "DETAIL_SCHEMA_UNKNOWN: title selector did not match"))
  | some _, none => throw (.value (str "DETAIL_SCHEMA_UNKNOWN: content selector did not match"))
  | some titleElement, some contentElement =>
      let doc := T.decompose doc (← T.selectIn doc contentElement (str
        "script,style,noscript,nav,header,footer,aside,form,.share,.print,.related,.pager,.pagination"))
      let title := strip (elementText T doc titleElement)
      let text := T.getText doc contentElement ['\n']
      let dateElement ← selectFirst T doc (optionalSelector selectors (str "publish_date"))
        (strs ["time", "meta[property='article:published_time']", ".date", ".time"])
      let publishDate := dateElement.map (elementText T doc)
      let attachmentSelector := (optionalSelector selectors (str "attachment")).getD (str "a[href]")
      let attachments ←
        attachmentsOf T doc response.url [] (← T.select doc attachmentSelector)
      let images ← T.selectIn doc contentElement (str "img[src], img[data-src]")
      let (imageUrls, imageAltTexts) := imagesOf T doc response.url images ([], [])
      let (method, needsOcr) := extractionOf text imageUrls
      if title = [] ∨ (text = [] ∧ attachments = [] ∧ imageUrls = []) then
        throw (.value (str "DETAIL_SCHEMA_UNKNOWN: title or content is empty"))
      return {
        title := title
        url := ← normalize T response.url
        rawHtml := html
        text := text
        publishDateText := publishDate
        attachments := attachments
        extractionMethod := method
        needsOcr := needsOcr
        imageUrls := imageUrls
        imageAltTexts := imageAltTexts
        warnings :=
          (if attachments ≠ [] ∧ text.length < 300 then ["SHORT_TEXT_WITH_ATTACHMENT"] else [])
            ++ if imageUrls ≠ [] ∧ text.length < 300 then ["OCR_REQUIRED"] else [] }

end

end Odirag.Crawler
