import Odirag.Crawler.Feed
import Odirag.Foundations.Run

/-!
# The generic crawler

Reference: `GenericCrawler.crawl_column_with_diagnostics` of `backend/app/crawler/generic.py`.

Between two requests the crawler computes, so that a crawl is a machine whose states (`Crawl`) are
the requests it waits for: a list page, a page of an API, the detail page of a candidate. The site
chooses every answer. What the source keeps in local variables and in `_DiscoveryState` is in the
state; the pauses between requests are left out.
-/

namespace Odirag.Crawler

open Json (Fields)

/-! ## Results -/

/-- `CrawlFailure`. -/
structure CrawlFailure where
  url : Text
  stage : String
  errorCode : String
  errorMessage : Text
  retryable : Bool := false

/-- An entry of `pagination_events`. -/
inductive PaginationEvent
  | maxArticlesBefore (page : ℕ)
  | maxArticles (page : ℕ) (newCandidates : Bool)
  | noNewArticles (page : ℕ)
  | next (page : ℕ) (nextUrl : Option Text) (newCandidates : ℕ)

/-- `api_discovery`. -/
structure ApiDiscovery where
  mode : String
  candidates : List Text
  requests : ℕ := 0
  items : ℕ := 0

/-- `_DiscoveryState`. -/
structure DiscoveryState where
  candidates : List CandidateLink := []
  visitedPages : List Text := []
  normalizedLinks : List Text := []
  pageClassifications : List PageClassification := []
  paginationEvents : List PaginationEvent := []
  warnings : List String := []
  failures : List CrawlFailure := []
  apiDiscovery : Option ApiDiscovery := none

/-- A candidate is added. -/
def DiscoveryState.add (state : DiscoveryState) (candidate : CandidateLink) : DiscoveryState :=
  { state with
    candidates := state.candidates ++ [candidate]
    normalizedLinks := state.normalizedLinks ++ [candidate.url] }

/-- `CrawlDiagnostics`. -/
structure CrawlDiagnostics where
  pagesVisited : ℕ
  candidateLinks : List CandidateLink
  normalizedLinks : List Text
  pageClassifications : List PageClassification
  paginationEvents : List PaginationEvent
  apiDiscovery : Option ApiDiscovery
  warnings : List String
  failures : List CrawlFailure

/-- `CrawlColumnResult`. -/
structure CrawlColumnResult where
  documents : List CrawledDocument
  diagnostics : CrawlDiagnostics

/-- What a crawl raises. -/
inductive CrawlError
  | discovery (code : String) (message : Text) (retryable : Bool)
  | raised (exc : Exn)

/-! ## States -/

/-- The arguments of `crawl_column_with_diagnostics`. -/
structure Column where
  columnUrl : Text
  selectors : Fields := []
  pagination : Fields := []
  maxPages : ℕ
  maxArticles : Option ℕ := none

/-- What stays the same during a crawl: the merged selectors and pagination, with which articles are
found, and the host of the column. -/
structure Setup where
  selectors : Fields
  /-- The selectors of the column as they are, with which detail pages are read. -/
  detailSelectors : Fields
  pagination : Fields
  baseHost : Text
  maxPages : ℕ
  maxArticles : Option ℕ

/-- The loop over the list pages; `current` is the page that is fetched. -/
structure Listing where
  pageIndex : ℕ
  current : Text
  visited : List Text
  seen : List Text
  noNewPages : ℕ
  state : DiscoveryState

/-- A list page that was read. -/
structure ListPage (T : CrawlTools) where
  response : FetchResponse
  doc : T.Doc
  /-- How many candidates there were before. -/
  before : ℕ

/-- The loop over the hints of an API; `hints` are those after the current one. -/
structure ApiLoop (T : CrawlTools) where
  page : ListPage T
  listing : Listing
  config : Fields
  hintIndex : ℕ
  hint : Text
  hints : List Text
  pageIndex : ℕ
  pageUrl : Text

/-- A crawl between two requests. -/
inductive Crawl (T : CrawlTools)
  | listing (L : Listing)
  | api (A : ApiLoop T)
  | detail (candidate : CandidateLink) (rest : List CandidateLink)
      (documents : List CrawledDocument) (state : DiscoveryState)
  | done (outcome : Except CrawlError CrawlColumnResult)

/-- The answer to a request. -/
abbrev Answer := Except Exn FetchResponse

section

variable (T : CrawlTools) (K : Setup)

/-- `page_limit`. -/
def Setup.pageLimit : ℕ := K.maxArticles.getD 10000

/-! ## Details -/

/-- The end of a crawl. -/
def conclude (documents : List CrawledDocument) (state : DiscoveryState) : CrawlColumnResult where
  documents :=
    match K.maxArticles with
    | none => documents
    | some n => documents.take n
  diagnostics := {
    pagesVisited := state.visitedPages.length
    candidateLinks := state.candidates
    normalizedLinks := state.normalizedLinks
    pageClassifications := state.pageClassifications
    paginationEvents := state.paginationEvents
    apiDiscovery := state.apiDiscovery
    warnings := state.warnings.eraseDups
    failures := state.failures }

/-- `_with_discovery_score`, or the failure. -/
def addDetail (candidate : CandidateLink) (documents : List CrawledDocument)
    (state : DiscoveryState) :
    Except Exn CrawledDocument → List CrawledDocument × DiscoveryState
  | .ok document => (documents ++ [{ document with discoveryScore := candidate.score }], state)
  | .error exc =>
      (documents, { state with failures := state.failures ++ [{
        url := candidate.url
        stage := "detail"
        errorCode := classifyDetailError exc
        errorMessage := safeErrorMessage exc
        retryable := retryableException exc }] })

/-- The loop over the candidates, up to the next one whose page has to be fetched. -/
def details : List CandidateLink → List CrawledDocument → DiscoveryState → Crawl T
  | [], documents, state => .done (.ok (conclude K documents state))
  | candidate :: rest, documents, state =>
      if K.maxArticles.any fun n => n ≤ documents.length then
        .done (.ok (conclude K documents state))
      else
        match candidate.apiItem.filter apiItemHasContent with
        | none => .detail candidate rest documents state
        | some item =>
            let (documents, state) :=
              addDetail candidate documents state (documentFromApiItem T item candidate.url)
            details rest documents state

/-- The end of the discovery. -/
def discovered (state : DiscoveryState) : Crawl T :=
  let state :=
    if state.candidates = [] ∧ state.failures.isEmpty then
      { state with warnings := state.warnings ++ ["NO_ARTICLES"] }
    else state
  let candidates :=
    match K.maxArticles with
    | none => state.candidates
    | some n => state.candidates.take n
  details T K candidates [] state

/-! ## List pages -/

/-- The head of the loop over the list pages. -/
def enterPage (pageIndex : ℕ) (current : Option Text) (L : Listing) : Crawl T :=
  if K.maxPages ≤ pageIndex then discovered T K L.state
  else
    match current with
    | none => discovered T K L.state
    | some url =>
        if url ∈ L.visited then
          discovered T K { L.state with warnings := L.state.warnings ++ ["PAGINATION_LOOP_GUARD"] }
        else if K.pageLimit ≤ L.state.candidates.length then
          discovered T K { L.state with
            paginationEvents := L.state.paginationEvents ++ [.maxArticlesBefore pageIndex] }
        else
          .listing { L with pageIndex := pageIndex, current := url, visited := url :: L.visited }

/-- The foot of the loop over the list pages. -/
def leavePage (page : ListPage T) (L : Listing) : Crawl T :=
  let count := L.state.candidates.length
  if K.pageLimit ≤ count then
    discovered T K { L.state with
      paginationEvents := L.state.paginationEvents
        ++ [.maxArticles (L.pageIndex + 1) (page.before ≠ count)] }
  else if intConfig T.toNetTools K.pagination (str "stop_after_no_new_pages") 2 ≤ L.noNewPages then
    discovered T K { L.state with
      paginationEvents := L.state.paginationEvents ++ [.noNewArticles (L.pageIndex + 1)] }
  else
    match findNextPage T page.doc page.response.url K.pagination L.visited with
    | .error exc => .done (.error (.raised exc))
    | .ok next =>
        enterPage T K (L.pageIndex + 1) next { L with state := { L.state with
          paginationEvents := L.state.paginationEvents
            ++ [.next (L.pageIndex + 1) next (count - page.before)] } }

/-- Add new candidates up to the limit. -/
def addCandidates : List CandidateLink → List Text × DiscoveryState → List Text × DiscoveryState
  | [], found => found
  | candidate :: rest, (seen, state) =>
      if candidate.url ∈ seen then addCandidates rest (seen, state)
      else if K.pageLimit ≤ (state.add candidate).candidates.length then
        (candidate.url :: seen, state.add candidate)
      else addCandidates rest (candidate.url :: seen, state.add candidate)

/-! ## The API of a page without links -/

/-- The end of `_discover_api_fallback`. -/
def leaveApi (page : ListPage T) (L : Listing) : Crawl T :=
  let state := L.state
  if state.candidates = [] then
    let warning := if state.failures.isEmpty then "NO_ARTICLES" else "SPA_API_REQUEST_FAILED"
    leavePage T K page { L with state := { state with warnings := state.warnings ++ [warning] } }
  else leavePage T K page L

/-- A hint that failed. -/
def failHint (hintIndex : ℕ) (hint : Text) (exc : Exn) (L : Listing) : Listing :=
  { L with state := { L.state with failures := L.state.failures ++ [{
      url := hint
      stage := "api"
      errorCode := if hintIndex = 0 then "LIST_SCHEMA_UNKNOWN" else "SPA_API_REQUEST_FAILED"
      errorMessage := safeErrorMessage exc
      retryable := retryableException exc }] } }

/-- The next page of an API, unless there is none to fetch. -/
def enterApiPage (A : ApiLoop T) : Option (ApiLoop T) :=
  if A.pageIndex < intConfig T.toNetTools K.pagination (str "api_max_pages") 100
      ∧ A.pageUrl ∉ A.listing.state.visitedPages then
    some A
  else none

/-- The loop over the hints, up to the first one with a page to fetch. -/
def tryHints (page : ListPage T) (config : Fields) :
    ℕ → List Text → Listing → Crawl T
  | _, [], L => leaveApi T K page L
  | hintIndex, hint :: hints, L =>
      match normalize T hint page.response.url with
      | .error exc => tryHints page config (hintIndex + 1) hints (failHint hintIndex hint exc L)
      | .ok apiUrl =>
          let A : ApiLoop T :=
            { page := page
              listing := L
              config := config
              hintIndex := hintIndex
              hint := hint
              hints := hints
              pageIndex := 0
              pageUrl := apiUrl }
          match enterApiPage T K A with
          | some A => .api A
          | none =>
              if L.state.candidates = [] then tryHints page config (hintIndex + 1) hints L
              else leaveApi T K page L

/-- After the last page of a hint. -/
def leaveHint (A : ApiLoop T) : Crawl T :=
  if A.listing.state.candidates = [] then
    tryHints T K A.page A.config (A.hintIndex + 1) A.hints A.listing
  else leaveApi T K A.page A.listing

/-- The configured endpoint of the API. -/
def apiEndpoint (config : Fields) : Json :=
  (Json.get config (str "list_endpoint")).orElse (Json.get config (str "endpoint"))

/-- The endpoint, or the URLs that the page mentions. -/
def apiHints (config : Fields) (page : ListPage T) (text : Text) : List Text :=
  match notBlank (apiEndpoint config) with
  | some endpoint => [endpoint]
  | none => discoverApiHints T text page.response.url

/-- `_discover_api_fallback`. -/
def discoverApiFallback (page : ListPage T) (text : Text) (L : Listing) : Crawl T :=
  let config := apiConfig K.selectors K.pagination
  let hints := apiHints T config page text
  if hints = [] then
    leavePage T K page { L with state := { L.state with
      warnings := L.state.warnings ++ ["SPA_API_NOT_DISCOVERED"] } }
  else
    tryHints T K page config 0 (hints.take 3) { L with state := { L.state with
      apiDiscovery := some
        { mode := if (apiEndpoint config).truthy then "configured" else "inline_hint"
          candidates := hints.take 10 } } }

/-- The candidates of the items, up to the limit; an exception keeps those before it. -/
def addItems (config : Fields) (baseUrl : Text) :
    List Fields → List Text × DiscoveryState → (List Text × DiscoveryState) × Option Exn
  | [], found => (found, none)
  | item :: items, (seen, state) =>
      match candidateFromApiItem T item config baseUrl with
      | .error exc => ((seen, state), some exc)
      | .ok none => addItems config baseUrl items (seen, state)
      | .ok (some candidate) =>
          if candidate.url ∈ seen then addItems config baseUrl items (seen, state)
          else
            match hostnameOf T candidate.url with
            | .error exc => ((seen, state), some exc)
            | .ok host =>
                if sameSite T K.baseHost host = false then
                  addItems config baseUrl items (seen, state)
                else if K.pageLimit ≤ (state.add candidate).candidates.length then
                  ((candidate.url :: seen, state.add candidate), none)
                else addItems config baseUrl items (candidate.url :: seen, state.add candidate)

/-- An exception while a hint is worked on. -/
def raiseInHint (A : ApiLoop T) (exc : Exn) (L : Listing) : Crawl T :=
  if exc.isValueError || exc.isHttpError then
    tryHints T K A.page A.config (A.hintIndex + 1) A.hints (failHint A.hintIndex A.hint exc L)
  else .done (.error (.raised exc))

/-- The end of a page of an API. -/
def leaveApiPage (A : ApiLoop T) (payload : Json) : Crawl T :=
  if K.pageLimit ≤ A.listing.state.candidates.length then leaveHint T K A
  else
    match nextApiUrl T payload A.pageUrl A.config A.pageIndex with
    | .error exc => raiseInHint T K A exc A.listing
    | .ok none => leaveHint T K A
    | .ok (some url) =>
        match enterApiPage T K { A with pageIndex := A.pageIndex + 1, pageUrl := url } with
        | some A => .api A
        | none => leaveHint T K A

/-- The items of an answer. -/
def readItems (A : ApiLoop T) (response : FetchResponse) (payload : Json) : Crawl T :=
  let items := extractApiItems payload A.config
  let state := A.listing.state
  let state := { state with
    apiDiscovery := state.apiDiscovery.map fun api => { api with items := api.items + items.length } }
  let L := { A.listing with state := state }
  if items = [] then leaveHint T K { A with listing := L }
  else
    let ((seen, state), raised) := addItems T K A.config response.url items (L.seen, state)
    let L := { L with seen := seen, state := state }
    match raised with
    | some exc => raiseInHint T K A exc L
    | none => leaveApiPage T K { A with listing := L } payload

/-- The answer to a request for a page of an API. -/
def readApi (A : ApiLoop T) : Answer → Crawl T
  | .error exc => raiseInHint T K A exc A.listing
  | .ok response =>
      match normalize T response.url with
      | .error exc => raiseInHint T K A exc A.listing
      | .ok url =>
          let state := A.listing.state
          let L := { A.listing with state := { state with
            visitedPages := state.visitedPages ++ [url]
            apiDiscovery := state.apiDiscovery.map fun api =>
              { api with requests := api.requests + 1 } } }
          match T.decode response.content response.encoding >>= T.loads with
          | .error exc => raiseInHint T K A exc L
          | .ok payload => readItems T K { A with listing := L } response payload

/-! ## Answers -/

/-- The candidate for a list page that looks like a detail page. -/
def directCandidate (page : ListPage T) : Except Exn CandidateLink := do
  return {
    url := ← normalize T page.response.url
    anchorText :=
      match T.title page.doc with
      | some tag => T.getText page.doc tag [' ']
      | none => page.response.url
    score := 100
    reasons := [str "detail_url_fallback"] }

/-- A first list page without links that looks like a detail page is a candidate itself. -/
def addDirect (page : ListPage T) (L : Listing) : Except Exn Listing := do
  if L.state.candidates ≠ [] ∨ L.pageIndex ≠ 0 then return L
  if !(← looksLikeDetailPage T page.doc page.response.url K.selectors) then return L
  return { L with state := L.state.add (← directCandidate T page) }

/-- A list page is read: the page, its text and the loop with its candidates. -/
def readPage (L : Listing) (response : FetchResponse) :
    Except Exn (ListPage T × Text × Listing) := do
  let visited ← normalize T response.url
  let text ← T.decode response.content response.encoding
  let doc ← T.parse text
  let classification ← classifyPage T response text doc
  let page : ListPage T :=
    { response := response, doc := doc, before := L.state.candidates.length }
  let candidates ← extractCandidates T doc response.url K.baseHost K.selectors K.pagination L.current
  let found := addCandidates K candidates (L.seen, { L.state with
    visitedPages := L.state.visitedPages ++ [visited]
    pageClassifications := L.state.pageClassifications ++ [classification] })
  let L ← addDirect T K page { L with
    seen := found.1
    noNewPages := if page.before = found.2.candidates.length then L.noNewPages + 1 else 0
    state := found.2 }
  return (page, text, L)

/-- The answer to a request for a list page. -/
def readList (L : Listing) : Answer → Crawl T
  | .error exc =>
      let code := if L.pageIndex = 0 then classifyListError exc else "PAGINATION_FAILED"
      if L.pageIndex = 0 then
        if exc.isUnsafeUrlError then .done (.error (.raised exc))
        else .done (.error (.discovery code exc.message (retryableException exc)))
      else
        discovered T K { L.state with
          failures := L.state.failures ++ [{
            url := L.current
            stage := "pagination"
            errorCode := code
            errorMessage := safeErrorMessage exc
            retryable := retryableException exc }]
          warnings := L.state.warnings ++ [code] }
  | .ok response =>
      match readPage T K L response with
      | .error exc => .done (.error (.raised exc))
      | .ok (page, text, L) =>
          if L.state.candidates = [] ∧ L.pageIndex = 0 then discoverApiFallback T K page text L
          else leavePage T K page L

/-- `parse_detail`. -/
def parseDetail (answer : Answer) : Except Exn CrawledDocument :=
  answer >>= fun response => parseDetailResponse T response K.detailSelectors

/-- One answer. -/
def next : Crawl T → Answer → Option (Crawl T)
  | .listing L, answer => some (readList T K L answer)
  | .api A, answer => some (readApi T K A answer)
  | .detail candidate rest documents state, answer =>
      let (documents, state) := addDetail candidate documents state (parseDetail T K answer)
      some (details T K rest documents state)
  | .done _, _ => none

end

/-! ## Crawls -/

section

variable (T : CrawlTools)

/-- The beginning of a crawl: what stays the same, and the first list page. -/
def Column.setup (column : Column) : Except CrawlError (Setup × Text) :=
  let rules := siteRulesFromConfigs column.selectors column.pagination
  if column.maxPages < 1 then
    .error (.raised (.value (str "max_pages must be a positive integer")))
  else if column.maxArticles.any (· < 1) then
    .error (.raised (.value (str "max_articles must be a positive integer")))
  else if !rules.enabled then
    .error (.discovery "SITE_ADAPTER_DISABLED" (str "the configured site adapter is disabled") false)
  else
    match do
      let url ← normalize T column.columnUrl
      return (url, rstripDots (T.lower (← hostnameOf T url))) with
    | .error exc => .error (.raised exc)
    | .ok (url, baseHost) =>
        .ok ({ selectors := mergeSelectorRules column.selectors rules
               detailSelectors := column.selectors
               pagination := merge rules.merged column.pagination
               baseHost := baseHost
               maxPages := column.maxPages
               maxArticles := column.maxArticles }, url)

/-- The loop over the list pages before the first one. -/
def Listing.first (url : Text) : Listing where
  pageIndex := 0
  current := url
  visited := []
  seen := []
  noNewPages := 0
  state := {}

/-- A crawl before its first request. -/
def begin (K : Setup) (url : Text) : Crawl T := enterPage T K 0 (some url) (.first url)

/-- The crawls of a column, whatever the site answers. -/
def crawls (K : Setup) (url : Text) : System (Crawl T) Answer :=
  .ofNext (next T K) fun c => c = begin T K url

end

end Odirag.Crawler
