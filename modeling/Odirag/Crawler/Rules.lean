import Odirag.Crawler.Fetcher
import Odirag.Foundations.Except
import Odirag.Foundations.Json
import Odirag.Foundations.Regex

/-!
# What the generic crawler works with

Reference: `backend/app/crawler/generic.py`, `backend/app/crawler/site_rules.py`.

The exceptions that the handlers of the crawler tell apart, the libraries it reads pages with, and
its configuration: selectors and pagination are JSON objects of which each function reads the keys
it knows. Parsing a page, selecting elements, decoding bytes, reading and writing JSON and filling
in a template are parameters. A page may be changed while it is read, so that whatever is read of
an element depends on the state of the document.
-/

namespace Odirag.Crawler

open Json (Fields)

/-! ## Exceptions -/

/-- An exception, as far as a handler looks at it. -/
structure Exn where
  className : Text
  message : Text
  isValueError : Bool := false
  isUnsafeUrlError : Bool := false
  /-- `httpx.HTTPError`. -/
  isHttpError : Bool := false
  /-- `httpx.TimeoutException` or `TimeoutError`. -/
  isTimeout : Bool := false
  isConnectError : Bool := false
  /-- The status of an `httpx.HTTPStatusError`. -/
  status : Option ℕ := none

/-- A `ValueError`. -/
def Exn.value (message : Text) : Exn where
  className := str "ValueError"
  message := message
  isValueError := true

/-- The exceptions of `normalize_url`. -/
def UrlError.toExn : UrlError → Exn
  | .unsafeUrl message =>
      { className := str "UnsafeUrlError"
        message := message.toList
        isValueError := true
        isUnsafeUrlError := true }
  | .value message => .value message.toList

/-- `_retryable_exception`. -/
def retryableException (exc : Exn) : Bool :=
  exc.isTimeout || exc.isConnectError ||
    exc.status.any fun status => status ∈ [408, 425, 429, 500, 502, 503, 504]

/-- `_safe_error_message`. -/
def safeErrorMessage (exc : Exn) : Text :=
  let text := strip exc.message
  if text ≠ [] then text.take 500 else exc.className

/-- `_classify_list_error`. -/
def classifyListError (exc : Exn) : String :=
  if exc.isTimeout then
    if exc.message.contains (str "429") then "RATE_LIMITED" else "ARTICLE_FETCH_FAILED"
  else
    match exc.status with
    | some status =>
        if status = 401 ∨ status = 403 then "SOURCE_BLOCKED"
        else if status = 429 then "RATE_LIMITED"
        else "ARTICLE_FETCH_FAILED"
    | none => "ARTICLE_FETCH_FAILED"

/-- `_classify_detail_error`. -/
def classifyDetailError (exc : Exn) : String :=
  if exc.message.contains (str "DETAIL_SCHEMA_UNKNOWN") then "DETAIL_SCHEMA_UNKNOWN"
  else
    match exc.status with
    | some status =>
        if status = 401 ∨ status = 403 then "SOURCE_BLOCKED"
        else if status = 429 then "RATE_LIMITED"
        else "ARTICLE_FETCH_FAILED"
    | none => "ARTICLE_FETCH_FAILED"

/-! ## Libraries -/

/-- An attribute of an element. -/
inductive Attr
  | missing
  | text (value : Text)
  | texts (values : List Text)
deriving DecidableEq

/-- The libraries: Beautiful Soup over the state of a document, JSON and texts. -/
structure CrawlTools : Type 1 extends NetTools where
  /-- `\d`. -/
  isDigit : Char → Bool
  /-- `decode(encoding, errors="replace")`; an unknown encoding raises. -/
  decode : List UInt8 → Text → Except Exn Text
  Doc : Type
  Tag : Type
  decideTag : DecidableEq Tag
  /-- `BeautifulSoup(text, "lxml")`. -/
  parse : Text → Except Exn Doc
  /-- `soup.select(selector)`; an invalid selector raises. -/
  select : Doc → Text → Except Exn (List Tag)
  /-- `element.select(selector)`. -/
  selectIn : Doc → Tag → Text → Except Exn (List Tag)
  /-- `soup.title`. -/
  title : Doc → Option Tag
  name : Doc → Tag → Text
  attr : Doc → Tag → Text → Attr
  parent : Doc → Tag → Option Tag
  /-- `element.get_text(separator, strip=True)`. -/
  getText : Doc → Tag → Text → Text
  /-- The document after `decompose` of these elements. -/
  decompose : Doc → List Tag → Doc
  /-- `json.loads`. -/
  loads : Text → Except Exn Json
  /-- `json.dumps(value, ensure_ascii=False)`. -/
  dumps : Json → Text
  /-- `str` of a value that is no text. -/
  render : Json → Text
  /-- `repr` of a text. -/
  repr : Text → Text
  /-- `template.format(**values)`; `none` is a `KeyError` or an `IndexError`. -/
  format : Text → Fields → Except (Option Exn) Text

instance (T : CrawlTools) : DecidableEq T.Tag := T.decideTag

/-- An element of a page, with its text and its attributes. -/
structure Element where
  name : Text
  text : Text := []
  attrs : List (Text × Text) := []
deriving DecidableEq

/-- An element that a simple selector selects: links, links to the next page, elements by name. -/
def Element.selected (selector : Text) (element : Element) : Bool :=
  if selector = str "a[href]" then
    element.name = str "a" && (element.attrs.lookup (str "href")).isSome
  else if selector = str "a[rel='next'], link[rel='next']" then
    element.attrs.lookup (str "rel") = some (str "next")
  else element.name = selector

/-- The libraries on a few pages, which are given as lists of elements without nesting, and on ASCII
texts; there is no JSON. -/
def pageTools (pages : List (Text × List Element)) : CrawlTools where
  toNetTools := plainTools
  isDigit := Url.isAsciiDigit
  decode content _ := .ok (content.map fun b => Char.ofNat b.toNat)
  Doc := List Element
  Tag := Element
  decideTag := inferInstance
  parse text := .ok ((pages.lookup text).getD [])
  select doc selector := .ok (doc.filter (Element.selected selector))
  selectIn _ _ _ := .ok []
  title doc := doc.find? fun element => element.name = str "title"
  name _ element := element.name
  attr _ element key :=
    match element.attrs.lookup key with
    | some value => .text value
    | none => .missing
  parent _ _ := none
  getText _ element _ := element.text
  decompose doc removed := doc.filter (· ∉ removed)
  loads _ := .error (.value (str "Expecting value: line 1 column 1 (char 0)"))
  dumps _ := []
  render _ := []
  repr text := text
  format text _ := .ok text

section

variable (T : CrawlTools)

/-- `normalize_url`. -/
def normalize (url : Text) (base : Text := []) : Except Exn Text :=
  (normalizeUrl T.toNetTools url base).mapError UrlError.toExn

/-- `_safe_normalize`. -/
def safeNormalize (value : Text) (base : Text := []) : Option Text :=
  (normalizeUrl T.toNetTools value base).toOption

/-- `urlsplit`. -/
def split (url : Text) : Except Exn Url.SplitResult :=
  match Url.urlsplit T.toTools url with
  | some parsed => .ok parsed
  | none => .error (.value (str "Invalid IPv6 URL"))

/-- `urlsplit(url).hostname or ""`. -/
def hostnameOf (url : Text) : Except Exn Text :=
  (split T url).map fun parsed => (parsed.hostname T.toTools).getD []

/-- `_same_site`. -/
def sameSite (baseHost host : Text) (allowSubdomains : Bool := true) : Bool :=
  let base := rstripDots (T.lower baseHost)
  let candidate := rstripDots (T.lower host)
  if base = [] ∨ candidate = [] then false
  else if candidate = base then true
  else
    allowSubdomains &&
      (Text.endsWith candidate ('.' :: base) || Text.endsWith base ('.' :: candidate))

/-- `_extension`. -/
def extension (url : Text) : Except Exn Text :=
  (split T url).map fun parsed =>
    let path := T.lower parsed.path
    if '.' ∈ (Url.rpartition '/' path).2 then '.' :: (Url.rpartition '.' path).2 else []

end

/-! ## Elements -/

section

variable (T : CrawlTools)

/-- A truthy attribute as a text. -/
def truthyAttr (T : CrawlTools) : Attr → Option Text
  | .missing => none
  | .text value => if value = [] then none else some value
  | .texts values => if values = [] then none else some (T.render (.arr (values.map .str)))

/-- `_tag_value`. -/
def tagValue (doc : T.Doc) (tag : T.Tag) (name : Text) : Text :=
  match T.attr doc tag name with
  | .text value => strip value
  | _ => []

/-- `_tag_values`. -/
def tagValues (doc : T.Doc) (tag : T.Tag) (name : Text) : List Text :=
  match T.attr doc tag name with
  | .missing => []
  | .text value => [value]
  | .texts values => values

end

/-! ## Configuration -/

/-- The value of a key, if there is one. -/
def lookup (fields : Fields) (key : Text) : Option Json :=
  (fields.find? fun field => field.1 == key).map Prod.snd

/-- `fields[key] = value`. -/
def setField (fields : Fields) (key : Text) (value : Json) : Fields :=
  if fields.any fun field => field.1 == key then
    fields.map fun field => if field.1 == key then (key, value) else field
  else fields ++ [(key, value)]

/-- `{**first, **second}`. -/
def merge (first second : Fields) : Fields :=
  second.foldl (fun fields field => setField fields field.1 field.2) first

/-- A text that is not blank, stripped. -/
def notBlank : Json → Option Text
  | .str value => if strip value = [] then none else some (strip value)
  | _ => none

/-- `_optional_selector`. -/
def optionalSelector (config : Fields) (name : Text) : Option Text := notBlank (Json.get config name)

/-- `_int_config`. -/
def intConfig (N : NetTools) (config : Fields) (key : Text) (default : ℕ) : ℕ :=
  let parsed : Option ℤ :=
    match Json.get config key with
    | .int n => some n
    | .float x => some x.floor
    | .str value => N.parseInt value
    | _ => none
  match parsed with
  | some n => if 0 < n then n.toNat else default
  | none => default

/-- `SiteRules`. -/
structure SiteRules where
  host : Option Text := none
  mode : Text := str "html"
  list : Fields := []
  pagination : Fields := []
  detail : Fields := []
  attachments : Fields := []
  enabled : Bool := true

/-- `SiteRules.from_mapping`. -/
def SiteRules.fromMapping (value : Fields) : SiteRules :=
  if value = [] then {}
  else
    { host := notBlank (Json.get value (str "host"))
      mode := (notBlank (Json.get value (str "mode"))).getD (str "html")
      list := Json.mapping (Json.get value (str "list"))
      pagination := Json.mapping (Json.get value (str "pagination"))
      detail := Json.mapping (Json.get value (str "detail"))
      attachments := Json.mapping (Json.get value (str "attachments"))
      enabled := !Json.isBool false ((lookup value (str "enabled")).getD (.bool true)) }

/-- `SiteRules.merged`. -/
def SiteRules.merged (rules : SiteRules) : Fields :=
  let values := setField (merge rules.list rules.pagination) (str "mode") (.str rules.mode)
  let values :=
    match rules.host with
    | some host => setField values (str "host") (.str host)
    | none => values
  let values :=
    if rules.detail = [] then values else setField values (str "detail") (.obj rules.detail)
  if rules.attachments = [] then values
  else setField values (str "attachments") (.obj rules.attachments)

/-- `site_rules_from_configs`. -/
def siteRulesFromConfigs (selectors pagination : Fields) : SiteRules :=
  let raw := (Json.get pagination (str "site_rules")).orElse (Json.get selectors (str "site_rules"))
  match raw with
  | .obj fields => .fromMapping fields
  | _ => {}

/-- Take over a rule for a selector that is not set. -/
def adoptRule (rules : Fields) (values : Fields) (keys : Text × Text) : Fields :=
  match Json.get rules keys.1 with
  | .str value =>
      if (lookup values keys.2).isNone ∧ strip value ≠ [] then setField values keys.2 (.str value)
      else values
  | _ => values

/-- `_merge_selector_rules`. -/
def mergeSelectorRules (selectors : Fields) (rules : SiteRules) : Fields :=
  let values := [(str "link_selector", str "list_link"), (str "list_link", str "list_link")].foldl
    (adoptRule rules.list) selectors
  (strs ["title", "content", "publish_date", "attachment"]).foldl
    (fun values key => adoptRule rules.detail values (key, key)) values

/-- `_api_config`. -/
def apiConfig (selectors pagination : Fields) : Fields :=
  let raw := ((Json.get pagination (str "api")).orElse
    (Json.get pagination (str "site_rules"))).orElse (Json.get selectors (str "site_rules"))
  match raw with
  | .obj fields =>
      match Json.get fields (str "list") with
      | .obj list => merge fields list
      | _ => fields
  | _ => []

end Odirag.Crawler
