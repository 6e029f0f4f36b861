import Odirag.Crawl.LocalProvider

/-!
# The batches of local crawls

Reference: `LocalCrawlProvider.start_crawl` of `backend/app/crawler/providers.py`,
`backend/app/schemas/coze.py`.

What the parser makes of a crawl that has ended. It rewrites the URLs of the articles before it
checks them, and the documents that come out are again documents of the same form
(`canonicalizeBatchUrls_batchObject`). The flags of every document that a crawl reads agree
(`consistent_of_run`). So a crawl is lost exactly if one of its URLs is refused
(`startCrawl_iff`).
-/

namespace Odirag.Crawl.LocalProvider

open Crawler
open Schema
open Json (Fields)

/-! ## URLs rewritten -/

/-- A URL as the parser rewrites it, if it can. -/
def canonicalUrl (N : NetTools) (base value : Text) : Text := (tryNormalize N value base).getD value

/-- A document with the URLs that its article has after rewriting. -/
def canonicalDocument (N : NetTools) (d : CrawledDocument) : CrawledDocument :=
  if strip d.url = [] then d
  else
    match tryNormalize N d.url with
    | none => d
    | some url =>
        { d with
          url := url
          imageUrls := d.imageUrls.map (canonicalUrl N url)
          attachments := d.attachments.map fun a => { a with url := canonicalUrl N url a.url } }

section

variable {B : BatchTools} {p : Payload}

theorem normalizedUrl_str (base value : Text) :
    normalizedUrl B base value (.str value) = .str (canonicalUrl B.toNetTools base value) := by
  unfold normalizedUrl canonicalUrl
  cases tryNormalize B.toNetTools value base <;> rfl

theorem canonicalizeAttachment_attachmentObject (base : Text) (a : CrawledAttachment) :
    canonicalizeAttachment B base (.obj (attachmentObject a)) =
      .obj (attachmentObject { a with url := canonicalUrl B.toNetTools base a.url }) := by
  have hurl : Json.get (attachmentObject a) (str "url") = .str a.url := rfl
  simp only [canonicalizeAttachment, hurl, normalizedUrl_str]
  rfl

/-- As many images as before. -/
theorem setField_imageUrls {d : CrawledDocument} {urls : List Text}
    (h : urls.length = d.imageUrls.length) :
    setField (articleObject p d) (str "image_urls") (.arr (urls.map .str)) =
      articleObject p { d with imageUrls := urls } := by
  have hcount : articleObject p { d with imageUrls := urls } =
      setField (setField (articleObject p d) (str "image_urls") (.arr (urls.map .str)))
        (str "image_count") (.int urls.length) := rfl
  rw [hcount, h]
  rfl

theorem canonicalizeArticle_articleObject (d : CrawledDocument) :
    canonicalizeArticle B (.obj (articleObject p d)) =
      .obj (articleObject p (canonicalDocument B.toNetTools d)) := by
  have hget : Json.get (articleObject p d) (str "url") = .str d.url := rfl
  simp only [canonicalizeArticle, hget, canonicalDocument]
  split
  · rfl
  cases tryNormalize B.toNetTools d.url with
  | none => rfl
  | some url =>
      have hset : setField (articleObject p d) (str "url") (.str url) =
          articleObject p { d with url := url } := rfl
      have himages : Json.get (articleObject p { d with url := url }) (str "image_urls") =
          .arr (d.imageUrls.map .str) := rfl
      have hrewritten : (d.imageUrls.map Json.str).map (fun value =>
          normalizedUrl B url (Json.toText B.render value) value) =
            (d.imageUrls.map (canonicalUrl B.toNetTools url)).map .str := by
        rw [List.map_map, List.map_map]
        exact List.map_congr_left fun value _ => normalizedUrl_str url value
      simp only [hset, himages, hrewritten]
      rw [setField_imageUrls (by simp)]
      have hattachments : Json.get (articleObject p { d with
          url := url
          imageUrls := d.imageUrls.map (canonicalUrl B.toNetTools url) }) (str "attachments") =
          .arr (d.attachments.map fun a => .obj (attachmentObject a)) := rfl
      simp only [hattachments, List.map_map, Function.comp_def,
        canonicalizeAttachment_attachmentObject]
      simp only [articleObject, List.map_map, Function.comp_def]
      rfl

/-- The documents of a batch are rewritten one by one. -/
theorem canonicalizeBatchUrls_batchObject (result : CrawlColumnResult)
    (documents : List CrawledDocument) :
    canonicalizeBatchUrls B (.obj (batchObject p result documents)) =
      .obj (batchObject p result (documents.map (canonicalDocument B.toNetTools))) := by
  have hget : Json.get (batchObject p result documents) (str "articles") =
      .arr (documents.map fun d => .obj (articleObject p d)) := rfl
  simp only [canonicalizeBatchUrls, hget, List.map_map, Function.comp_def,
    canonicalizeArticle_articleObject]
  have hlength : (documents.map (canonicalDocument B.toNetTools)).length = documents.length :=
    List.length_map _
  simp only [batchObject, hlength, List.map_map, Function.comp_def]
  rfl

/-- The object of a batch is no wrapper of another one. -/
theorem unwrap_batchObject (result : CrawlColumnResult) (documents : List CrawledDocument) :
    unwrap B 3 (.obj (batchObject p result documents)) =
      .ok (.obj (batchObject p result documents)) := by
  have hnested : nested (batchObject p result documents) = none := rfl
  simp only [unwrap, hnested]

end

/-! ## Documents of a crawl -/

section

variable {T : CrawlTools} {K : Setup}

theorem OcrConsistent.of_ne {d : CrawledDocument} (himage : d.extractionMethod ≠ .image)
    (hocr : d.extractionMethod ≠ .imageOcr) : OcrConsistent d :=
  ⟨fun h => absurd h himage, fun h => absurd h hocr⟩

/-- The flags of a page agree. -/
theorem consistent_of_extractionOf {d : CrawledDocument}
    (h : extractionOf d.text d.imageUrls = (d.extractionMethod, d.needsOcr)) : OcrConsistent d := by
  unfold extractionOf at h
  split at h
  · obtain ⟨hmethod, hneeds⟩ := Prod.mk.inj h
    refine ⟨fun _ => hneeds.symm, fun hocr => ?_⟩
    rw [hocr] at hmethod
    cases hmethod
  · split at h
    · have hmethod := (Prod.mk.inj h).1
      exact .of_ne (by simp [← hmethod]) (by simp [← hmethod])
    · have hmethod := (Prod.mk.inj h).1
      exact .of_ne (by simp [← hmethod]) (by simp [← hmethod])

/-- What an API delivers is never an image. -/
theorem consistent_items : OfItems T OcrConsistent fun _ => True := by
  intro c item d _ _ hd
  obtain ⟨attachments, -, hd⟩ := bind_eq_ok.mp hd
  obtain ⟨url, -, hd⟩ := bind_eq_ok.mp hd
  obtain rfl := Except.ok.inj hd
  exact .of_ne (by simp) (by simp)

/-- The step lemma of the flags. -/
theorem next_consistent {c c' : Crawl T} {answer : Answer}
    (hall : c.All OcrConsistent fun _ => True) (hnext : next T K c answer = some c') :
    c'.All OcrConsistent fun _ => True := by
  refine next_all ⟨fun _ _ => trivial, fun _ _ _ _ _ _ _ _ => trivial⟩ consistent_items hall hnext ?_
  rintro candidate rest documents state d rfl hd
  obtain ⟨response, -, hd⟩ := bind_eq_ok.mp hd
  obtain ⟨himage, hocr⟩ := consistent_of_extractionOf (parseDetailResponse_spec hd).2
  exact ⟨himage, hocr⟩

/-- The flags of every document that a crawl reads agree. -/
theorem consistent_of_run {url : Text} {tr : List (Crawl T × Answer)} {result : CrawlColumnResult}
    (hrun : (crawls T K url).Run System.always tr (.done (.ok result))) :
    ∀ d ∈ result.documents, OcrConsistent d := by
  have hall := hrun.invariant (I := fun _ c => c.All OcrConsistent fun _ => True) ?_
    fun _ _ _ _ _ hI _ hstep => next_consistent hI hstep
  · exact hall
  · rintro c rfl
    rcases begin_cases (T := T) (K := K) url with ⟨state, heq, hnone⟩ | ⟨L, heq, -, hnone⟩
    · rw [heq]
      exact discovered_all consistent_items fun _ _ => trivial
    · rw [heq]
      exact fun _ _ => trivial

theorem OcrConsistent.canonical {d : CrawledDocument} (h : OcrConsistent d) (N : NetTools) :
    OcrConsistent (canonicalDocument N d) := by
  unfold canonicalDocument
  split
  · exact h
  · split
    · exact h
    · exact ⟨h.image, h.imageOcr⟩

end

/-! ## Crawls that are lost -/

section

variable {P : FieldTools} {p : Payload} {result : CrawlColumnResult}

/-- The documents that are sent, as the parser rewrites them. -/
def sentDocuments (P : FieldTools) (p : Payload) (result : CrawlColumnResult) :
    List CrawledDocument :=
  (result.documents.take p.maxArticles).map (canonicalDocument P.toNetTools)

/-- A crawl with consistent documents is taken in if its URLs are. -/
theorem startCrawl_ok_iff (hp : p.refusal = none)
    (hocr : ∀ d ∈ result.documents, OcrConsistent d) :
    (∃ r, startCrawl P p (.ok result) = .ok r) ↔
      TakesBatch P p (sentDocuments P p result) result.diagnostics.failures := by
  have htask : p.taskId ≠ [] := by
    intro hnil
    simp [Payload.refusal, hnil] at hp
  have hsent : ∀ d ∈ sentDocuments P p result, OcrConsistent d := by
    intro d hd
    obtain ⟨original, hmem, rfl⟩ := List.mem_map.mp hd
    exact (hocr original (List.mem_of_mem_take hmem)).canonical _
  rw [← modelValidate_iff htask hsent]
  have hcanonical : canonicalizeBatchUrls P.batchTools (.obj (normalized p result)) =
      .obj (batchObject p result (sentDocuments P p result)) :=
    canonicalizeBatchUrls_batchObject result (result.documents.take p.maxArticles)
  have hunwrap : unwrap P.batchTools 3 (.obj (normalized p result)) =
      .ok (.obj (normalized p result)) :=
    unwrap_batchObject result (result.documents.take p.maxArticles)
  have hparse : parseBatchCrawlResponse P.batchTools (.obj (normalized p result)) =
      modelValidate P.batchTools (.obj (batchObject p result (sentDocuments P p result))) >>=
        fun response => .ok (response, .obj (normalized p result)) := by
    rw [parseBatchCrawlResponse, hunwrap, ← hcanonical]
    rfl
  simp only [startCrawl, hp, hparse]
  cases modelValidate P.batchTools (.obj (batchObject p result (sentDocuments P p result))) with
  | error e => simp [bind, Except.bind, Except.mapError]
  | ok response => simp [bind, Except.bind, Except.mapError]

/-- A crawl that ends becomes a batch exactly if the parser takes its URLs: that of the source, those
of the documents that are sent and those of the failures. -/
theorem startCrawl_iff (P : FieldTools) (T : CrawlTools) {p : Payload} {K : Setup} {url : Text}
    {tr : List (Crawl T × Answer)} {result : CrawlColumnResult} (hp : p.refusal = none)
    (hrun : (crawls T K url).Run System.always tr (.done (.ok result))) :
    (∃ r, startCrawl P p (.ok result) = .ok r) ↔
      TakesBatch P p (sentDocuments P p result) result.diagnostics.failures :=
  startCrawl_ok_iff hp (consistent_of_run hrun)

/-! ## Two crawls -/

/-- The libraries for URLs that are written in full. -/
def sampleFields : FieldTools where
  toNetTools := plainTools
  loads _ := none
  render _ := []
  httpUrl url :=
    if (str "http://").isPrefixOf url || (str "https://").isPrefixOf url then some url else none
  readBool
    | .bool b => some b
    | _ => none
  readInt
    | .int n => some n
    | _ => none
  readFloat _ := none
  readTime _ := none
  readBool_bool _ := rfl
  readInt_int _ := rfl

def samplePayload : Payload where
  taskId := str "task-1"
  sourceUrl := str "http://a.gov.cn/list/"
  maxPages := 2

/-- A column with the endpoint of its API as a path. -/
def sampleApiPayload : Payload :=
  { samplePayload with
    pagination := [(str "api", .obj [(str "list_endpoint", .str (str "/api/list"))])] }

/-- What stays the same in a crawl of the sample payload. -/
def localSetup : Setup := { sampleSetup with maxArticles := some 5 }

/-- What stays the same in a crawl with an API. -/
def apiSetup : Setup :=
  { localSetup with
    pagination := [(str "mode", .str (str "html")),
      (str "api", .obj [(str "list_endpoint", .str (str "/api/list"))])] }

theorem setup_samplePayload : samplePayload.column.setup (pageTools samplePages) =
    .ok (localSetup, str "http://a.gov.cn/list/") := by
  rfl

theorem setup_sampleApiPayload : sampleApiPayload.column.setup (pageTools samplePages) =
    .ok (apiSetup, str "http://a.gov.cn/list/") := by
  rfl

/-- Answers that end a crawl are a run of it. -/
theorem run_of_exec {T : CrawlTools} {K : Setup} {url : Text} {answers : List Answer} {c : Crawl T}
    (h : System.exec (next T K) (begin T K url) answers = some c) :
    (crawls T K url).Run System.always (System.traceOf (next T K) (begin T K url) answers) c :=
  ⟨_, rfl, System.exec_path h⟩

/-- A crawl that reads one page becomes a batch. -/
theorem startCrawl_sample :
    ∃ (tr : List (Crawl (pageTools samplePages) × Answer)) (result : CrawlColumnResult),
      samplePayload.column.setup (pageTools samplePages) =
        .ok (localSetup, str "http://a.gov.cn/list/") ∧
      (crawls (pageTools samplePages) localSetup (str "http://a.gov.cn/list/")).Run System.always tr
        (.done (.ok result)) ∧ result.documents.length = 1 ∧
      ∃ r, startCrawl sampleFields samplePayload (.ok result) = .ok r := by
  obtain ⟨result, hexec, hlength, hsent, hfailures⟩ : ∃ result,
      System.exec (next (pageTools samplePages) localSetup)
        (begin (pageTools samplePages) localSetup (str "http://a.gov.cn/list/"))
        [answered (str "http://a.gov.cn/list/") sampleList,
          answered (str "http://a.gov.cn/art/1001.html") sampleDetail] =
            some (.done (.ok result)) ∧
      result.documents.length = 1 ∧
      (sentDocuments sampleFields samplePayload result).map
        (fun d => (d.url, d.attachments, d.imageUrls)) =
          [(str "http://a.gov.cn/art/1001.html", [], [])] ∧
      result.diagnostics.failures = [] :=
    ⟨_, rfl, rfl, rfl, rfl⟩
  have hrun := run_of_exec hexec
  refine ⟨_, result, setup_samplePayload, hrun, hlength,
    (startCrawl_iff sampleFields _ rfl hrun).mpr ⟨rfl, fun d hd => ?_, by simp [hfailures]⟩⟩
  have hmem := List.mem_map_of_mem (f := fun d => (d.url, d.attachments, d.imageUrls)) hd
  rw [hsent, List.mem_singleton, Prod.mk.injEq, Prod.mk.injEq] at hmem
  obtain ⟨hurl, hattachments, himages⟩ := hmem
  refine ⟨?_, by simp [hattachments], by simp [himages]⟩
  rw [hurl]
  rfl

/-- The endpoint of an API that is given as a path, and whose answer is no JSON, becomes the URL of a
failure, and the crawl is lost. -/
theorem startCrawl_relative_endpoint :
    ∃ (tr : List (Crawl (pageTools samplePages) × Answer)) (result : CrawlColumnResult),
      sampleApiPayload.refusal = none ∧
      sampleApiPayload.column.setup (pageTools samplePages) =
        .ok (apiSetup, str "http://a.gov.cn/list/") ∧
      (crawls (pageTools samplePages) apiSetup (str "http://a.gov.cn/list/")).Run System.always tr
        (.done (.ok result)) ∧
      ∃ e, startCrawl sampleFields sampleApiPayload (.ok result) = .error (.validation e) := by
  obtain ⟨result, hexec, hlost⟩ : ∃ result,
      System.exec (next (pageTools samplePages) apiSetup)
        (begin (pageTools samplePages) apiSetup (str "http://a.gov.cn/list/"))
        [answered (str "http://a.gov.cn/list/") (str "<p>"),
          answered (str "http://a.gov.cn/api/list") (str "<p>")] = some (.done (.ok result)) ∧
      ∃ e, startCrawl sampleFields sampleApiPayload (.ok result) = .error (.validation e) :=
    ⟨_, rfl, _, rfl⟩
  exact ⟨_, result, rfl, setup_sampleApiPayload, run_of_exec hexec, hlost⟩

end

end Odirag.Crawl.LocalProvider
