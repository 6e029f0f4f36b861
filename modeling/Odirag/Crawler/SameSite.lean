import Odirag.Crawler.Exits
import Odirag.Crawler.Hosts

/-!
# A crawl and its site

Reference: `_same_site` and its callers in `backend/app/crawler/generic.py`.

`_same_site` compares a host with that of the column. Article links and API items pass it; the next
list page, the endpoint of an API with its next URLs, and the URL that a detail page was answered from
do not. So a crawl stays on its site in the runs in which these lead to it (`crawl_onSite`): the first
list page, a page whose number the crawler raises itself and the document of an API item are on the
site anyway.
-/

namespace Odirag.Crawler

open Json (Fields)

section

variable (T : CrawlTools) (K : Setup)

/-- A URL is on the site of the column. -/
def OnSite (url : Text) : Prop :=
  ∃ host, hostnameOf T url = .ok host ∧ sameSite T K.baseHost host = true

/-- The list page that is requested and every document that is returned are on the site. -/
def Crawl.OnSite (c : Crawl T) : Prop :=
  (∀ url ∈ c.listPage, Crawler.OnSite T K url) ∧ ∀ d ∈ c.documents, Crawler.OnSite T K d.url

variable {T K}

/-- A link of a page leads to a URL. -/
def ListPage.LinksTo (page : ListPage T) (url : Text) : Prop :=
  ∃ tag href, truthyAttr T (T.attr page.doc tag (str "href")) = some href ∧
    safeNormalize T href page.response.url = some url

/-! ## The three ways to a page -/

theorem selectedNext_linksTo {page : ListPage T} {visited selectors : List Text} {url : Text}
    (h : selectedNext T page.doc page.response.url visited selectors = .ok (some url)) :
    page.LinksTo url := by
  induction selectors with
  | nil => cases h
  | cons selector selectors ih =>
      unfold selectedNext at h
      obtain ⟨tags, -, h⟩ := bind_eq_ok.mp h
      dsimp only at h
      split at h
      · next candidate hcandidate =>
          split at h
          · cases h
            obtain ⟨href, hhref, hurl⟩ := Option.bind_eq_some_iff.mp hcandidate
            obtain ⟨tag, -, hattr⟩ := Option.bind_eq_some_iff.mp hhref
            exact ⟨tag, href, hattr, hurl⟩
          · exact ih h
      · exact ih h

theorem linkedNext_linksTo {page : ListPage T} {pagination : Fields} {visited : List Text}
    {currentPage : Option ℕ} {tags : List T.Tag} {found : Option Text} {numbered : List (ℕ × Text)}
    (h : linkedNext T page.doc page.response.url pagination visited currentPage tags =
      .ok (found, numbered)) :
    (∀ url ∈ found, page.LinksTo url) ∧ ∀ link ∈ numbered, page.LinksTo link.2 := by
  induction tags generalizing found numbered with
  | nil =>
      cases h
      simp
  | cons tag tags ih =>
      unfold linkedNext at h
      split at h
      · exact ih h
      · next href hhref =>
          split at h
          · exact ih h
          · next candidate hcandidate =>
              have hlink : page.LinksTo candidate := ⟨tag, href, hhref, hcandidate⟩
              split at h
              · cases h
                refine ⟨fun url hurl => ?_, by simp⟩
                cases hurl
                exact hlink
              · obtain ⟨number, -, h⟩ := bind_eq_ok.mp h
                obtain ⟨⟨found', rest⟩, hrest, h⟩ := bind_eq_ok.mp h
                cases h
                obtain ⟨hfound, hnumbered⟩ := ih hrest
                refine ⟨hfound, fun link hmem => ?_⟩
                rcases List.mem_append.mp hmem with hmem | hmem
                · rw [Option.mem_toList, Option.map_eq_some_iff] at hmem
                  obtain ⟨n, -, rfl⟩ := hmem
                  exact hlink
                · exact hnumbered link hmem

theorem leastNumbered_mem {links : List (ℕ × Text)} {link : ℕ × Text}
    (h : leastNumbered links = some link) : link ∈ links := by
  induction links generalizing link with
  | nil => cases h
  | cons first links ih =>
      unfold leastNumbered at h
      split at h
      · cases h
        exact List.mem_cons_self
      · next least hleast =>
          split at h
          · cases h
            exact List.mem_cons_of_mem _ (ih hleast)
          · cases h
            exact List.mem_cons_self

/-- The next page is one that a link leads to, or the page itself with another number. -/
theorem findNextPage_some {page : ListPage T} {pagination : Fields} {visited : List Text} {url : Text}
    (h : findNextPage T page.doc page.response.url pagination visited = .ok (some url)) :
    page.LinksTo url ∨ ∃ key value, replaceQuery T page.response.url key value = .ok url := by
  unfold findNextPage at h
  obtain ⟨selected, hselected, h⟩ := bind_eq_ok.mp h
  split at h
  · cases h
    exact .inl (selectedNext_linksTo hselected)
  · obtain ⟨currentPage, -, h⟩ := bind_eq_ok.mp h
    obtain ⟨tags, -, h⟩ := bind_eq_ok.mp h
    obtain ⟨⟨labelled, numbered⟩, hlinked, h⟩ := bind_eq_ok.mp h
    obtain ⟨hlabelled, hnumbered⟩ := linkedNext_linksTo hlinked
    dsimp only at h
    split at h
    · cases h
      exact .inl (hlabelled _ rfl)
    · next link hleast =>
        cases h
        exact .inl (hnumbered link (leastNumbered_mem hleast))
    · obtain ⟨param, -, h⟩ := bind_eq_ok.mp h
      split at h
      · cases h
      · obtain ⟨generated, hgenerated, hsome⟩ := map_eq_ok.mp h
        cases hsome
        exact .inr ⟨_, _, hgenerated⟩

/-- The next page of an API is the one that the answer names, or the same page with another
number. -/
theorem nextApiUrl_some {payload : Json} {currentUrl url : Text} {config : Fields} {pageIndex : ℕ}
    (h : nextApiUrl T payload currentUrl config pageIndex = .ok (some url)) :
    (∃ value, namedNext payload = some value ∧ safeNormalize T value currentUrl = some url) ∨
      ∃ key value, replaceQuery T currentUrl key value = .ok url := by
  unfold nextApiUrl at h
  split at h
  · next value hvalue => exact .inl ⟨value, hvalue, Except.ok.inj h⟩
  · dsimp only at h
    split at h
    · cases h
    · obtain ⟨current, -, h⟩ := bind_eq_ok.mp h
      obtain ⟨generated, hgenerated, hsome⟩ := map_eq_ok.mp h
      cases hsome
      exact .inr ⟨_, _, hgenerated⟩

/-! ## URLs that stay on the site -/

theorem hostnameOf_ok {url host : Text} (h : hostnameOf T url = .ok host) :
    ∃ parsed, Url.urlsplit T.toTools url = some parsed ∧
      (parsed.hostname T.toTools).getD [] = host := by
  unfold hostnameOf split at h
  cases hsplit : Url.urlsplit T.toTools url with
  | none => simp [hsplit, Except.map] at h
  | some parsed =>
      refine ⟨parsed, rfl, ?_⟩
      simpa [hsplit, Except.map] using h

/-- A URL with the netloc of one on the site is on the site. -/
theorem OnSite.of_netloc {url url' : Text} (h : OnSite T K url)
    (hsame : ∀ parsed, Url.urlsplit T.toTools url = some parsed →
      ∃ parsed', Url.urlsplit T.toTools url' = some parsed' ∧ parsed'.netloc = parsed.netloc) :
    OnSite T K url' := by
  obtain ⟨host, hhost, hsite⟩ := h
  obtain ⟨parsed, hsplit, rfl⟩ := hostnameOf_ok hhost
  obtain ⟨parsed', hsplit', hnetloc⟩ := hsame parsed hsplit
  refine ⟨_, ?_, hsite⟩
  simp [hostnameOf, split, hsplit', Except.map, Url.SplitResult.hostname_congr T.toTools hnetloc]

theorem sameSite_nil (hlower : LowerLaws T.lower) (base : Text) : sameSite T base [] = false := by
  have hnil : T.lower [] = [] := hlower.fixed [] [] (by simp)
  simp [sameSite, hnil, rstripDots]

/-- Another number in the query leaves a page on the site. -/
theorem OnSite.replaceQuery (hlower : LowerLaws T.lower) {url url' key value : Text}
    (h : OnSite T K url) (hreplace : Crawler.replaceQuery T url key value = .ok url') :
    OnSite T K url' := by
  obtain ⟨host, hhost, hsite⟩ := h
  obtain ⟨parsed, hsplit, rfl⟩ := hostnameOf_ok hhost
  have hne : parsed.netloc ≠ [] := by
    intro hnil
    rw [Url.hostname_of_netloc_nil T.toTools hnil, Option.getD_none, sameSite_nil hlower] at hsite
    cases hsite
  refine OnSite.of_netloc ⟨_, hhost, hsite⟩ fun parsed' hsplit' => ?_
  obtain rfl : parsed = parsed' := Option.some.inj (hsplit.symm.trans hsplit')
  simp only [Crawler.replaceQuery, Crawler.split, hsplit] at hreplace
  cases hreplace
  obtain ⟨r, hr, -, hnetloc⟩ := Url.urlsplit_urlunsplit hsplit hne parsed.path
    (Url.urlencode ((Url.parseQsl T.toTools parsed.query).filter (fun pair => pair.1 ≠ key)
      ++ [(key, value)])) []
  exact ⟨r, hr, hnetloc⟩

theorem normalize_ok {url url' base : Text} (h : normalize T url base = .ok url') :
    normalizeUrl T.toNetTools url base = .ok url' := by
  unfold normalize at h
  cases hurl : normalizeUrl T.toNetTools url base with
  | error e => simp [hurl, Except.mapError] at h
  | ok url => simpa [hurl, Except.mapError] using h

/-- Normalising a normalised URL leaves it on the site. -/
theorem OnSite.normalize (hlower : LowerLaws T.lower) {absolute url url' : Text}
    (habsolute : normalizeAbsolute T.toNetTools absolute = .ok url) (h : OnSite T K url)
    (hnormalize : Crawler.normalize T url = .ok url') : OnSite T K url' := by
  refine h.of_netloc fun parsed hsplit => ?_
  obtain ⟨_, _, _, -, -, hnormal⟩ := normalizeAbsolute_normal hlower habsolute
  exact hnormal.again hlower hsplit (normalize_ok hnormalize)

/-- The first list page is on the site. -/
theorem onSite_setup (hlower : LowerLaws T.lower) {column : Column} {url : Text}
    (h : column.setup T = .ok (K, url)) : OnSite T K url := by
  unfold Column.setup at h
  dsimp only at h
  split_ifs at h
  split at h
  · cases h
  · next url' baseHost hurl =>
      obtain ⟨normalized, hnormalize, hurl⟩ := bind_eq_ok.mp hurl
      obtain ⟨host, hhost, hurl⟩ := bind_eq_ok.mp hurl
      cases hurl
      cases h
      obtain ⟨parsed, host', rest, -, -, hnormal⟩ :=
        normalizeAbsolute_normal hlower (normalize_ok hnormalize)
      obtain ⟨parsed', hsplit, hname⟩ := hostnameOf_ok hhost
      have hsame : host = host' := by
        rw [← hname, hnormal.hostname hlower hsplit, Option.getD_some]
      have hlow : T.lower host' = host' := hnormal.normal.lower_eq hlower fun c hc => hc
      refine ⟨host, hhost, ?_⟩
      simp [sameSite, hsame, hlow, hnormal.normal.undotted, hnormal.normal.ne_nil]

/-! ## Items of an API -/

theorem normalizeUrl_absolute {url base result : Text}
    (h : normalizeUrl T.toNetTools url base = .ok result) :
    ∃ absolute, normalizeAbsolute T.toNetTools absolute = .ok result := by
  unfold normalizeUrl at h
  split at h
  · exact ⟨url, h⟩
  · split at h
    · cases h
    · next absolute _ => exact ⟨absolute, h⟩

theorem safeNormalize_some {url base result : Text} (h : safeNormalize T url base = some result) :
    normalizeUrl T.toNetTools url base = .ok result := by
  unfold safeNormalize at h
  cases hurl : normalizeUrl T.toNetTools url base with
  | error e => simp [hurl, Except.toOption] at h
  | ok url => simpa [hurl, Except.toOption] using h

/-- The candidate of an API item has a normalised URL. -/
theorem candidateFromApiItem_url {item config : Fields} {baseUrl : Text} {c : CandidateLink}
    (h : candidateFromApiItem T item config baseUrl = .ok (some c)) :
    ∃ absolute, normalizeAbsolute T.toNetTools absolute = .ok c.url := by
  obtain ⟨value, -, h⟩ := bind_eq_ok.mp h
  split at h
  · cases h
  · split at h
    · cases h
    · next url hurl =>
        obtain ⟨⟨score, reasons⟩, -, h⟩ := bind_eq_ok.mp h
        cases h
        exact normalizeUrl_absolute (safeNormalize_some hurl)

/-- An API item leads to a normalised URL on the site. -/
def ItemOnSite (T : CrawlTools) (K : Setup) (c : CandidateLink) : Prop :=
  c.apiItem ≠ none →
    (∃ absolute, normalizeAbsolute T.toNetTools absolute = .ok c.url) ∧ OnSite T K c.url

theorem itemOnSite_candidates : OfCandidates T K (ItemOnSite T K) where
  link _ hnone hitem := absurd hnone hitem
  item _ _ _ _ host hcandidate hhost hsite _ :=
    ⟨candidateFromApiItem_url hcandidate, host, hhost, hsite⟩

theorem onSite_items (hlower : LowerLaws T.lower) :
    OfItems T (fun d => OnSite T K d.url) (ItemOnSite T K) := by
  intro c item d hc hitem hd
  obtain ⟨⟨absolute, habsolute⟩, hsite⟩ := hc (by simp [hitem])
  obtain ⟨attachments, -, hd⟩ := bind_eq_ok.mp hd
  obtain ⟨url, hurl, hd⟩ := bind_eq_ok.mp hd
  cases hd
  exact hsite.normalize hlower habsolute hurl

/-- A document has the normalised URL of the answer, and its flags are those of its text and images. -/
theorem parseDetailResponse_spec {response : FetchResponse} {selectors : Fields}
    {d : CrawledDocument} (h : parseDetailResponse T response selectors = .ok d) :
    normalize T response.url = .ok d.url ∧
      extractionOf d.text d.imageUrls = (d.extractionMethod, d.needsOcr) := by
  unfold parseDetailResponse at h
  obtain ⟨html, -, h⟩ := bind_eq_ok.mp h
  obtain ⟨doc, -, h⟩ := bind_eq_ok.mp h
  obtain ⟨titleElement, -, h⟩ := bind_eq_ok.mp h
  obtain ⟨contentElement, -, h⟩ := bind_eq_ok.mp h
  split at h
  · cases h
  · cases h
  · obtain ⟨nodes, -, h⟩ := bind_eq_ok.mp h
    dsimp only at h
    obtain ⟨dateElement, -, h⟩ := bind_eq_ok.mp h
    obtain ⟨tags, -, h⟩ := bind_eq_ok.mp h
    obtain ⟨attachments, -, h⟩ := bind_eq_ok.mp h
    obtain ⟨images, -, h⟩ := bind_eq_ok.mp h
    split at h
    · cases h
    · obtain ⟨url, hurl, h⟩ := bind_eq_ok.mp h
      cases h
      exact ⟨hurl, rfl⟩

theorem parseDetailResponse_url {response : FetchResponse} {selectors : Fields}
    {d : CrawledDocument} (h : parseDetailResponse T response selectors = .ok d) :
    normalize T response.url = .ok d.url :=
  (parseDetailResponse_spec h).1

/-! ## Runs -/

/-- The page that is requested after a list page is on the site: a link leads to the site, or the
page with a raised number was answered from it. -/
def NextStays (T : CrawlTools) (K : Setup) (page : ListPage T) (L : Listing) : Prop :=
  ∀ url, findNextPage T page.doc page.response.url K.pagination L.visited = .ok (some url) →
    L.state.candidates.length < K.pageLimit →
    L.noNewPages < intConfig T.toNetTools K.pagination (str "stop_after_no_new_pages") 2 →
    L.pageIndex + 1 < K.maxPages → url ∉ L.visited →
    (page.LinksTo url → OnSite T K url) ∧ (¬ page.LinksTo url → OnSite T K page.response.url)

/-- The answer to a request for a detail page, if a document is read from it, comes from the
site. -/
def DetailStays (T : CrawlTools) (K : Setup) : Crawl T → Answer → Prop
  | .detail _ _ _ _, .ok response =>
      ∀ d, parseDetailResponse T response K.detailSelectors = .ok d →
        ∀ url, normalize T response.url = .ok url → OnSite T K url
  | _, _ => True

/-- The answer leads to the foot of the loop over the list pages. -/
def ReachesFoot (T : CrawlTools) (K : Setup) (c : Crawl T) (answer : Answer) (page : ListPage T)
    (L : Listing) : Prop :=
  next T K c answer = some (leavePage T K page L)

/-- A step stays on the site. -/
def StepStays (T : CrawlTools) (K : Setup) (c : Crawl T) (answer : Answer) : Prop :=
  (∀ page L, ReachesFoot T K c answer page L → NextStays T K page L) ∧ DetailStays T K c answer

/-- A step leads to no page of an API outside the site: the hints of a list page without candidates
and the next URL of an answer lead to the site. -/
def ApiStays (T : CrawlTools) (K : Setup) : Crawl T → Answer → Prop
  | .listing L, .ok response =>
      ∀ page text L', readPage T K L response = .ok (page, text, L') →
        L'.state.candidates = [] → L'.pageIndex = 0 →
        ∀ hint ∈ (apiHints T (apiConfig K.selectors K.pagination) page text).take 3,
          ∀ url, normalize T hint page.response.url = .ok url → OnSite T K url
  | .api A, .ok response =>
      ∀ payload value url, (T.decode response.content response.encoding >>= T.loads) = .ok payload →
        namedNext payload = some value → safeNormalize T value A.pageUrl = some url →
        OnSite T K url
  | _, _ => True

theorem Exit.listPage {Q : CandidateLink → Prop} {S : ListPage T → List Text → Text → Prop}
    (hlower : LowerLaws T.lower) {c : Crawl T} (h : Exit T K Q S c)
    (hnext : ∀ page L, c = leavePage T K page L → NextStays T K page L) :
    ∀ url ∈ c.listPage, OnSite T K url := by
  cases h with
  | foot page L found =>
      rcases leavePage_cases page L with ⟨state, heq, -⟩ | ⟨exc, heq⟩ | hlisting
      · rw [heq]
        simp [discovered, (details_pages _ _ _).1]
      · rw [heq]
        simp [Crawl.listPage]
      · obtain ⟨url, L', hfound, hlimit, hstop, hindex, hvisited, heq, -, hcurrent, -, -, -⟩ :=
          hlisting
        obtain ⟨hlink, hnumber⟩ := hnext page L rfl url hfound hlimit hstop hindex hvisited
        rw [heq]
        intro url' hurl'
        obtain rfl : L'.current = url' := Option.some.inj hurl'
        rw [hcurrent]
        by_cases hto : page.LinksTo url
        · exact hlink hto
        · rcases findNextPage_some hfound with hto' | ⟨key, value, hreplace⟩
          · exact absurd hto' hto
          · exact (hnumber hto).replaceQuery hlower hreplace
  | api A found source => simp [Crawl.listPage]
  | finished state found => simp [discovered, (details_pages _ _ _).1]
  | failed error => simp [Crawl.listPage]

/-- A crawl begins with the end of the discovery or with the first list page. -/
theorem begin_cases (url : Text) :
    (∃ state, begin T K url = discovered T K state ∧ state.candidates = []) ∨
      ∃ L, begin T K url = .listing L ∧ L.current = url ∧ L.state.candidates = [] := by
  rcases enterPage_cases (T := T) (K := K) 0 (some url) (.first url) with
    ⟨state, heq, hsame⟩ | ⟨url', hurl, -, -, heq⟩
  · exact .inl ⟨state, heq, hsame⟩
  · cases hurl
    exact .inr ⟨_, heq, rfl, rfl⟩

/-- The step lemma of a crawl that stays on its site. -/
theorem next_onSite (hlower : LowerLaws T.lower) {c c' : Crawl T} {answer : Answer}
    (hall : c.All (fun d => OnSite T K d.url) (ItemOnSite T K)) (hnext : next T K c answer = some c')
    (hstays : StepStays T K c answer) :
    c'.All (fun d => OnSite T K d.url) (ItemOnSite T K) ∧ ∀ url ∈ c'.listPage, OnSite T K url := by
  obtain ⟨hfoot, hdetail⟩ := hstays
  constructor
  · refine next_all itemOnSite_candidates (onSite_items hlower) hall hnext ?_
    rintro candidate rest documents state d rfl hd
    obtain ⟨response, rfl, hd⟩ := bind_eq_ok.mp hd
    exact hdetail d hd d.url (parseDetailResponse_url hd)
  · cases c with
    | listing L =>
        obtain rfl := Option.some.inj hnext
        refine (readList_exit (S := fun _ _ _ => True) itemOnSite_candidates hall
          fun _ _ _ _ _ _ _ _ _ _ _ _ _ _ => trivial).listPage hlower fun page L' heq => ?_
        exact hfoot page L' (congrArg some heq)
    | api A =>
        obtain rfl := Option.some.inj hnext
        refine (readApi_exit (S := fun _ _ _ => True) itemOnSite_candidates hall
          (fun _ _ _ _ _ _ => trivial) fun _ _ _ _ _ _ => trivial).listPage hlower
          fun page L' heq => ?_
        exact hfoot page L' (congrArg some heq)
    | detail candidate rest documents state =>
        obtain rfl := Option.some.inj hnext
        simp [(details_pages _ _ _).1]
    | done outcome => cases hnext

/-- What is known of the API that a crawl reads: its page and the hints that are left lead to the
site. -/
def ApiOnSite (T : CrawlTools) (K : Setup) (page : ListPage T) (hints : List Text) (url : Text) :
    Prop :=
  OnSite T K url ∧
    ∀ hint ∈ hints, ∀ url, normalize T hint page.response.url = .ok url → OnSite T K url

theorem hintsLead_onSite {page : ListPage T} {hints : List Text}
    (h : ∀ hint ∈ hints, ∀ url, normalize T hint page.response.url = .ok url → OnSite T K url) :
    HintsLead (ApiOnSite T K) page hints := by
  rintro before hint rest url rfl hurl
  exact ⟨h hint (by simp) url hurl, fun hint' hmem => h hint' (by simp [hmem])⟩

/-- The step lemma of a crawl that reads its API on its site. -/
theorem next_apiOnSite (hlower : LowerLaws T.lower) {c c' : Crawl T} {answer : Answer}
    (hapi : ∀ A, c = .api A → ApiOnSite T K A.page A.hints A.pageUrl)
    (hnext : next T K c answer = some c') (hstays : ApiStays T K c answer) :
    ∀ A, c' = .api A → ApiOnSite T K A.page A.hints A.pageUrl := by
  have hQ : OfCandidates T K fun _ => True := ⟨fun _ _ => trivial, fun _ _ _ _ _ _ _ _ => trivial⟩
  intro A' hA'
  cases c with
  | listing L =>
      obtain rfl := Option.some.inj hnext
      refine (readList_exit (Q := fun _ => True) hQ (fun _ _ => trivial) ?_).source hA'
      rintro response page text L' rfl hread hempty hindex
      exact hintsLead_onSite (hstays page text L' hread hempty hindex)
  | api A =>
      obtain rfl := Option.some.inj hnext
      obtain ⟨hpage, hhints⟩ := hapi A rfl
      refine (readApi_exit (Q := fun _ => True) hQ (fun _ _ => trivial) (hintsLead_onSite hhints)
        ?_).source hA'
      rintro response payload url rfl hpayload hurl
      refine ⟨?_, hhints⟩
      rcases nextApiUrl_some hurl with ⟨value, hvalue, hnamed⟩ | ⟨key, value, hreplace⟩
      · exact hstays payload value url hpayload hvalue hnamed
      · exact hpage.replaceQuery hlower hreplace
  | detail candidate rest documents state =>
      obtain rfl := Option.some.inj hnext
      have hpage := congrArg Crawl.apiPage hA'
      rw [(details_pages _ _ _).2] at hpage
      cases hpage
  | done outcome => cases hnext

/-- A step that requests no list page stays on the site if its document does. -/
theorem stepStays_of_listPage {c c' : Crawl T} {answer : Answer} (hnext : next T K c answer = some c')
    (hpage : c'.listPage = none) (hdetail : DetailStays T K c answer) : StepStays T K c answer := by
  refine ⟨fun page L hfoot => ?_, hdetail⟩
  obtain rfl : c' = leavePage T K page L := Option.some.inj (hnext.symm.trans hfoot)
  intro url hfound hlimit hstop hindex hvisited
  have hlisting : (leavePage T K page L).listPage = some url := by
    simp only [leavePage, Nat.not_le.mpr hlimit, if_false, Nat.not_le.mpr hstop, hfound, enterPage,
      Nat.not_le.mpr hindex, hvisited]
    rfl
  rw [hpage] at hlisting
  cases hlisting

/-- An answer from the site gives a document on the site. -/
theorem detailStays_of_answer {c : Crawl T} {response : FetchResponse}
    (h : ∀ url, normalize T response.url = .ok url → OnSite T K url) :
    DetailStays T K c (.ok response) := by
  cases c with
  | detail candidate rest documents state => exact fun _ _ => h
  | listing L => trivial
  | api A => trivial
  | done outcome => trivial

theorem not_onSite {url host : Text} (hhost : hostnameOf T url = .ok host)
    (hsite : sameSite T K.baseHost host = false) : ¬ OnSite T K url := by
  rintro ⟨host', hhost', hsite'⟩
  rw [hhost] at hhost'
  cases hhost'
  rw [hsite] at hsite'
  cases hsite'

/-- A crawl stays on its site in the runs whose steps do, and so do the pages of an API that it
requests in the runs in which they are named on it. -/
theorem crawl_onSite (hlower : LowerLaws T.lower) {column : Column} {url : Text}
    (h : column.setup T = .ok (K, url)) :
    (∀ tr c, (crawls T K url).Run (fun _ c answer _ => StepStays T K c answer) tr c →
      c.OnSite T K) ∧
    ∀ tr c, (crawls T K url).Run (fun _ c answer _ => ApiStays T K c answer) tr c →
      ∀ url ∈ c.apiPage, OnSite T K url := by
  constructor
  · intro tr c hrun
    -- The invariant is about everything the crawl still has to request, not only about the next
    -- page.
    have hinvariant := hrun.invariant (I := fun _ c =>
        c.All (fun d => OnSite T K d.url) (ItemOnSite T K) ∧ ∀ url ∈ c.listPage, OnSite T K url)
      ?_ fun _ _ _ _ _ hI hstays hstep => next_onSite hlower hI.1 hstep hstays
    · exact ⟨hinvariant.2, hinvariant.1.documents⟩
    · rintro c rfl
      -- The first step requests the column itself, or nothing at all.
      rcases begin_cases (T := T) (K := K) url with ⟨state, heq, hnone⟩ | ⟨L, heq, hcurrent, hnone⟩
      · rw [heq]
        refine ⟨discovered_all (onSite_items hlower) (by simp [hnone]), ?_⟩
        simp [discovered, (details_pages _ _ _).1]
      · rw [heq]
        refine ⟨fun c hc => ?_, fun url' hurl' => ?_⟩
        · rw [hnone] at hc
          cases hc
        · obtain rfl : L.current = url' := Option.some.inj hurl'
          exact hcurrent ▸ onSite_setup hlower h
  · intro tr c hrun
    have hinvariant := hrun.invariant
      (I := fun _ c => ∀ A, c = .api A → ApiOnSite T K A.page A.hints A.pageUrl)
      ?_ fun _ _ _ _ _ hI hstays hstep => next_apiOnSite hlower hI hstep hstays
    · intro url' hurl'
      cases c with
      | api A =>
          obtain rfl : A.pageUrl = url' := Option.some.inj hurl'
          exact (hinvariant A rfl).1
      | listing L => cases hurl'
      | detail candidate rest documents state => cases hurl'
      | done outcome => cases hurl'
    · rintro c rfl A hA
      have hpage := congrArg Crawl.apiPage hA
      rcases begin_cases (T := T) (K := K) url with ⟨state, heq, -⟩ | ⟨L, heq, -, -⟩
      · rw [heq, discovered, (details_pages _ _ _).2] at hpage
        cases hpage
      · rw [heq] at hpage
        cases hpage

end

/-! ## A sample site -/

/-- A list page with an article. -/
def sampleList : Text := str "<a href='/art/1001.html'>notice</a>"

/-- A list page with an article and a next page on another site. -/
def sampleLeavingList : Text :=
  str "<a href='/art/1001.html'>notice</a><a rel='next' href='http://b.com/list/'>more</a>"

/-- A detail page. -/
def sampleDetail : Text := str "<h1>Notice</h1><article>Text of the notice</article>"

/-- What the three pages consist of. -/
def samplePages : List (Text × List Element) :=
  let article : Element :=
    { name := str "a", text := str "notice", attrs := [(str "href", str "/art/1001.html")] }
  [(sampleList, [article]),
   (sampleLeavingList, [article,
    { name := str "a"
      text := str "more"
      attrs := [(str "rel", str "next"), (str "href", str "http://b.com/list/")] }]),
   (sampleDetail, [{ name := str "h1", text := str "Notice" },
    { name := str "article", text := str "Text of the notice" }])]

/-- A column of the sample site. -/
def sampleColumn : Column := { columnUrl := str "http://a.gov.cn/list/", maxPages := 2 }

/-- What stays the same in a crawl of the column. -/
def sampleSetup : Setup where
  selectors := []
  detailSelectors := []
  pagination := [(str "mode", .str (str "html"))]
  baseHost := str "a.gov.cn"
  maxPages := 2
  maxArticles := none

/-- A page that is answered. -/
def answered (url text : Text) : Answer :=
  .ok { url := url
        statusCode := 200
        content := text.map fun c => UInt8.ofNat c.toNat
        contentType := str "text/html"
        encoding := str "utf-8"
        contentDisposition := none }

theorem setup_sample : sampleColumn.setup (pageTools samplePages) =
    .ok (sampleSetup, str "http://a.gov.cn/list/") := by
  rfl

/-- A crawl of the sample site reads a document, and every crawl of it whose steps stay there is on
the site. -/
theorem crawl_onSite_sample :
    (∃ tr c, (crawls (pageTools samplePages) sampleSetup (str "http://a.gov.cn/list/")).Run
      (fun _ c answer _ => StepStays (pageTools samplePages) sampleSetup c answer) tr c ∧
      c.documents ≠ []) ∧
    ∀ tr c, (crawls (pageTools samplePages) sampleSetup (str "http://a.gov.cn/list/")).Run
      (fun _ c answer _ => StepStays (pageTools samplePages) sampleSetup c answer) tr c →
      c.OnSite (pageTools samplePages) sampleSetup := by
  refine ⟨?_, (crawl_onSite lowerLaws_ascii setup_sample).1⟩
  obtain ⟨c₁, c₂, hlist, hdetail, hpage₁, hpage₂, hdocuments⟩ :
      ∃ c₁ c₂, next (pageTools samplePages) sampleSetup
        (begin (pageTools samplePages) sampleSetup (str "http://a.gov.cn/list/"))
        (answered (str "http://a.gov.cn/list/") sampleList) = some c₁ ∧
      next (pageTools samplePages) sampleSetup c₁
        (answered (str "http://a.gov.cn/art/1001.html") sampleDetail) = some c₂ ∧
      c₁.listPage = none ∧ c₂.listPage = none ∧ c₂.documents.length = 1 :=
    ⟨_, _, rfl, rfl, rfl, rfl, rfl⟩
  have honsite : ∀ answered normal url, normalize (pageTools samplePages) answered = .ok normal →
      hostnameOf (pageTools samplePages) normal = .ok (str "a.gov.cn") →
      normalize (pageTools samplePages) answered = .ok url →
      OnSite (pageTools samplePages) sampleSetup url := by
    intro answered normal url hnormal hhost hurl
    obtain rfl : normal = url := Except.ok.inj (hnormal.symm.trans hurl)
    exact ⟨_, hhost, by decide +kernel⟩
  refine ⟨_, c₂, ⟨_, rfl, .cons (.cons .nil
    (stepStays_of_listPage hlist hpage₁ (detailStays_of_answer fun url hurl => ?_)) hlist)
    (stepStays_of_listPage hdetail hpage₂ (detailStays_of_answer fun url hurl => ?_)) hdetail⟩,
    List.ne_nil_of_length_eq_add_one hdocuments⟩
  · exact honsite _ (str "http://a.gov.cn/list/") url rfl rfl hurl
  · exact honsite _ (str "http://a.gov.cn/art/1001.html") url rfl rfl hurl

/-- A page that names another site as its next one is followed there, and a detail page that is
answered from another site becomes a document of the column. -/
theorem crawl_leaves_site :
    ∃ (T : CrawlTools) (K : Setup) (column : Column) (url : Text), LowerLaws T.lower ∧
      column.setup T = .ok (K, url) ∧
      (∃ tr c, (crawls T K url).Run System.always tr c ∧ ∃ u ∈ c.listPage, ¬ OnSite T K u) ∧
      ∃ tr c, (crawls T K url).Run System.always tr c ∧ ∃ d ∈ c.documents, ¬ OnSite T K d.url := by
  refine ⟨pageTools samplePages, sampleSetup, sampleColumn, _, lowerLaws_ascii, setup_sample, ?_, ?_⟩
  · obtain ⟨c₁, hlist, hpage⟩ : ∃ c₁, next (pageTools samplePages) sampleSetup
        (begin (pageTools samplePages) sampleSetup (str "http://a.gov.cn/list/"))
        (answered (str "http://a.gov.cn/list/") sampleLeavingList) = some c₁ ∧
        c₁.listPage = some (str "http://b.com/list/") := ⟨_, rfl, rfl⟩
    exact ⟨_, c₁, ⟨_, rfl, .cons .nil trivial hlist⟩, str "http://b.com/list/", hpage,
      not_onSite (show _ = Except.ok (str "b.com") from rfl) (by decide +kernel)⟩
  · obtain ⟨c₁, c₂, hlist, hdetail, hdocuments⟩ :
        ∃ c₁ c₂, next (pageTools samplePages) sampleSetup
          (begin (pageTools samplePages) sampleSetup (str "http://a.gov.cn/list/"))
          (answered (str "http://a.gov.cn/list/") sampleList) = some c₁ ∧
        next (pageTools samplePages) sampleSetup c₁
          (answered (str "http://b.com/art/1001.html") sampleDetail) = some c₂ ∧
        c₂.documents.map CrawledDocument.url = [str "http://b.com/art/1001.html"] :=
      ⟨_, _, rfl, rfl, rfl⟩
    obtain ⟨d, hd, hurl⟩ : ∃ d ∈ c₂.documents, d.url = str "http://b.com/art/1001.html" := by
      rw [← List.mem_map, hdocuments]
      exact List.mem_singleton_self _
    refine ⟨_, c₂, ⟨_, rfl, .cons (.cons .nil trivial hlist) trivial hdetail⟩, d, hd, ?_⟩
    rw [hurl]
    exact not_onSite (show _ = Except.ok (str "b.com") from rfl) (by decide +kernel)

end Odirag.Crawler
