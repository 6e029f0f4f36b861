import Odirag.Crawler.SameSite
import Odirag.Crawler.NormalForm

/-!
# No page twice

Reference: `GenericCrawler` of `backend/app/crawler/generic.py`.

A crawl compares the next list page with those it visited, and a link with the details it has seen, as
texts. That keeps it from a second request exactly as far as the texts are normal forms: a link gives
one, but the page whose number the crawler raises itself is not normalised (`replaceQuery_normal_iff`).
And a first list page that is taken for a detail page is a candidate that is not among the details
seen. So no list page is requested twice in the runs whose next pages are normal forms, and no
candidate is found twice in the runs in which no page links to such a candidate (`crawl_once`).
-/

namespace Odirag.Crawler

open Json (Fields)

/-! ## Requests -/

section

variable {T : CrawlTools}

/-- The requests of a kind in a run, the first one first. -/
def requested (request : Crawl T → Option Text) (tr : List (Crawl T × Answer)) (c : Crawl T) :
    List Text :=
  (tr.map Prod.fst).reverse.filterMap request ++ (request c).toList

@[simp] theorem requested_nil (request : Crawl T → Option Text) (c : Crawl T) :
    requested request [] c = (request c).toList := rfl

theorem requested_cons (request : Crawl T → Option Text) (tr : List (Crawl T × Answer))
    (c c' : Crawl T) (answer : Answer) : requested request ((c, answer) :: tr) c' =
      requested request tr c ++ (request c').toList := by
  cases hc : request c <;> simp [requested, hc]

/-- The detail page that a crawl waits for. -/
def Crawl.detailPage : Crawl T → Option Text
  | .detail candidate _ _ _ => some candidate.url
  | _ => none

/-- The candidates that were found. -/
def Crawl.candidates : Crawl T → List CandidateLink
  | .listing L => L.state.candidates
  | .api A => A.listing.state.candidates
  | .detail _ _ _ state => state.candidates
  | .done (.ok result) => result.diagnostics.candidateLinks
  | .done (.error _) => []

/-- The loop over the list pages. -/
def Crawl.loop : Crawl T → Option Listing
  | .listing L => some L
  | .api A => some A.listing
  | _ => none

/-- The candidates whose detail pages are not requested yet. -/
def Crawl.rest : Crawl T → List CandidateLink
  | .listing L => L.state.candidates
  | .api A => A.listing.state.candidates
  | .detail _ rest _ _ => rest
  | .done _ => []

/-- The URLs of candidates. -/
def urlsOf (candidates : List CandidateLink) : List Text := candidates.map CandidateLink.url

end

section

variable (T : CrawlTools) (K : Setup)

/-- A URL in normal form. -/
def Normal (url : Text) : Prop := normalize T url = .ok url

/-- The list page that follows a page, if the crawl may request another one, has a property. -/
def NextPage (P : Text → Prop) (page : ListPage T) (L : Listing) : Prop :=
  L.pageIndex + 1 < K.maxPages → ∀ url,
    findNextPage T page.doc page.response.url K.pagination L.visited = .ok (some url) →
      url ∉ L.visited → P url

/-- If a list page is read, the one that follows it has a property. -/
def StepNext (P : Text → Prop) : Crawl T → Answer → Prop
  | .listing L, .ok response =>
      ∀ page text L', readPage T K L response = .ok (page, text, L') → NextPage T K P page L'
  | _, _ => True

/-- No link of a list page leads to a candidate that is not among the details seen. -/
def StepFresh : Crawl T → Answer → Prop
  | .listing L, .ok response =>
      ∀ text doc candidates, T.decode response.content response.encoding = .ok text →
        T.parse text = .ok doc →
        extractCandidates T doc response.url K.baseHost K.selectors K.pagination L.current =
          .ok candidates →
        ∀ c ∈ candidates, c.url ∈ urlsOf L.state.candidates → c.url ∈ L.seen
  | _, _ => True

end

section

variable {T : CrawlTools} {K : Setup}

/-! ## Normal forms -/

theorem normal_iff {url : Text} :
    Normal T url ↔ normalizeAbsolute T.toNetTools url = .ok url := by
  have hself : normalizeUrl T.toNetTools url [] = normalizeAbsolute T.toNetTools url := rfl
  rw [Normal, normalize, hself]
  cases normalizeAbsolute T.toNetTools url with
  | error e => simp [Except.mapError]
  | ok result => simp [Except.mapError]

/-- A link leads to a normal form exactly if its URL is settled. -/
theorem safeNormalize_normal_iff (hlower : LowerLaws T.lower) (hcodec : Url.DecodesUtf8 T.toTools)
    {href base url : Text} (h : safeNormalize T href base = some url) :
    ∃ parsed, readUrl T.toNetTools href base = some parsed ∧
      (Normal T url ↔ Settled T.toNetTools parsed) := by
  obtain ⟨parsed, hparsed, hiff⟩ :=
    normalizeUrl_again_iff hlower hcodec (safeNormalize_some h)
  exact ⟨parsed, hparsed, normal_iff.trans hiff⟩

/-- The page with a raised number, answered from a normal form, is one exactly if the parameter of the
number belongs to the page and no other parameter sorts behind it. -/
theorem replaceQuery_normal_iff (hlower : LowerLaws T.lower) (hcodec : Url.DecodesUtf8 T.toTools)
    {page url key value : Text} (hpage : Normal T page)
    (hreplace : replaceQuery T page key value = .ok url) :
    ∃ parsed, Url.urlsplit T.toTools page = some parsed ∧ (Normal T url ↔
      isTracking T.toNetTools key = false ∧
        ∀ p ∈ Url.parseQsl T.toTools parsed.query, p.1 ≠ key → p.1 ≤ key) := by
  rw [normal_iff] at hpage
  obtain ⟨read, host, -, -, hwritten, heq⟩ := normalizeAbsolute_ok hlower hcodec hpage
  generalize T.lower read.scheme = scheme at hwritten heq
  generalize read.port.getD none = port at hwritten heq
  generalize collapseSlashes (if read.path = [] then ['/'] else read.path) = path at hwritten heq
  generalize canonicalQuery T.toNetTools read.query = query at hwritten heq
  subst heq
  have haccepts := ((hwritten.again_iff hlower).mp hpage).1
  have hsplit := hwritten.readable.urlsplit
  rw [if_pos haccepts] at hsplit
  refine ⟨_, hsplit, ?_⟩
  simp only [replaceQuery, Crawler.split, hsplit, bind, Except.bind, pure, Except.pure,
    Except.ok.injEq] at hreplace
  rw [Url.urlunsplit_path (authority_ne_nil hwritten.normal.ne_nil) hwritten.slash] at hreplace
  have hreadable : Readable T.toNetTools scheme host port path
      (Url.urlencode ((Url.parseQsl T.toTools query).filter (fun p => p.1 ≠ key)
        ++ [(key, value)])) :=
    { hwritten.readable with query_chars := fun c hc => Url.isQueryChar_of_mem_urlencode hc }
  have hne : Url.urlencode ((Url.parseQsl T.toTools query).filter (fun p => p.1 ≠ key)
      ++ [(key, value)]) ≠ [] := by
    simp [Url.urlencode_eq_nil]
  rw [normal_iff, ← hreplace]
  refine (hreadable.again_iff hlower).trans ?_
  rw [canonicalQuery_urlencode hcodec,
    (inOrder_of_canonicalQuery hcodec hwritten.query_eq).raised_iff key value]
  exact ⟨fun h => h.2.1, fun h => ⟨haccepts, h, .inl hne⟩⟩

/-! ## After the discovery -/

theorem details_loop (candidates : List CandidateLink) (documents : List CrawledDocument)
    (state : DiscoveryState) : (details T K candidates documents state).loop = none := by
  induction candidates generalizing documents state with
  | nil => rfl
  | cons candidate rest ih =>
      unfold details
      split
      · rfl
      · split
        · rfl
        · exact ih _ _

theorem addDetail_candidates (candidate : CandidateLink) (documents : List CrawledDocument)
    (state : DiscoveryState) (document : Except Exn CrawledDocument) :
    (addDetail candidate documents state document).2.candidates = state.candidates := by
  cases document <;> rfl

/-- The details are read in the order of the candidates, which stay as they are. -/
theorem details_rest (candidates : List CandidateLink) (documents : List CrawledDocument)
    (state : DiscoveryState) :
    (details T K candidates documents state).candidates = state.candidates ∧
      ((details T K candidates documents state).detailPage.toList ++
        urlsOf (details T K candidates documents state).rest).Sublist (urlsOf candidates) := by
  induction candidates generalizing documents state with
  | nil => exact ⟨rfl, List.Sublist.refl _⟩
  | cons candidate rest ih =>
      unfold details
      split
      · exact ⟨rfl, List.nil_sublist _⟩
      · split
        · exact ⟨rfl, List.Sublist.refl _⟩
        · next item _ =>
            dsimp only
            obtain ⟨hcandidates, hrest⟩ := ih
              (addDetail candidate documents state
                (documentFromApiItem T item candidate.url)).1
              (addDetail candidate documents state
                (documentFromApiItem T item candidate.url)).2
            exact ⟨hcandidates.trans (addDetail_candidates _ _ _ _), hrest.cons _⟩

theorem discovered_loop (state : DiscoveryState) : (discovered T K state).loop = none :=
  details_loop _ _ _

theorem discovered_rest (state : DiscoveryState) :
    (discovered T K state).candidates = state.candidates ∧
      ((discovered T K state).detailPage.toList ++ urlsOf (discovered T K state).rest).Sublist
        (urlsOf state.candidates) := by
  obtain ⟨state', hstate, hsame⟩ : ∃ state', (if state.candidates = [] ∧ state.failures.isEmpty then
      { state with warnings := state.warnings ++ ["NO_ARTICLES"] } else state) = state' ∧
        state'.candidates = state.candidates := ⟨_, rfl, by split <;> rfl⟩
  unfold discovered
  simp only [hstate]
  refine ⟨(details_rest _ [] state').1.trans hsame, (details_rest _ [] state').2.trans ?_⟩
  rw [← hsame]
  split
  · exact List.Sublist.refl _
  · exact (List.take_sublist _ _).map _

theorem listPage_of_loop {c : Crawl T} (h : c.loop = none) : c.listPage = none := by
  cases c with
  | listing L => cases h
  | api A => rfl
  | detail candidate rest documents state => rfl
  | done outcome => rfl

theorem ne_api_of_loop {c : Crawl T} (h : c.loop = none) (A : ApiLoop T) : c ≠ .api A := by
  rintro rfl
  cases h

/-! ## List pages -/

/-- What is known of the list pages that were requested. -/
structure PagesOnce (T : CrawlTools) (K : Setup) (P : Text → Prop) (pages : List Text)
    (c : Crawl T) : Prop where
  within : pages.length ≤ K.maxPages
  nodup : pages.Nodup
  all : ∀ url ∈ pages, P url
  loop : ∀ L ∈ c.loop, pages = L.visited.reverse ∧ pages.length = L.pageIndex + 1
  next : ∀ A, c = .api A → NextPage T K P A.page A.listing

/-- What is known where an answer leads, of the list pages that were requested before. -/
def pageFacts (T : CrawlTools) (K : Setup) (P : Text → Prop) (pages : List Text) : Facts T where
  api page L :=
    (pages = L.visited.reverse ∧ pages.length = L.pageIndex + 1) ∧ NextPage T K P page L
  foot page L :=
    (pages = L.visited.reverse ∧ pages.length = L.pageIndex + 1) ∧ NextPage T K P page L
  finished _ := True
  source _ _ _ := True

theorem pageFacts_kept {P : Text → Prop} {pages : List Text} :
    (pageFacts T K P pages).Kept K where
  same page L L' hsame hL := by
    simpa only [pageFacts, NextPage, hsame.visited, hsame.pageIndex] using hL
  items _ _ _ _ _ hL := hL
  foot _ _ hL := hL

variable {P : Text → Prop} {pages : List Text}

/-- No list page is requested after the loop. -/
theorem PagesOnce.leave {c c' : Crawl T} (h : PagesOnce T K P pages c) (hloop : c'.loop = none) :
    PagesOnce T K P (pages ++ c'.listPage.toList) c' := by
  rw [listPage_of_loop hloop, Option.toList_none, List.append_nil]
  exact ⟨h.within, h.nodup, h.all, by simp [hloop], fun A hA => absurd hA (ne_api_of_loop hloop A)⟩

/-- Another list page is requested. -/
theorem PagesOnce.listing {c : Crawl T} {L L' : Listing} {url : Text}
    (h : PagesOnce T K P pages c)
    (hvisited : pages = L.visited.reverse) (hcount : pages.length = L.pageIndex + 1)
    (hindex : L.pageIndex + 1 < K.maxPages) (hnew : url ∉ L.visited) (hurl : P url)
    (hindex' : L'.pageIndex = L.pageIndex + 1) (hcurrent : L'.current = url)
    (hvisited' : L'.visited = url :: L.visited) :
    PagesOnce T K P (pages ++ (Crawl.listPage (T := T) (.listing L')).toList) (.listing L') := by
  have hpage : (Crawl.listPage (T := T) (.listing L')).toList = [url] := by
    rw [← hcurrent]
    rfl
  rw [hpage]
  refine ⟨?_, ?_, ?_, ?_, by simp⟩
  · rw [List.length_append, List.length_singleton, hcount]
    exact hindex
  · refine List.nodup_append.mpr ⟨h.nodup, List.nodup_singleton _, ?_⟩
    rintro visited hmem new hnewMem rfl
    rw [hvisited, List.mem_reverse] at hmem
    exact hnew (List.mem_singleton.mp hnewMem ▸ hmem)
  · intro visited hmem
    rcases List.mem_append.mp hmem with hmem | hmem
    · exact h.all visited hmem
    · rw [List.mem_singleton.mp hmem]
      exact hurl
  · intro loop hloop
    obtain rfl : L' = loop := Option.some.inj hloop
    rw [hvisited', List.reverse_cons, ← hvisited, List.length_append, List.length_singleton,
      hcount, hindex']
    exact ⟨rfl, rfl⟩

/-- The list pages that were requested, wherever an answer leads. -/
theorem Lands.pagesOnce {c c' : Crawl T} (h : PagesOnce T K P pages c)
    (hlands : Lands K (pageFacts T K P pages) c') :
    PagesOnce T K P (pages ++ c'.listPage.toList) c' := by
  cases hlands with
  | foot page L known =>
      obtain ⟨⟨hvisited, hcount⟩, hnext⟩ := known
      rcases leavePage_cases page L with ⟨state, heq, -⟩ | ⟨exc, heq⟩ | hlisting
      · exact h.leave (heq ▸ discovered_loop state)
      · exact h.leave (heq ▸ rfl)
      · obtain ⟨url, L', hfound, -, -, hindex, hnew, heq, hindex', hcurrent, hvisited', -⟩ := hlisting
        rw [heq]
        exact h.listing hvisited hcount hindex hnew (hnext hindex url hfound hnew) hindex' hcurrent
          hvisited'
  | api A known source =>
      obtain ⟨hloop, hnext⟩ := known
      refine ⟨by simpa [Crawl.listPage] using h.within, by simpa [Crawl.listPage] using h.nodup,
        by simpa [Crawl.listPage] using h.all, ?_, ?_⟩
      · intro L hL
        obtain rfl : A.listing = L := Option.some.inj hL
        simpa [Crawl.listPage] using hloop
      · rintro A' hA'
        cases hA'
        exact hnext
  | finished state known => exact h.leave (discovered_loop state)
  | failed error => exact h.leave rfl

theorem addDirect_same {page : ListPage T} {L L' : Listing} (h : addDirect T K page L = .ok L') :
    L'.pageIndex = L.pageIndex ∧ L'.visited = L.visited ∧ L'.seen = L.seen := by
  unfold addDirect at h
  split at h
  · cases h
    exact ⟨rfl, rfl, rfl⟩
  · obtain ⟨looks, -, h⟩ := bind_eq_ok.mp h
    split at h
    · cases h
      exact ⟨rfl, rfl, rfl⟩
    · obtain ⟨direct, -, h⟩ := bind_eq_ok.mp h
      cases h
      exact ⟨rfl, rfl, rfl⟩

/-- Reading a list page visits no other one. -/
theorem readPage_visited {L L' : Listing} {response : FetchResponse} {page : ListPage T}
    {text : Text} (h : readPage T K L response = .ok (page, text, L')) :
    L'.pageIndex = L.pageIndex ∧ L'.visited = L.visited := by
  obtain ⟨visited, -, h⟩ := bind_eq_ok.mp h
  obtain ⟨decoded, -, h⟩ := bind_eq_ok.mp h
  obtain ⟨doc, -, h⟩ := bind_eq_ok.mp h
  obtain ⟨classification, -, h⟩ := bind_eq_ok.mp h
  obtain ⟨candidates, -, h⟩ := bind_eq_ok.mp h
  obtain ⟨listing, hdirect, h⟩ := bind_eq_ok.mp h
  cases h
  obtain ⟨hindex, hvisited, -⟩ := addDirect_same hdirect
  exact ⟨hindex, hvisited⟩

/-- The step lemma of the list pages. -/
theorem next_pagesOnce {c c' : Crawl T} {answer : Answer} (h : PagesOnce T K P pages c)
    (hnext : next T K c answer = some c') (hstep : StepNext T K P c answer) :
    PagesOnce T K P (pages ++ c'.listPage.toList) c' := by
  have htrue : ∀ page hints, HintsLead (T := T) (pageFacts T K P pages).source page hints :=
    fun _ _ _ _ _ _ _ _ => trivial
  cases c with
  | listing L =>
      obtain rfl := Option.some.inj hnext
      obtain ⟨hvisited, hcount⟩ := h.loop L rfl
      have hread : ∀ response page text L', answer = .ok response →
          readPage T K L response = .ok (page, text, L') →
          (pageFacts T K P pages).foot page L' := by
        rintro response page text L' rfl hread
        obtain ⟨hindex', hvisited'⟩ := readPage_visited hread
        exact ⟨⟨by rw [hvisited', hvisited], by rw [hindex', hcount]⟩, hstep page text L' hread⟩
      exact Lands.pagesOnce h (readList_lands pageFacts_kept trivial hread
        fun response page text L' hanswer hpage _ _ =>
          ⟨hread response page text L' hanswer hpage, htrue _ _⟩)
  | api A =>
      obtain rfl := Option.some.inj hnext
      exact Lands.pagesOnce h (readApi_lands pageFacts_kept ⟨h.loop _ rfl, h.next A rfl⟩ (htrue _ _)
        fun _ _ _ _ _ _ => trivial)
  | detail candidate rest documents state =>
      obtain rfl := Option.some.inj hnext
      exact h.leave (details_loop _ _ _)
  | done outcome => cases hnext

/-- The list pages before the first answer. -/
theorem begin_pagesOnce {url : Text} (hmax : 1 ≤ K.maxPages) (hurl : P url) :
    PagesOnce T K P (begin T K url).listPage.toList (begin T K url) := by
  rcases enterPage_cases (T := T) (K := K) 0 (some url) (.first url) with
    ⟨state, heq, -⟩ | ⟨url', hurl', -, -, heq⟩
  · rw [begin, heq, listPage_of_loop (discovered_loop state)]
    exact ⟨Nat.zero_le _, List.nodup_nil, by simp, by simp [discovered_loop],
      fun A hA => absurd hA (ne_api_of_loop (discovered_loop state) A)⟩
  · cases hurl'
    rw [begin, heq]
    refine ⟨hmax, List.nodup_singleton _, ?_, ?_, by simp⟩
    · intro visited hmem
      rw [List.mem_singleton.mp hmem]
      exact hurl
    · intro L hL
      cases hL
      exact ⟨rfl, rfl⟩

/-- The run lemma of the list pages. -/
theorem run_pagesOnce {url : Text} {tr : List (Crawl T × Answer)} {c : Crawl T}
    (hmax : 1 ≤ K.maxPages) (hurl : P url)
    (hrun : (crawls T K url).Run (fun _ c answer _ => StepNext T K P c answer) tr c) :
    PagesOnce T K P (requested Crawl.listPage tr c) c := by
  refine hrun.invariant (I := fun tr c => PagesOnce T K P (requested Crawl.listPage tr c) c) ?_ ?_
  · rintro c rfl
    exact begin_pagesOnce hmax hurl
  · intro tr c answer c' _ hI hok hnext
    rw [requested_cons]
    exact next_pagesOnce hI hnext hok

/-! ## Candidates -/

theorem add_nodup {candidate : CandidateLink} {state : DiscoveryState}
    (hold : (urlsOf state.candidates).Nodup) (hnew : candidate.url ∉ urlsOf state.candidates) :
    (urlsOf (state.add candidate).candidates).Nodup := by
  have hurls : urlsOf (state.add candidate).candidates =
      urlsOf state.candidates ++ [candidate.url] := by
    simp [urlsOf, DiscoveryState.add]
  rw [hurls]
  refine List.nodup_append.mpr ⟨hold, List.nodup_singleton _, ?_⟩
  rintro url hmem new hnewMem rfl
  exact hnew (List.mem_singleton.mp hnewMem ▸ hmem)

theorem mem_urlsOf_add {candidate : CandidateLink} {state : DiscoveryState} {url : Text}
    (h : url ∈ urlsOf (state.add candidate).candidates) :
    url ∈ urlsOf state.candidates ∨ url = candidate.url := by
  simpa [urlsOf, DiscoveryState.add] using h

/-- Links add no candidate twice if those that were found are among the details seen. -/
theorem addCandidates_nodup {candidates : List CandidateLink} {seen : List Text}
    {state : DiscoveryState} (hold : (urlsOf state.candidates).Nodup)
    (hfresh : ∀ c ∈ candidates, c.url ∈ urlsOf state.candidates → c.url ∈ seen) :
    (urlsOf (addCandidates K candidates (seen, state)).2.candidates).Nodup := by
  induction candidates generalizing seen state with
  | nil => exact hold
  | cons candidate rest ih =>
      unfold addCandidates
      by_cases hseen : candidate.url ∈ seen
      · rw [if_pos hseen]
        exact ih hold fun c hc => hfresh c (List.mem_cons_of_mem _ hc)
      · have hadded := add_nodup hold fun hmem => hseen (hfresh candidate List.mem_cons_self hmem)
        rw [if_neg hseen]
        split_ifs
        · exact hadded
        · refine ih hadded fun c hc hmem => ?_
          rcases mem_urlsOf_add hmem with hmem | heq
          · exact List.mem_cons_of_mem _ (hfresh c (List.mem_cons_of_mem _ hc) hmem)
          · rw [heq]
            exact List.mem_cons_self

/-- All candidates are among the details seen, and none was found twice. -/
structure SeenOnce (seen : List Text) (candidates : List CandidateLink) : Prop where
  seen : ∀ url ∈ urlsOf candidates, url ∈ seen
  nodup : (urlsOf candidates).Nodup

theorem SeenOnce.add {seen : List Text} {state : DiscoveryState} {candidate : CandidateLink}
    (h : SeenOnce seen state.candidates) (hnew : candidate.url ∉ seen) :
    SeenOnce (candidate.url :: seen) (state.add candidate).candidates := by
  refine ⟨fun url hurl => ?_, add_nodup h.nodup fun hmem => hnew (h.seen _ hmem)⟩
  rcases mem_urlsOf_add hurl with hmem | rfl
  · exact List.mem_cons_of_mem _ (h.seen url hmem)
  · exact List.mem_cons_self

theorem addItems_seenOnce {config : Fields} {baseUrl : Text} {items : List Fields}
    {seen : List Text} {state : DiscoveryState} (h : SeenOnce seen state.candidates) :
    SeenOnce (addItems T K config baseUrl items (seen, state)).1.1
      (addItems T K config baseUrl items (seen, state)).1.2.candidates := by
  induction items generalizing seen state with
  | nil => exact h
  | cons item items ih =>
      unfold addItems
      split
      · exact h
      · exact ih h
      · next candidate _ =>
          by_cases hseen : candidate.url ∈ seen
          · rw [if_pos hseen]
            exact ih h
          · have hadded := h.add hseen
            rw [if_neg hseen]
            split
            · exact h
            · split_ifs
              · exact ih h
              · exact hadded
              · exact ih hadded

/-- What is known of the candidates where an answer leads. -/
def candidateFacts (T : CrawlTools) : Facts T where
  api _ L := SeenOnce L.seen L.state.candidates
  foot _ L := (urlsOf L.state.candidates).Nodup
  finished candidates := (urlsOf candidates).Nodup
  source _ _ _ := True

theorem candidateFacts_kept : (candidateFacts T).Kept K where
  same _ _ _ hsame hL := by
    simpa only [candidateFacts, hsame.seen, hsame.candidates] using hL
  items _ _ _ _ _ hL := addItems_seenOnce hL
  foot _ _ hL := hL.nodup

theorem addDirect_nodup {page : ListPage T} {L L' : Listing}
    (hold : (urlsOf L.state.candidates).Nodup) (h : addDirect T K page L = .ok L') :
    (urlsOf L'.state.candidates).Nodup := by
  unfold addDirect at h
  split at h
  · cases h
    exact hold
  · next hempty =>
      obtain ⟨looks, -, h⟩ := bind_eq_ok.mp h
      split at h
      · cases h
        exact hold
      · obtain ⟨direct, -, h⟩ := bind_eq_ok.mp h
        cases h
        have hnone : L.state.candidates = [] := by
          by_contra hne
          exact hempty (.inl hne)
        exact add_nodup hold (by simp [urlsOf, hnone])

/-- The candidates after a list page without links to one that is not among the details seen. -/
theorem readPage_nodup {L L' : Listing} {response : FetchResponse} {page : ListPage T} {text : Text}
    (hold : (urlsOf L.state.candidates).Nodup)
    (hfresh : StepFresh T K (.listing L) (.ok response))
    (h : readPage T K L response = .ok (page, text, L')) :
    (urlsOf L'.state.candidates).Nodup := by
  obtain ⟨visited, -, h⟩ := bind_eq_ok.mp h
  obtain ⟨decoded, hdecoded, h⟩ := bind_eq_ok.mp h
  obtain ⟨doc, hdoc, h⟩ := bind_eq_ok.mp h
  obtain ⟨classification, -, h⟩ := bind_eq_ok.mp h
  obtain ⟨candidates, hextracted, h⟩ := bind_eq_ok.mp h
  obtain ⟨listing, hdirect, h⟩ := bind_eq_ok.mp h
  cases h
  refine addDirect_nodup ?_ hdirect
  exact addCandidates_nodup hold (hfresh text doc candidates hdecoded hdoc hextracted)

/-- What is known of the candidates and of the detail pages that were requested. -/
structure DetailsOnce (details : List Text) (c : Crawl T) : Prop where
  nodup : (urlsOf c.candidates).Nodup
  seen : ∀ A, c = .api A → SeenOnce A.listing.seen A.listing.state.candidates
  rest : (details ++ urlsOf c.rest).Sublist (urlsOf c.candidates)

/-- The loop over the candidates. -/
theorem details_detailsOnce {details : List Text} {rest : List CandidateLink}
    {documents : List CrawledDocument} {state : DiscoveryState}
    (hnodup : (urlsOf state.candidates).Nodup)
    (hrest : (details ++ urlsOf rest).Sublist (urlsOf state.candidates)) :
    DetailsOnce (details ++ (Crawler.details T K rest documents state).detailPage.toList)
      (Crawler.details T K rest documents state) := by
  obtain ⟨hcandidates, hleft⟩ := details_rest (T := T) (K := K) rest documents state
  refine ⟨hcandidates ▸ hnodup, fun A hA => absurd hA (ne_api_of_loop (details_loop _ _ _) A), ?_⟩
  rw [List.append_assoc, hcandidates]
  exact (hleft.append_left details).trans hrest

/-- The end of the discovery. -/
theorem discovered_detailsOnce {state : DiscoveryState} (h : (urlsOf state.candidates).Nodup) :
    DetailsOnce (discovered T K state).detailPage.toList (discovered T K state) := by
  obtain ⟨hcandidates, hrest⟩ := discovered_rest (T := T) (K := K) state
  exact ⟨hcandidates ▸ h, fun A hA => absurd hA (ne_api_of_loop (discovered_loop state) A),
    hcandidates ▸ hrest⟩

/-- The candidates, wherever an answer leads. -/
theorem Lands.detailsOnce {c : Crawl T} (hlands : Lands K (candidateFacts T) c) :
    DetailsOnce c.detailPage.toList c := by
  cases hlands with
  | foot page L known =>
      rcases leavePage_cases page L with ⟨state, heq, hsame⟩ | ⟨exc, heq⟩ | hlisting
      · rw [heq]
        exact discovered_detailsOnce (hsame ▸ known)
      · rw [heq]
        exact ⟨List.nodup_nil, by simp, List.Sublist.refl _⟩
      · obtain ⟨url, L', -, -, -, -, -, heq, -, -, -, -, hsame⟩ := hlisting
        rw [heq]
        refine ⟨?_, by simp, List.Sublist.refl _⟩
        change (urlsOf L'.state.candidates).Nodup
        rw [hsame]
        exact known
  | api A known source =>
      refine ⟨known.nodup, ?_, List.Sublist.refl _⟩
      rintro A' hA'
      cases hA'
      exact known
  | finished state known => exact discovered_detailsOnce known
  | failed error => exact ⟨List.nodup_nil, by simp, List.Sublist.refl _⟩

/-- No detail page is requested before the candidates are complete. -/
theorem DetailsOnce.nil_of_loop {details : List Text} {c : Crawl T} {L : Listing}
    (h : DetailsOnce details c) (hloop : c.loop = some L) : details = [] := by
  have hlength := h.rest.length_le
  have hsame : c.rest = c.candidates := by
    cases c with
    | listing L => rfl
    | api A => rfl
    | detail candidate rest documents state => cases hloop
    | done outcome => cases hloop
  rw [hsame, List.length_append] at hlength
  exact List.length_eq_zero_iff.mp (by omega)

/-- The step lemma of the candidates. -/
theorem next_detailsOnce {details : List Text} {c c' : Crawl T} {answer : Answer}
    (h : DetailsOnce details c) (hnext : next T K c answer = some c')
    (hfresh : StepFresh T K c answer) : DetailsOnce (details ++ c'.detailPage.toList) c' := by
  have htrue : ∀ page hints, HintsLead (T := T) (candidateFacts T).source page hints :=
    fun _ _ _ _ _ _ _ _ => trivial
  cases c with
  | listing L =>
      obtain rfl := Option.some.inj hnext
      rw [h.nil_of_loop rfl, List.nil_append]
      have hread : ∀ response page text L', answer = .ok response →
          readPage T K L response = .ok (page, text, L') → (urlsOf L'.state.candidates).Nodup := by
        rintro response page text L' rfl hread
        exact readPage_nodup h.nodup hfresh hread
      refine (readList_lands candidateFacts_kept h.nodup hread ?_).detailsOnce
      intro response page text L' hanswer hpage hempty _
      refine ⟨⟨?_, hread response page text L' hanswer hpage⟩, htrue _ _⟩
      simp [urlsOf, hempty]
  | api A =>
      obtain rfl := Option.some.inj hnext
      rw [h.nil_of_loop rfl, List.nil_append]
      exact (readApi_lands candidateFacts_kept (h.seen A rfl) (htrue _ _)
        fun _ _ _ _ _ _ => trivial).detailsOnce
  | detail candidate rest documents state =>
      obtain rfl : Crawler.details T K rest
          (addDetail candidate documents state (parseDetail T K answer)).1
          (addDetail candidate documents state (parseDetail T K answer)).2 = c' :=
        Option.some.inj hnext
      refine details_detailsOnce ?_ ?_
      · rw [addDetail_candidates]
        exact h.nodup
      · rw [addDetail_candidates]
        exact h.rest
  | done outcome => cases hnext

/-- The run lemma of the candidates. -/
theorem run_detailsOnce {url : Text} {tr : List (Crawl T × Answer)} {c : Crawl T}
    (hrun : (crawls T K url).Run (fun _ c answer _ => StepFresh T K c answer) tr c) :
    DetailsOnce (requested Crawl.detailPage tr c) c := by
  refine hrun.invariant (I := fun tr c => DetailsOnce (requested Crawl.detailPage tr c) c) ?_ ?_
  · rintro c rfl
    rcases begin_cases (T := T) (K := K) url with ⟨state, heq, hnone⟩ | ⟨L, heq, -, hnone⟩
    · rw [heq]
      exact discovered_detailsOnce (by simp [hnone, urlsOf])
    · rw [heq]
      refine ⟨?_, by simp, List.Sublist.refl _⟩
      change (urlsOf L.state.candidates).Nodup
      simp [hnone, urlsOf]
  · intro tr c answer c' _ hI hok hnext
    rw [requested_cons]
    exact next_detailsOnce hI hnext hok

/-! ## Crawls -/

theorem maxPages_of_setup {column : Column} {url : Text} (h : column.setup T = .ok (K, url)) :
    K.maxPages = column.maxPages ∧ 1 ≤ column.maxPages := by
  unfold Column.setup at h
  dsimp only at h
  split_ifs at h with hmax
  split at h
  · cases h
  · cases h
    exact ⟨rfl, Nat.le_of_not_lt hmax⟩

/-- **No page twice.** A crawl requests at most as many list pages as it may. It requests none twice,
in whatever way their URLs are written, in the runs in which the first list page and each one that
follows are in normal form; and it finds no candidate and requests no detail page twice in the runs
in which no list page links to a candidate that is not among the details seen. -/
theorem crawl_once {column : Column} {url : Text} (h : column.setup T = .ok (K, url)) :
    (∀ tr c, (crawls T K url).Run System.always tr c →
      (requested Crawl.listPage tr c).length ≤ column.maxPages) ∧
    (Normal T url → ∀ tr c,
      (crawls T K url).Run (fun _ c answer _ => StepNext T K (Normal T) c answer) tr c →
        ((requested Crawl.listPage tr c).map fun page => normalize T page).Nodup) ∧
    ∀ tr c, (crawls T K url).Run (fun _ c answer _ => StepFresh T K c answer) tr c →
      (urlsOf c.candidates).Nodup ∧ (requested Crawl.detailPage tr c).Nodup := by
  obtain ⟨hsame, hmax⟩ := maxPages_of_setup h
  rw [← hsame] at hmax ⊢
  refine ⟨fun tr c hrun => ?_, fun hurl tr c hrun => ?_, fun tr c hrun => ?_⟩
  · obtain ⟨c₀, hinit, hpath⟩ := hrun
    have hany : (crawls T K url).Run
        (fun _ c answer _ => StepNext T K (fun _ => True) c answer) tr c := by
      refine ⟨c₀, hinit, hpath.mono fun tr c answer c' _ => ?_⟩
      cases c <;> cases answer <;> simp [StepNext, NextPage]
    exact (run_pagesOnce hmax trivial hany).within
  · have hpages := run_pagesOnce hmax hurl hrun
    refine hpages.nodup.map_on fun page hpage page' hpage' heq => ?_
    rw [hpages.all page hpage, hpages.all page' hpage'] at heq
    exact Except.ok.inj heq
  · have hdetails := run_detailsOnce hrun
    exact ⟨hdetails.nodup, ((List.sublist_append_left _ _).trans hdetails.rest).nodup hdetails.nodup⟩

end

/-! ## A sample site with several list pages -/

/-- List pages with the articles and the next pages that they link to, and a detail page. -/
def sampleListings : List (Text × List Element) :=
  let article (href : Text) : Element :=
    { name := str "a", text := str "notice", attrs := [(str "href", href)] }
  let following (href : Text) : Element :=
    { name := str "link", attrs := [(str "rel", str "next"), (str "href", href)] }
  [(str "first", [article (str "/art/1001.html"), following (str "/list/2")]),
   (str "second", [article (str "/art/1001.html"), article (str "/art/1002.html")]),
   (str "unnumbered", [article (str "/art/1001.html")]),
   (str "itself", [following (str "/list?page=2&type=2")]),
   (str "detail",
    [{ name := str "article", text := List.replicate 200 'x' }, following (str "/list/2")])]

/-- What stays the same in a crawl of three list pages. -/
def sampleLongSetup : Setup := { sampleSetup with maxPages := 3 }

/-- The beginning of a crawl of these list pages. -/
def sampleBegin (url : Text) : Crawl (pageTools sampleListings) :=
  begin (pageTools sampleListings) sampleLongSetup url

/-- The steps of a crawl of these list pages. -/
def sampleTrace (url : Text) (answers : List Answer) :
    List (Crawl (pageTools sampleListings) × Answer) :=
  System.traceOf (next (pageTools sampleListings) sampleLongSetup) (sampleBegin url) answers

/-- A crawl of these list pages, seen through what is requested of a kind and the candidates. -/
def sampleRequested (request : Crawl (pageTools sampleListings) → Option Text) (url : Text)
    (answers : List Answer) : Option (List Text × List Text) :=
  (System.exec (next (pageTools sampleListings) sampleLongSetup) (sampleBegin url) answers).map
    fun c => (requested request (sampleTrace url answers) c, urlsOf c.candidates)

theorem run_of_sampleRequested {request : Crawl (pageTools sampleListings) → Option Text}
    {url : Text} {answers : List Answer} {urls candidates : List Text}
    (h : sampleRequested request url answers = some (urls, candidates))
    {C : Crawl (pageTools sampleListings) → Answer → Prop}
    (hC : ∀ e ∈ sampleTrace url answers, C e.1 e.2) :
    ∃ tr c, (crawls (pageTools sampleListings) sampleLongSetup url).Run
        (fun _ c answer _ => C c answer) tr c ∧
      requested request tr c = urls ∧ urlsOf c.candidates = candidates := by
  obtain ⟨c, hexec, hseen⟩ := Option.map_eq_some_iff.mp h
  obtain ⟨hurls, hcandidates⟩ := Prod.mk.inj hseen
  exact ⟨_, c, ⟨_, rfl, System.exec_path_of hexec hC⟩, hurls, hcandidates⟩

theorem setup_sampleLong {url : Text} (hurl : url = str "http://a.gov.cn/list/" ∨
    url = str "http://a.gov.cn/list?page=1&type=2" ∨ url = str "http://a.gov.cn/art/1001.html") :
    Column.setup (pageTools sampleListings) { columnUrl := url, maxPages := 3 } =
      .ok (sampleLongSetup, url) := by
  rcases hurl with rfl | rfl | rfl <;> rfl

/-- The list page that follows the one that is answered. -/
def following {T : CrawlTools} (K : Setup) : Crawl T → Answer → Option Text
  | .listing L, .ok response =>
      (readPage T K L response >>= fun read =>
        findNextPage T read.1.doc read.1.response.url K.pagination
          read.2.2.visited).toOption.bind id
  | _, _ => none

theorem stepNext_of_following {T : CrawlTools} {K : Setup} {P : Text → Prop} {c : Crawl T}
    {answer : Answer} (h : ∀ url ∈ following K c answer, P url) : StepNext T K P c answer := by
  cases c with
  | listing L =>
      cases answer with
      | error exc => trivial
      | ok response =>
          intro page text L' hread _ url hfound _
          refine h url ?_
          simp [following, hread, hfound, bind, Except.bind, Except.toOption]
  | api A => trivial
  | detail candidate rest documents state => trivial
  | done outcome => trivial

theorem stepFresh_of_seen {T : CrawlTools} {K : Setup} {c : Crawl T} {answer : Answer}
    (h : ∀ L ∈ c.loop, ∀ url ∈ urlsOf L.state.candidates, url ∈ L.seen) :
    StepFresh T K c answer := by
  cases c with
  | listing L =>
      cases answer with
      | error exc => trivial
      | ok response =>
          intro text doc candidates _ _ _ c _ hmem
          exact h L rfl c.url hmem
  | api A => trivial
  | detail candidate rest documents state => trivial
  | done outcome => trivial

theorem normalize_of_toOption {T : CrawlTools} {url result : Text}
    (h : (normalize T url).toOption = some result) : normalize T url = .ok result := by
  cases hurl : normalize T url with
  | error e => simp [hurl, Except.toOption] at h
  | ok result' => simpa [hurl, Except.toOption] using h

/-- A crawl of two list pages, of which the second one links to the first article again. -/
theorem crawl_once_sample :
    ∃ tr c, (crawls (pageTools sampleListings) sampleLongSetup (str "http://a.gov.cn/list/")).Run
        System.always tr c ∧
      (requested Crawl.listPage tr c).length = 2 ∧ (urlsOf c.candidates).length = 2 ∧
      ((requested Crawl.listPage tr c).map
        fun page => normalize (pageTools sampleListings) page).Nodup ∧
      (urlsOf c.candidates).Nodup ∧ (requested Crawl.detailPage tr c).Nodup := by
  have hrun : sampleRequested Crawl.listPage (str "http://a.gov.cn/list/")
      [answered (str "http://a.gov.cn/list/") (str "first"),
       answered (str "http://a.gov.cn/list/2") (str "second")] =
      some ([str "http://a.gov.cn/list/", str "http://a.gov.cn/list/2"],
        [str "http://a.gov.cn/art/1001.html", str "http://a.gov.cn/art/1002.html"]) := by
    decide +kernel
  have hsteps : ∀ e ∈ sampleTrace (str "http://a.gov.cn/list/")
      [answered (str "http://a.gov.cn/list/") (str "first"),
       answered (str "http://a.gov.cn/list/2") (str "second")],
      ((following sampleLongSetup e.1 e.2).all fun url =>
        (normalize (pageTools sampleListings) url).toOption = some url) ∧
      e.1.loop.all fun L => (urlsOf L.state.candidates).all (· ∈ L.seen) := by
    decide +kernel
  obtain ⟨tr, c, hsafe, hpages, hcandidates⟩ := run_of_sampleRequested hrun
    (C := fun c answer =>
      StepNext (pageTools sampleListings) sampleLongSetup (Normal (pageTools sampleListings))
        c answer ∧ StepFresh (pageTools sampleListings) sampleLongSetup c answer) fun e he => by
      obtain ⟨hnext, hseen⟩ := hsteps e he
      refine ⟨stepNext_of_following fun url hurl => ?_, stepFresh_of_seen fun L hL url hurl => ?_⟩
      · rw [Option.mem_def.mp hurl] at hnext
        exact normalize_of_toOption (of_decide_eq_true hnext)
      · rw [Option.mem_def.mp hL] at hseen
        exact of_decide_eq_true (List.all_eq_true.mp hseen url hurl)
  -- The run meets both conditions, so that each half of the theorem is applied to it.
  obtain ⟨c₀, hinit, hpath⟩ := hsafe
  obtain ⟨-, hlists, hdetails⟩ := crawl_once (setup_sampleLong (.inl rfl))
  obtain ⟨hnodup, hrequested⟩ :=
    hdetails tr c ⟨c₀, hinit, hpath.mono fun _ _ _ _ hok => hok.2⟩
  exact ⟨tr, c, ⟨c₀, hinit, hpath.mono fun _ _ _ _ _ => trivial⟩, by rw [hpages]; rfl,
    by rw [hcandidates]; rfl,
    hlists rfl tr c ⟨c₀, hinit, hpath.mono fun _ _ _ _ hok => hok.1⟩, hnodup, hrequested⟩

/-- A page whose number was raised in an unordered query names itself, in order, as its next page and
is requested again; and a list page that was taken for an article is found and read again once another
one links to it. -/
theorem crawl_twice :
    ∃ (T : CrawlTools) (K : Setup),
      (∃ column url, Column.setup T column = .ok (K, url) ∧ ∃ tr c,
        (crawls T K url).Run System.always tr c ∧
          ¬ ((requested Crawl.listPage tr c).map fun page => normalize T page).Nodup) ∧
      ∃ column url, Column.setup T column = .ok (K, url) ∧ ∃ tr c,
        (crawls T K url).Run System.always tr c ∧ ¬ (urlsOf c.candidates).Nodup ∧
          ¬ (requested Crawl.detailPage tr c).Nodup := by
  refine ⟨pageTools sampleListings, sampleLongSetup,
    ⟨_, _, setup_sampleLong (.inr (.inl rfl)), ?_⟩, _, _, setup_sampleLong (.inr (.inr rfl)), ?_⟩
  · have hrun : sampleRequested Crawl.listPage (str "http://a.gov.cn/list?page=1&type=2")
        [answered (str "http://a.gov.cn/list?page=1&type=2") (str "unnumbered"),
         answered (str "http://a.gov.cn/list?type=2&page=2") (str "itself")] =
        some ([str "http://a.gov.cn/list?page=1&type=2", str "http://a.gov.cn/list?type=2&page=2",
          str "http://a.gov.cn/list?page=2&type=2"], [str "http://a.gov.cn/art/1001.html"]) := by
      decide +kernel
    obtain ⟨tr, c, hsafe, hpages, -⟩ :=
      run_of_sampleRequested hrun (C := fun _ _ => True) fun _ _ => trivial
    -- The raised page is no normal form; the page that it names is, and it is the same page.
    have hraised : normalize (pageTools sampleListings)
        (str "http://a.gov.cn/list?type=2&page=2") =
          .ok (str "http://a.gov.cn/list?page=2&type=2") :=
      normalize_of_toOption (by decide +kernel)
    have hitself : normalize (pageTools sampleListings)
        (str "http://a.gov.cn/list?page=2&type=2") =
          .ok (str "http://a.gov.cn/list?page=2&type=2") :=
      normalize_of_toOption (by decide +kernel)
    refine ⟨tr, c, hsafe, fun hnodup => ?_⟩
    rw [hpages, List.map_cons, List.map_cons, List.map_cons, hraised, hitself] at hnodup
    exact (List.nodup_cons.mp (List.nodup_cons.mp hnodup).2).1 List.mem_cons_self
  · have hrun : sampleRequested Crawl.detailPage (str "http://a.gov.cn/art/1001.html")
        [answered (str "http://a.gov.cn/art/1001.html") (str "detail"),
         answered (str "http://a.gov.cn/list/2") (str "unnumbered"),
         .error (.value (str "answer is not HTML"))] =
        some ([str "http://a.gov.cn/art/1001.html", str "http://a.gov.cn/art/1001.html"],
          [str "http://a.gov.cn/art/1001.html", str "http://a.gov.cn/art/1001.html"]) := by
      decide +kernel
    obtain ⟨tr, c, hsafe, hdetails, hcandidates⟩ :=
      run_of_sampleRequested hrun (C := fun _ _ => True) fun _ _ => trivial
    refine ⟨tr, c, hsafe, ?_, ?_⟩
    · rw [hcandidates]
      decide
    · rw [hdetails]
      decide

end Odirag.Crawler
