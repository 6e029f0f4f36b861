import Odirag.Crawler.Generic

/-!
# Where an answer leads

Reference: `GenericCrawler` of `backend/app/crawler/generic.py`.

Whatever is read of an answer to a request for a list page or for a page of an API, the crawler ends
at one of four places (`Lands`): at the foot of the loop over the list pages, at the request for
another page of an API, after the loop, or with an error. What is known there is a parameter
(`Facts`), which only has to survive the items of an API. From this, what holds of every candidate
that is found and of every document that is read holds of all of them in every state (`next_all`), and
a list page is requested only if the foot of the loop found it (`leavePage_cases`).
-/

namespace Odirag.Crawler

open Json (Fields)

variable {T : CrawlTools} {K : Setup}

/-! ## Candidates -/

/-- Every candidate that was found has a property. -/
def Listing.All (Q : CandidateLink → Prop) (L : Listing) : Prop := ∀ c ∈ L.state.candidates, Q c

/-- A property of all candidates: those of links have it, and so do those of API items that pass
the test of the site. -/
structure OfCandidates (T : CrawlTools) (K : Setup) (Q : CandidateLink → Prop) : Prop where
  link : ∀ c, c.apiItem = none → Q c
  item : ∀ item config baseUrl c host,
    candidateFromApiItem T item config baseUrl = .ok (some c) → hostnameOf T c.url = .ok host →
      sameSite T K.baseHost host = true → Q c

section Candidates

variable {Q : CandidateLink → Prop}

theorem add_all {candidate : CandidateLink} {state : DiscoveryState} (hnew : Q candidate)
    (hold : ∀ c ∈ state.candidates, Q c) : ∀ c ∈ (state.add candidate).candidates, Q c := by
  intro c hc
  rcases List.mem_append.mp hc with hc | hc
  · exact hold c hc
  · rw [List.mem_singleton.mp hc]
    exact hnew

theorem addCandidates_all {candidates : List CandidateLink} {seen : List Text}
    {state : DiscoveryState} (hnew : ∀ c ∈ candidates, Q c) (hold : ∀ c ∈ state.candidates, Q c) :
    ∀ c ∈ (addCandidates K candidates (seen, state)).2.candidates, Q c := by
  induction candidates generalizing seen state with
  | nil => exact hold
  | cons candidate rest ih =>
      have hrest : ∀ c ∈ rest, Q c := fun c hc => hnew c (List.mem_cons_of_mem _ hc)
      have hadded := add_all (hnew candidate List.mem_cons_self) hold
      unfold addCandidates
      split_ifs
      · exact ih hrest hold
      · exact hadded
      · exact ih hrest hadded

theorem addItems_all (hQ : OfCandidates T K Q) {config : Fields} {baseUrl : Text}
    {items : List Fields} {seen : List Text} {state : DiscoveryState}
    (hold : ∀ c ∈ state.candidates, Q c) :
    ∀ c ∈ (addItems T K config baseUrl items (seen, state)).1.2.candidates, Q c := by
  induction items generalizing seen state with
  | nil => exact hold
  | cons item items ih =>
      unfold addItems
      split
      · exact hold
      · exact ih hold
      · next candidate hcandidate =>
          by_cases hseen : candidate.url ∈ seen
          · rw [if_pos hseen]
            exact ih hold
          · rw [if_neg hseen]
            split
            · exact hold
            · next host hhost =>
                by_cases hsite : sameSite T K.baseHost host = true
                · have hadded := add_all
                    (hQ.item item config baseUrl candidate host hcandidate hhost hsite) hold
                  rw [if_neg (by simp [hsite])]
                  split_ifs
                  · exact hadded
                  · exact ih hadded
                · rw [if_pos (by simpa using hsite)]
                  exact ih hold

/-- The candidate of a link comes from no API. -/
theorem apiItem_of_candidateOf {doc : T.Doc} {pageUrl baseHost currentUrl : Text}
    {pagination : Fields} {selected : Option (List T.Tag)} {element : T.Tag} {c : CandidateLink}
    (h : candidateOf T doc pageUrl baseHost pagination currentUrl selected element = .ok (some c)) :
    c.apiItem = none := by
  unfold candidateOf at h
  split at h
  · cases h
  · split at h
    · split at h
      · cases h
      · split at h
        · cases h
        · obtain ⟨host, -, h⟩ := bind_eq_ok.mp h
          dsimp only at h
          split at h
          · cases h
          · obtain ⟨extension, -, h⟩ := bind_eq_ok.mp h
            split at h
            · cases h
            · obtain ⟨⟨score, reasons⟩, -, h⟩ := bind_eq_ok.mp h
              dsimp only at h
              split at h
              · cases h
              · split at h
                · cases h
                · cases h
                  rfl
    · cases h

theorem apiItem_of_extracted {doc : T.Doc} {pageUrl baseHost currentUrl : Text}
    {selectors pagination : Fields} {candidates : List CandidateLink}
    (h : extractCandidates T doc pageUrl baseHost selectors pagination currentUrl = .ok candidates) :
    ∀ c ∈ candidates, c.apiItem = none := by
  obtain ⟨selected, -, h⟩ := bind_eq_ok.mp h
  obtain ⟨elements, -, h⟩ := bind_eq_ok.mp h
  obtain ⟨found, hfound, h⟩ := bind_eq_ok.mp h
  cases h
  intro c hc
  obtain ⟨element, -, hcandidate⟩ := mem_of_collect hfound
    ((List.perm_insertionSort _ found).mem_iff.mp hc)
  exact apiItem_of_candidateOf hcandidate

theorem addDirect_all (hQ : OfCandidates T K Q) {page : ListPage T} {L L' : Listing}
    (hold : L.All Q) (h : addDirect T K page L = .ok L') : L'.All Q := by
  unfold addDirect at h
  split at h
  · cases h
    exact hold
  · obtain ⟨looks, -, h⟩ := bind_eq_ok.mp h
    split at h
    · cases h
      exact hold
    · obtain ⟨direct, hdirect, h⟩ := bind_eq_ok.mp h
      cases h
      refine add_all (hQ.link direct ?_) hold
      obtain ⟨url, -, hdirect⟩ := bind_eq_ok.mp hdirect
      cases hdirect
      rfl

/-- The candidates after a list page is read. -/
theorem readPage_all (hQ : OfCandidates T K Q) {L L' : Listing} {response : FetchResponse}
    {page : ListPage T} {text : Text} (hold : L.All Q)
    (h : readPage T K L response = .ok (page, text, L')) : L'.All Q := by
  obtain ⟨visited, -, h⟩ := bind_eq_ok.mp h
  obtain ⟨decoded, -, h⟩ := bind_eq_ok.mp h
  obtain ⟨doc, -, h⟩ := bind_eq_ok.mp h
  obtain ⟨classification, -, h⟩ := bind_eq_ok.mp h
  obtain ⟨candidates, hextracted, h⟩ := bind_eq_ok.mp h
  obtain ⟨listing, hdirect, h⟩ := bind_eq_ok.mp h
  cases h
  refine addDirect_all hQ ?_ hdirect
  exact addCandidates_all (fun c hc => hQ.link c (apiItem_of_extracted hextracted c hc)) hold

end Candidates

/-! ## Exits -/

/-- What is known at the places to which an answer leads: of the list page and the loop over the list
pages while an API is read and at the foot of the loop, of the candidates after it, and of the page of
an API that is requested, with the list page and the hints that are left. -/
structure Facts (T : CrawlTools) where
  api : ListPage T → Listing → Prop
  foot : ListPage T → Listing → Prop
  finished : List CandidateLink → Prop
  source : ListPage T → List Text → Text → Prop

/-- Two loops that differ in their diagnostics only. -/
structure Listing.Same (L L' : Listing) : Prop where
  pageIndex : L'.pageIndex = L.pageIndex
  visited : L'.visited = L.visited
  seen : L'.seen = L.seen
  candidates : L'.state.candidates = L.state.candidates

/-- The loop after the items of an API. -/
def Listing.withItems (T : CrawlTools) (K : Setup) (L : Listing) (config : Fields) (baseUrl : Text)
    (items : List Fields) : Listing :=
  { L with
    seen := (addItems T K config baseUrl items (L.seen, L.state)).1.1
    state := (addItems T K config baseUrl items (L.seen, L.state)).1.2 }

/-- What is known while an API is read is kept, and enough at the foot of the loop. -/
structure Facts.Kept (F : Facts T) (K : Setup) : Prop where
  same : ∀ page L L', L.Same L' → F.api page L → F.api page L'
  items : ∀ page L config baseUrl items, F.api page L →
    F.api page (L.withItems T K config baseUrl items)
  foot : ∀ page L, F.api page L → F.foot page L

/-- Where an answer to a request for a list page or a page of an API leads. -/
inductive Lands (K : Setup) (F : Facts T) : Crawl T → Prop
  | foot (page : ListPage T) (L : Listing) (known : F.foot page L) : Lands K F (leavePage T K page L)
  | api (A : ApiLoop T) (known : F.api A.page A.listing) (source : F.source A.page A.hints A.pageUrl) :
      Lands K F (.api A)
  | finished (state : DiscoveryState) (known : F.finished state.candidates) :
      Lands K F (discovered T K state)
  | failed (error : CrawlError) : Lands K F (.done (.error error))

/-- The hints of a page lead to pages of an API with a property. -/
def HintsLead (S : ListPage T → List Text → Text → Prop) (page : ListPage T) (hints : List Text) :
    Prop :=
  ∀ before hint rest url, hints = before ++ hint :: rest →
    normalize T hint page.response.url = .ok url → S page rest url

theorem HintsLead.tail {S : ListPage T → List Text → Text → Prop} {page : ListPage T} {hint : Text}
    {hints : List Text} (h : HintsLead S page (hint :: hints)) : HintsLead S page hints := by
  rintro before hint' rest url rfl hurl
  exact h (hint :: before) hint' rest url rfl hurl

section Lands

variable {F : Facts T}

theorem leaveApi_lands (hF : F.Kept K) {page : ListPage T} {L : Listing} (hL : F.api page L) :
    Lands K F (leaveApi T K page L) := by
  unfold leaveApi
  dsimp only
  split
  · exact .foot _ _ (hF.foot _ _ (hF.same _ L _ (by constructor <;> rfl) hL))
  · exact .foot _ _ (hF.foot _ _ hL)

theorem enterApiPage_eq {A A' : ApiLoop T} (h : enterApiPage T K A = some A') : A' = A := by
  unfold enterApiPage at h
  split at h
  · exact (Option.some.inj h).symm
  · cases h

theorem tryHints_lands (hF : F.Kept K) {page : ListPage T} {config : Fields} {hintIndex : ℕ}
    {hints : List Text} {L : Listing} (hL : F.api page L) (hhints : HintsLead F.source page hints) :
    Lands K F (tryHints T K page config hintIndex hints L) := by
  induction hints generalizing hintIndex L with
  | nil => exact leaveApi_lands hF hL
  | cons hint hints ih =>
      unfold tryHints
      split
      · exact ih (hF.same _ L _ (by constructor <;> rfl) hL) hhints.tail
      · next url hurl =>
          dsimp only
          split
          · next A hA =>
              obtain rfl := enterApiPage_eq hA
              exact .api _ hL (hhints [] hint hints url rfl hurl)
          · split
            · exact ih hL hhints.tail
            · exact leaveApi_lands hF hL

theorem leaveHint_lands (hF : F.Kept K) {A : ApiLoop T} (hL : F.api A.page A.listing)
    (hhints : HintsLead F.source A.page A.hints) : Lands K F (leaveHint T K A) := by
  unfold leaveHint
  split
  · exact tryHints_lands hF hL hhints
  · exact leaveApi_lands hF hL

theorem raiseInHint_lands (hF : F.Kept K) {A : ApiLoop T} {exc : Exn} {L : Listing}
    (hL : F.api A.page L) (hhints : HintsLead F.source A.page A.hints) :
    Lands K F (raiseInHint T K A exc L) := by
  unfold raiseInHint
  split
  · exact tryHints_lands hF (hF.same _ L _ (by constructor <;> rfl) hL) hhints
  · exact .failed _

theorem discoverApiFallback_lands (hF : F.Kept K) {page : ListPage T} {text : Text} {L : Listing}
    (hL : F.api page L) (hhints : HintsLead F.source page
      ((apiHints T (apiConfig K.selectors K.pagination) page text).take 3)) :
    Lands K F (discoverApiFallback T K page text L) := by
  unfold discoverApiFallback
  dsimp only
  split
  · exact .foot _ _ (hF.foot _ _ (hF.same _ L _ (by constructor <;> rfl) hL))
  · exact tryHints_lands hF (hF.same _ L _ (by constructor <;> rfl) hL) hhints

theorem leaveApiPage_lands (hF : F.Kept K) {A : ApiLoop T} {payload : Json}
    (hL : F.api A.page A.listing) (hhints : HintsLead F.source A.page A.hints)
    (hnext : ∀ url, nextApiUrl T payload A.pageUrl A.config A.pageIndex = .ok (some url) →
      F.source A.page A.hints url) :
    Lands K F (leaveApiPage T K A payload) := by
  unfold leaveApiPage
  split
  · exact leaveHint_lands hF hL hhints
  · split
    · exact raiseInHint_lands hF hL hhints
    · exact leaveHint_lands hF hL hhints
    · next url hurl =>
        split
        · next A' hA =>
            obtain rfl := enterApiPage_eq hA
            exact .api _ hL (hnext url hurl)
        · exact leaveHint_lands hF hL hhints

theorem readItems_lands (hF : F.Kept K) {A : ApiLoop T} {response : FetchResponse} {payload : Json}
    (hL : F.api A.page A.listing) (hhints : HintsLead F.source A.page A.hints)
    (hnext : ∀ url, nextApiUrl T payload A.pageUrl A.config A.pageIndex = .ok (some url) →
      F.source A.page A.hints url) :
    Lands K F (readItems T K A response payload) := by
  -- The items are counted before they are added.
  have hcounted : F.api A.page { A.listing with state := { A.listing.state with
      apiDiscovery := A.listing.state.apiDiscovery.map fun api =>
        { api with items := api.items + (extractApiItems payload A.config).length } } } :=
    hF.same _ A.listing _ (by constructor <;> rfl) hL
  have hadded := hF.items _ _ A.config response.url (extractApiItems payload A.config) hcounted
  unfold readItems
  dsimp only
  split
  · exact leaveHint_lands hF hcounted hhints
  · split
    · exact raiseInHint_lands hF hadded hhints
    · exact leaveApiPage_lands hF hadded hhints hnext

/-- Where the answer to a request for a page of an API leads. -/
theorem readApi_lands (hF : F.Kept K) {A : ApiLoop T} {answer : Answer}
    (hL : F.api A.page A.listing) (hhints : HintsLead F.source A.page A.hints)
    (hnext : ∀ response payload url, answer = .ok response →
      (T.decode response.content response.encoding >>= T.loads) = .ok payload →
      nextApiUrl T payload A.pageUrl A.config A.pageIndex = .ok (some url) →
      F.source A.page A.hints url) :
    Lands K F (readApi T K A answer) := by
  cases answer with
  | error exc => exact raiseInHint_lands hF hL hhints
  | ok response =>
      dsimp only [readApi]
      split
      · exact raiseInHint_lands hF hL hhints
      · next url _ =>
          have hvisited : F.api A.page { A.listing with state := { A.listing.state with
              visitedPages := A.listing.state.visitedPages ++ [url]
              apiDiscovery := A.listing.state.apiDiscovery.map fun api =>
                { api with requests := api.requests + 1 } } } :=
            hF.same _ A.listing _ (by constructor <;> rfl) hL
          split
          · exact raiseInHint_lands hF hvisited hhints
          · next payload hpayload =>
              exact readItems_lands hF hvisited hhints fun url hurl =>
                hnext response payload url rfl hpayload hurl

/-- Where the answer to a request for a list page leads. -/
theorem readList_lands (hF : F.Kept K) {L : Listing} {answer : Answer}
    (hover : F.finished L.state.candidates)
    (hfoot : ∀ response page text L', answer = .ok response →
      readPage T K L response = .ok (page, text, L') → F.foot page L')
    (hapi : ∀ response page text L', answer = .ok response →
      readPage T K L response = .ok (page, text, L') →
      L'.state.candidates = [] → L'.pageIndex = 0 → F.api page L' ∧ HintsLead F.source page
        ((apiHints T (apiConfig K.selectors K.pagination) page text).take 3)) :
    Lands K F (readList T K L answer) := by
  cases answer with
  | error exc =>
      dsimp only [readList]
      split
      · split
        · exact .failed _
        · exact .failed _
      · exact .finished _ hover
  | ok response =>
      dsimp only [readList]
      split
      · exact .failed _
      · next page text L' hread =>
          split
          · next hempty =>
              obtain ⟨hL', hhints⟩ := hapi response page text L' rfl hread hempty.1 hempty.2
              exact discoverApiFallback_lands hF hL' hhints
          · exact .foot _ _ (hfoot response page text L' rfl hread)

end Lands

/-! ## A property of all candidates -/

/-- Where an answer to a request for a list page or a page of an API leads. `Q` is a property of all
candidates, and `S` one of the page of an API that is requested, with the list page and the hints
that are left. -/
inductive Exit (T : CrawlTools) (K : Setup) (Q : CandidateLink → Prop)
    (S : ListPage T → List Text → Text → Prop) : Crawl T → Prop
  | foot (page : ListPage T) (L : Listing) (found : L.All Q) : Exit T K Q S (leavePage T K page L)
  | api (A : ApiLoop T) (found : A.listing.All Q) (source : S A.page A.hints A.pageUrl) :
      Exit T K Q S (.api A)
  | finished (state : DiscoveryState) (found : ∀ c ∈ state.candidates, Q c) :
      Exit T K Q S (discovered T K state)
  | failed (error : CrawlError) : Exit T K Q S (.done (.error error))

section Exits

variable {Q : CandidateLink → Prop} {S : ListPage T → List Text → Text → Prop}

/-- Every candidate has the property, wherever an answer leads. -/
def Facts.all (Q : CandidateLink → Prop) (S : ListPage T → List Text → Text → Prop) : Facts T where
  api _ L := L.All Q
  foot _ L := L.All Q
  finished candidates := ∀ c ∈ candidates, Q c
  source := S

theorem Facts.all_kept (hQ : OfCandidates T K Q) : (Facts.all Q S).Kept K where
  same _ _ _ hsame hL := fun c hc => hL c (hsame.candidates ▸ hc)
  items _ _ _ _ _ hL := addItems_all hQ hL
  foot _ _ hL := hL

theorem Lands.exit {c : Crawl T} (h : Lands K (Facts.all Q S) c) : Exit T K Q S c := by
  cases h with
  | foot page L known => exact .foot page L known
  | api A known source => exact .api A known source
  | finished state known => exact .finished state known
  | failed error => exact .failed error

theorem readApi_exit (hQ : OfCandidates T K Q) {A : ApiLoop T} {answer : Answer}
    (hfound : A.listing.All Q) (hhints : HintsLead S A.page A.hints)
    (hnext : ∀ response payload url, answer = .ok response →
      (T.decode response.content response.encoding >>= T.loads) = .ok payload →
      nextApiUrl T payload A.pageUrl A.config A.pageIndex = .ok (some url) →
      S A.page A.hints url) :
    Exit T K Q S (readApi T K A answer) :=
  (readApi_lands (F := Facts.all Q S) (Facts.all_kept hQ) hfound hhints hnext).exit

theorem readList_exit (hQ : OfCandidates T K Q) {L : Listing} {answer : Answer} (hfound : L.All Q)
    (hhints : ∀ response page text L', answer = .ok response →
      readPage T K L response = .ok (page, text, L') →
      L'.state.candidates = [] → L'.pageIndex = 0 →
      HintsLead S page ((apiHints T (apiConfig K.selectors K.pagination) page text).take 3)) :
    Exit T K Q S (readList T K L answer) := by
  refine (readList_lands (F := Facts.all Q S) (Facts.all_kept hQ) hfound ?_ ?_).exit
  · intro response page text L' _ hread
    exact readPage_all hQ hfound hread
  · intro response page text L' hanswer hread hempty hindex
    exact ⟨readPage_all hQ hfound hread, hhints response page text L' hanswer hread hempty hindex⟩

end Exits

/-! ## All documents -/

/-- Every candidate that was found and every document that was read have a property. -/
def Crawl.All (P : CrawledDocument → Prop) (Q : CandidateLink → Prop) : Crawl T → Prop
  | .listing L => L.All Q
  | .api A => A.listing.All Q
  | .detail candidate rest documents _ =>
      Q candidate ∧ (∀ c ∈ rest, Q c) ∧ ∀ d ∈ documents, P d
  | .done (.ok result) => ∀ d ∈ result.documents, P d
  | .done (.error _) => True

/-- The documents that were read. -/
def Crawl.documents : Crawl T → List CrawledDocument
  | .detail _ _ documents _ => documents
  | .done (.ok result) => result.documents
  | _ => []

/-- The list page that a crawl waits for. -/
def Crawl.listPage : Crawl T → Option Text
  | .listing L => some L.current
  | _ => none

/-- The page of an API that a crawl waits for. -/
def Crawl.apiPage : Crawl T → Option Text
  | .api A => some A.pageUrl
  | _ => none

/-- No page is requested once the details are read. -/
theorem details_pages (candidates : List CandidateLink) (documents : List CrawledDocument)
    (state : DiscoveryState) : (details T K candidates documents state).listPage = none ∧
      (details T K candidates documents state).apiPage = none := by
  induction candidates generalizing documents state with
  | nil => exact ⟨rfl, rfl⟩
  | cons candidate rest ih =>
      unfold details
      split
      · exact ⟨rfl, rfl⟩
      · split
        · exact ⟨rfl, rfl⟩
        · exact ih _ _

section Documents

variable {P : CrawledDocument → Prop} {Q : CandidateLink → Prop}

theorem Crawl.All.documents {c : Crawl T} (h : c.All P Q) : ∀ d ∈ c.documents, P d := by
  cases c with
  | listing L => simp [Crawl.documents]
  | api A => simp [Crawl.documents]
  | detail candidate rest documents state => exact h.2.2
  | done outcome =>
      cases outcome with
      | ok result => exact h
      | error e => simp [Crawl.documents]

theorem addDetail_all {candidate : CandidateLink} {documents : List CrawledDocument}
    {state : DiscoveryState} {document : Except Exn CrawledDocument} (hold : ∀ d ∈ documents, P d)
    (hnew : ∀ d, document = .ok d → P { d with discoveryScore := candidate.score }) :
    ∀ d ∈ (addDetail candidate documents state document).1, P d := by
  cases document with
  | error exc => exact hold
  | ok document =>
      intro d hd
      rcases List.mem_append.mp hd with hd | hd
      · exact hold d hd
      · rw [List.mem_singleton.mp hd]
        exact hnew document rfl

theorem conclude_all {documents : List CrawledDocument} {state : DiscoveryState}
    (hold : ∀ d ∈ documents, P d) : ∀ d ∈ (conclude K documents state).documents, P d := by
  intro d hd
  unfold conclude at hd
  dsimp only at hd
  split at hd
  · exact hold d hd
  · exact hold d (List.mem_of_mem_take hd)

/-- The documents of API items have a property if the candidates have theirs. -/
def OfItems (T : CrawlTools) (P : CrawledDocument → Prop) (Q : CandidateLink → Prop) : Prop :=
  ∀ c item d, Q c → c.apiItem = some item → documentFromApiItem T item c.url = .ok d →
    P { d with discoveryScore := c.score }

theorem details_all (hP : OfItems T P Q) {candidates : List CandidateLink}
    {documents : List CrawledDocument} {state : DiscoveryState} (hfound : ∀ c ∈ candidates, Q c)
    (hold : ∀ d ∈ documents, P d) : (details T K candidates documents state).All P Q := by
  induction candidates generalizing documents state with
  | nil => exact conclude_all hold
  | cons candidate rest ih =>
      have hcandidate := hfound candidate List.mem_cons_self
      have hrest : ∀ c ∈ rest, Q c := fun c hc => hfound c (List.mem_cons_of_mem _ hc)
      unfold details
      split
      · exact conclude_all hold
      · split
        · exact ⟨hcandidate, hrest, hold⟩
        · next item hitem =>
            refine ih hrest (addDetail_all hold fun d hd => ?_)
            exact hP candidate item d hcandidate (Option.filter_eq_some_iff.mp hitem).1 hd

theorem discovered_all (hP : OfItems T P Q) {state : DiscoveryState}
    (hfound : ∀ c ∈ state.candidates, Q c) : (discovered T K state).All P Q := by
  obtain ⟨state', hstate, hsame⟩ : ∃ state', (if state.candidates = [] ∧ state.failures.isEmpty then
      { state with warnings := state.warnings ++ ["NO_ARTICLES"] } else state) = state' ∧
        state'.candidates = state.candidates := ⟨_, rfl, by split <;> rfl⟩
  unfold discovered
  simp only [hstate]
  refine details_all hP (fun c hc => hfound c ?_) (by simp)
  rw [← hsame]
  split at hc
  · exact hc
  · exact List.mem_of_mem_take hc

/-- The head of the loop over the list pages ends the discovery or requests the page. -/
theorem enterPage_cases (pageIndex : ℕ) (current : Option Text) (L : Listing) :
    (∃ state, enterPage T K pageIndex current L = discovered T K state ∧
      state.candidates = L.state.candidates) ∨
    ∃ url, current = some url ∧ pageIndex < K.maxPages ∧ url ∉ L.visited ∧
      enterPage T K pageIndex current L = .listing
        { L with pageIndex := pageIndex, current := url, visited := url :: L.visited } := by
  unfold enterPage
  split
  · exact .inl ⟨_, rfl, rfl⟩
  · next hpage =>
      split
      · exact .inl ⟨_, rfl, rfl⟩
      · next url =>
          split
          · exact .inl ⟨_, rfl, rfl⟩
          · next hvisited =>
              split
              · exact .inl ⟨_, rfl, rfl⟩
              · exact .inr ⟨url, rfl, Nat.lt_of_not_le hpage, hvisited, rfl⟩

/-- The foot of the loop over the list pages ends the discovery, fails, or requests the page that
was found as the next one. -/
theorem leavePage_cases (page : ListPage T) (L : Listing) :
    (∃ state, leavePage T K page L = discovered T K state ∧
      state.candidates = L.state.candidates) ∨
    (∃ exc, leavePage T K page L = .done (.error (.raised exc))) ∨
    ∃ url L', findNextPage T page.doc page.response.url K.pagination L.visited = .ok (some url) ∧
      L.state.candidates.length < K.pageLimit ∧
      L.noNewPages < intConfig T.toNetTools K.pagination (str "stop_after_no_new_pages") 2 ∧
      L.pageIndex + 1 < K.maxPages ∧ url ∉ L.visited ∧
      leavePage T K page L = .listing L' ∧ L'.pageIndex = L.pageIndex + 1 ∧ L'.current = url ∧
      L'.visited = url :: L.visited ∧ L'.seen = L.seen ∧
      L'.state.candidates = L.state.candidates := by
  unfold leavePage
  dsimp only
  split
  · exact .inl ⟨_, rfl, rfl⟩
  · next hlimit =>
      split
      · exact .inl ⟨_, rfl, rfl⟩
      · next hstop =>
            split
            · exact .inr (.inl ⟨_, rfl⟩)
            · next next hnext =>
                rcases enterPage_cases (L.pageIndex + 1) next { L with state := { L.state with
                  paginationEvents := L.state.paginationEvents ++ [.next (L.pageIndex + 1) next
                    (L.state.candidates.length - page.before)] } } with ⟨state, heq, hsame⟩ | hpage
                · exact .inl ⟨state, heq, hsame⟩
                · obtain ⟨url, rfl, hindex, hvisited, heq⟩ := hpage
                  exact .inr (.inr ⟨url, _, hnext, Nat.lt_of_not_le hlimit, Nat.lt_of_not_le hstop,
                    hindex, hvisited, heq, rfl, rfl, rfl, rfl, rfl⟩)

theorem leavePage_all (hP : OfItems T P Q) {page : ListPage T} {L : Listing}
    (hfound : L.All Q) : (leavePage T K page L).All P Q := by
  rcases leavePage_cases page L with ⟨state, heq, hsame⟩ | ⟨exc, heq⟩ | hnext
  · rw [heq]
    exact discovered_all hP (hsame ▸ hfound)
  · rw [heq]
    trivial
  · obtain ⟨url, L', -, -, -, -, -, heq, -, -, -, -, hsame⟩ := hnext
    rw [heq]
    change ∀ c ∈ L'.state.candidates, Q c
    rw [hsame]
    exact hfound

/-- The foot of the loop over the list pages leads to no page of an API. -/
theorem leavePage_apiPage (page : ListPage T) (L : Listing) :
    (leavePage T K page L).apiPage = none := by
  rcases leavePage_cases page L with ⟨state, heq, -⟩ | ⟨exc, heq⟩ | hnext
  · rw [heq]
    exact (details_pages _ _ _).2
  · rw [heq]
    rfl
  · obtain ⟨url, L', -, -, -, -, -, heq, -⟩ := hnext
    rw [heq]
    rfl

/-- A page of an API is requested with the property of these pages. -/
theorem Exit.source {S : ListPage T → List Text → Text → Prop} {c : Crawl T}
    (h : Exit T K Q S c) {A : ApiLoop T} (hA : c = .api A) : S A.page A.hints A.pageUrl := by
  have hpage : c.apiPage = some A.pageUrl := by
    rw [hA]
    rfl
  cases h with
  | foot page L found =>
      rw [leavePage_apiPage] at hpage
      cases hpage
  | api A' found source =>
      cases hA
      exact source
  | finished state found =>
      rw [discovered, (details_pages _ _ _).2] at hpage
      cases hpage
  | failed error => cases hA

theorem Exit.all (hP : OfItems T P Q) {S : ListPage T → List Text → Text → Prop} {c : Crawl T}
    (h : Exit T K Q S c) : c.All P Q := by
  cases h with
  | foot page L found => exact leavePage_all hP found
  | api A found source => exact found
  | finished state found => exact discovered_all hP found
  | failed error => trivial

/-- What a step keeps. -/
theorem next_all (hQ : OfCandidates T K Q) (hP : OfItems T P Q) {c c' : Crawl T} {answer : Answer}
    (hall : c.All P Q) (hnext : next T K c answer = some c')
    (hdetail : ∀ candidate rest documents state d, c = .detail candidate rest documents state →
      parseDetail T K answer = .ok d → P { d with discoveryScore := candidate.score }) :
    c'.All P Q := by
  cases c with
  | listing L =>
      obtain rfl := Option.some.inj hnext
      exact (readList_exit (S := fun _ _ _ => True) hQ hall
        fun _ _ _ _ _ _ _ _ _ _ _ _ _ _ => trivial).all hP
  | api A =>
      obtain rfl := Option.some.inj hnext
      exact (readApi_exit (S := fun _ _ _ => True) hQ hall (fun _ _ _ _ _ _ => trivial)
        fun _ _ _ _ _ _ => trivial).all hP
  | detail candidate rest documents state =>
      obtain rfl := Option.some.inj hnext
      obtain ⟨-, hrest, hdocuments⟩ := hall
      exact details_all hP hrest (addDetail_all hdocuments fun d hd =>
        hdetail candidate rest documents state d rfl hd)
  | done outcome => cases hnext

end Documents

end Odirag.Crawler
