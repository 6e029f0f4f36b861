import Odirag.Crawler.Urls

/-!
# Fetching

Reference: `HttpFetcher.fetch` of `backend/app/crawler/fetcher.py`.

Validate a URL, request it, follow its redirect by hand, read the body up to a limit, and try the
whole thing again after a connection error or a read timeout. The resolver and the servers are one
opponent with a state of its own, who chooses every answer. `Attempt` keeps what was validated and
what was requested in order, and the theorem at the end says what no opponent can make the fetcher
do.
-/

namespace Odirag.Crawler

/-- A part of a body, or how reading it ends. -/
inductive Chunk
  | data (bytes : List UInt8)
  | readTimeout
  | raises (name : String)

/-- `httpx.Response`, as far as it is read. -/
structure Response where
  status : ℕ
  url : Text
  location : Option Text
  contentLength : Option Text
  contentType : Option Text
  encoding : Option Text
  contentDisposition : Option Text
  body : List Chunk

/-- What a request leads to. -/
inductive Reply
  | connectError
  | readTimeout
  | raises (name : String)
  | response (r : Response)

/-- Resolver and servers. -/
structure Opponent (σ : Type*) where
  resolve : σ → Text → ResolverAnswer × σ
  send : σ → Text → Reply × σ

/-- `FetchResponse`. -/
structure FetchResponse where
  url : Text
  statusCode : ℕ
  content : List UInt8
  contentType : Text
  encoding : Text
  contentDisposition : Option Text

/-- The exceptions of `fetch`. -/
inductive FetchError
  | validation (error : ValidationError)
  | connectError
  | readTimeout
  | httpStatus (status : ℕ)
  | responseTooLarge
  | redirectLimit
  | value (message : String)
  | raises (name : String)

/-- `HttpFetcher`, as far as it is read. -/
structure HttpFetcher where
  maxBytes : ℕ
  maxRedirects : ℕ

/-- `_REDIRECT_STATUS_CODES`. -/
def redirectStatusCodes : List ℕ := [301, 302, 303, 307, 308]

/-- `raise_for_status`. -/
def isSuccess (status : ℕ) : Bool := 200 ≤ status && status ≤ 299

/-- A step of `fetch` that the outside sees: a URL was validated, with this result, or requested. -/
inductive Event (σ : Type*)
  | validated (before : σ) (url result : Text)
  | requested (url : Text)

/-- One attempt: how it ends, what it did, and the opponent afterwards. -/
structure Attempt (σ : Type*) where
  outcome : Except FetchError FetchResponse
  events : List (Event σ)
  opponent : σ

section

variable (N : NetTools) (fetcher : HttpFetcher)

/-- `_content_length`. -/
def contentLength (r : Response) : Except FetchError (Option ℤ) :=
  match r.contentLength with
  | none => .ok none
  | some value =>
      match N.parseInt value with
      | none => .error (.value "response Content-Length is invalid")
      | some length =>
          if length < 0 then .error (.value "response Content-Length is invalid")
          else .ok (some length)

/-- The loop over the chunks. -/
def readChunks (maxBytes : ℕ) : List UInt8 → List Chunk → Except FetchError (List UInt8)
  | content, [] => .ok content
  | _, .readTimeout :: _ => .error .readTimeout
  | _, .raises name :: _ => .error (.raises name)
  | content, .data bytes :: rest =>
      if maxBytes < content.length + bytes.length then .error .responseTooLarge
      else readChunks maxBytes (content ++ bytes) rest

/-- `_read_limited`. -/
def readLimited (r : Response) : Except FetchError (List UInt8) := do
  let declared ← contentLength N r
  if declared.any fun length => (fetcher.maxBytes : ℤ) < length then throw .responseTooLarge
  readChunks fetcher.maxBytes [] r.body

/-- `_encoding_from_content_type`. -/
def encodingFromContentType (value : Text) : Option Text :=
  ((value.splitOn ';').drop 1).findSome? fun item =>
    let (key, content) := Url.partition '=' (strip item)
    match content with
    | some content =>
        if N.lower key = str "charset" then
          -- Both quotation marks and the space.
          some (Text.stripBy (fun c => c.toNat == 34 || c.toNat == 39 || c == ' ') content)
        else none
    | none => none

/-- The response that is returned. -/
def fetchResponse (r : Response) (content : List UInt8) : FetchResponse :=
  let contentType := r.contentType.getD (str "application/octet-stream")
  -- An empty encoding counts as missing.
  let encoding := (r.encoding.filter (· ≠ [])).orElse fun _ =>
    (encodingFromContentType N contentType).filter (· ≠ [])
  { url := r.url
    statusCode := r.status
    content := content
    contentType := N.lower (strip (Url.partition ';' contentType).1)
    encoding := encoding.getD (str "utf-8")
    contentDisposition := r.contentDisposition }

/-- A response that is no redirect. -/
def finish (r : Response) : Except FetchError FetchResponse :=
  if isSuccess r.status then (readLimited N fetcher r).map (fetchResponse N r)
  else .error (.httpStatus r.status)

variable {σ : Type*} (O : Opponent σ)

/-- Validate and request one URL; `redirect` goes on with a location. -/
def visit (redirect : Text → Text → σ → Attempt σ) (current : Text) (s : σ) : Attempt σ :=
  match validatePublicUrl N O.resolve s current with
  | (.error e, s) => ⟨.error (.validation e), [], s⟩
  | (.ok url, s') =>
      let events := [.validated s current url, .requested url]
      let (reply, s') := O.send s' url
      match reply with
      | .connectError => ⟨.error .connectError, events, s'⟩
      | .readTimeout => ⟨.error .readTimeout, events, s'⟩
      | .raises name => ⟨.error (.raises name), events, s'⟩
      | .response r =>
          if r.status ∈ redirectStatusCodes then
            match r.location with
            | none => ⟨.error (.httpStatus r.status), events, s'⟩
            | some location =>
                let rest := redirect r.url location s'
                { rest with events := events ++ rest.events }
          else ⟨finish N fetcher r, events, s'⟩

/-- The loop over the redirects, of which this many more are allowed. -/
def follow : ℕ → Text → σ → Attempt σ
  | 0 => visit N fetcher O fun _ _ s => ⟨.error .redirectLimit, [], s⟩
  | hops + 1 =>
      visit N fetcher O fun base location s =>
        match Url.urljoin N.toTools base location with
        | none => ⟨.error (.value "Invalid IPv6 URL"), [], s⟩
        | some next => follow hops next s

/-- `retry_if_exception_type((httpx.ConnectError, httpx.ReadTimeout))`. -/
def isRetried : Except FetchError FetchResponse → Bool
  | .error .connectError => true
  | .error .readTimeout => true
  | _ => false

/-- Try up to this many times. -/
def attempts (url : Text) : ℕ → σ → List (Attempt σ)
  | 0, _ => []
  | n + 1, s =>
      let a := follow N fetcher O fetcher.maxRedirects url s
      a :: if isRetried a.outcome then attempts url n a.opponent else []

/-- `fetch`: its attempts, the last of which decides. -/
def fetch (url : Text) (s : σ) : List (Attempt σ) := attempts N fetcher O url 3 s

end

/-- How `fetch` ends. -/
def outcome {σ : Type*} (as : List (Attempt σ)) : Option (Except FetchError FetchResponse) :=
  as.getLast?.map Attempt.outcome

/-! ## What happens in an attempt -/

/-- How many requests are made. -/
def requests {σ : Type*} (events : List (Event σ)) : List Text :=
  events.filterMap fun
    | .requested url => some url
    | .validated .. => none

section

variable {N : NetTools} {fetcher : HttpFetcher} {σ : Type*} {O : Opponent σ}

/-- Each request comes right after a validation that returned its URL. -/
inductive Vetted (N : NetTools) (O : Opponent σ) : List (Event σ) → Prop
  | nil : Vetted N O []
  | visit {s : σ} {url result : Text} {events : List (Event σ)} :
      (validatePublicUrl N O.resolve s url).1 = .ok result → Vetted N O events →
        Vetted N O (.validated s url result :: .requested result :: events)

/-- A returned response is within the limits. -/
def Limited (fetcher : HttpFetcher) (result : Except FetchError FetchResponse) : Prop :=
  ∀ r, result = .ok r → r.statusCode ∉ redirectStatusCodes ∧ r.content.length ≤ fetcher.maxBytes

theorem length_readChunks {maxBytes : ℕ} {content result : List UInt8} {chunks : List Chunk}
    (h : readChunks maxBytes content chunks = .ok result) (hcontent : content.length ≤ maxBytes) :
    result.length ≤ maxBytes := by
  induction chunks generalizing content with
  | nil =>
      cases h
      exact hcontent
  | cons chunk rest ih =>
      cases chunk with
      | readTimeout => cases h
      | raises name => cases h
      | data bytes =>
          rw [readChunks] at h
          split_ifs at h with hlimit
          exact ih h (by rw [List.length_append]; omega)

theorem length_readLimited {r : Response} {content : List UInt8}
    (h : readLimited N fetcher r = .ok content) : content.length ≤ fetcher.maxBytes := by
  unfold readLimited at h
  cases hlength : contentLength N r with
  | error e => simp [hlength, bind, Except.bind] at h
  | ok declared =>
      simp only [hlength, bind, Except.bind] at h
      split_ifs at h with hlimit
      exact length_readChunks h (Nat.zero_le _)

/-- What is read from a response is within the limits. -/
theorem limited_finish {r : Response} (hstatus : r.status ∉ redirectStatusCodes) :
    Limited fetcher (finish N fetcher r) := by
  intro result h
  unfold finish at h
  split_ifs at h with hsuccess
  cases hread : readLimited N fetcher r with
  | error e => simp [hread, Except.map] at h
  | ok content =>
      obtain rfl : fetchResponse N r content = result := by simpa [hread, Except.map] using h
      exact ⟨hstatus, length_readLimited hread⟩

theorem limited_error (fetcher : HttpFetcher) (e : FetchError) : Limited fetcher (.error e) :=
  fun _ h => by cases h

/-- An attempt with at most `n` requests that keeps to the rules. -/
structure Orderly (N : NetTools) (fetcher : HttpFetcher) (O : Opponent σ) (n : ℕ)
    (a : Attempt σ) : Prop where
  vetted : Vetted N O a.events
  requests : (requests a.events).length ≤ n
  limited : Limited fetcher a.outcome

theorem Orderly.error (n : ℕ) (e : FetchError) (s : σ) :
    Orderly N fetcher O n ⟨.error e, [], s⟩ :=
  ⟨.nil, Nat.zero_le _, limited_error fetcher e⟩

/-- One visit adds one request. -/
theorem Orderly.visit {redirect : Text → Text → σ → Attempt σ} {n : ℕ}
    (hredirect : ∀ base location s, Orderly N fetcher O n (redirect base location s))
    (current : Text) (s : σ) :
    Orderly N fetcher O (n + 1) (Crawler.visit N fetcher O redirect current s) := by
  unfold Crawler.visit
  split
  · exact .error _ _ _
  · next url s' hvalidated =>
      have hok : (validatePublicUrl N O.resolve s current).1 = .ok url := by rw [hvalidated]
      have hone : Vetted N O [.validated s current url, .requested url] := .visit hok .nil
      have hend : ∀ (result : Except FetchError FetchResponse) (s' : σ), Limited fetcher result →
          Orderly N fetcher O (n + 1)
            ⟨result, [.validated s current url, .requested url], s'⟩ :=
        fun result s' hresult => ⟨hone, by simp [Crawler.requests], hresult⟩
      simp only
      split
      · exact hend _ _ (limited_error fetcher _)
      · exact hend _ _ (limited_error fetcher _)
      · exact hend _ _ (limited_error fetcher _)
      · next r _ =>
          split
          · split
            · exact hend _ _ (limited_error fetcher _)
            · next location _ =>
                obtain ⟨hvetted, hrequests, hlimited⟩ :=
                  hredirect r.url location (O.send s' url).2
                refine ⟨.visit hok hvetted, ?_, hlimited⟩
                simpa [Crawler.requests] using hrequests
          · next hstatus => exact hend _ _ (limited_finish hstatus)

/-- An attempt makes one request more than it follows redirects. -/
theorem orderly_follow (hops : ℕ) (current : Text) (s : σ) :
    Orderly N fetcher O (hops + 1) (follow N fetcher O hops current s) := by
  induction hops generalizing current s with
  | zero => exact Orderly.visit (fun _ _ s => .error _ _ s) current s
  | succ hops ih =>
      refine Orderly.visit (fun base location s => ?_) current s
      split
      · exact .error _ _ _
      · next next _ => exact ih next s

theorem orderly_of_mem_attempts {url : Text} {n : ℕ} {s : σ} {a : Attempt σ}
    (h : a ∈ attempts N fetcher O url n s) :
    Orderly N fetcher O (fetcher.maxRedirects + 1) a := by
  induction n generalizing s with
  | zero => cases h
  | succ n ih =>
      rw [attempts] at h
      rcases List.mem_cons.mp h with rfl | h
      · exact orderly_follow _ url s
      · split at h
        · exact ih h
        · cases h

theorem length_attempts_le (url : Text) (n : ℕ) (s : σ) :
    (attempts N fetcher O url n s).length ≤ n := by
  induction n generalizing s with
  | zero => exact Nat.le_refl 0
  | succ n ih =>
      rw [attempts, List.length_cons]
      split
      · exact Nat.succ_le_succ (ih _)
      · exact Nat.succ_le_succ (Nat.zero_le n)

/-- A request in vetted events has the validation that returned it right before it. -/
theorem Vetted.before {before after : List (Event σ)} {url : Text}
    (h : Vetted N O (before ++ .requested url :: after)) :
    ∃ before' s v, before = before' ++ [.validated s v url] ∧
      (validatePublicUrl N O.resolve s v).1 = .ok url := by
  generalize hall : before ++ Event.requested url :: after = events at h
  induction h generalizing before with
  | nil => simp at hall
  | @visit s v result events hok hrest ih =>
      match before with
      | [] => simp at hall
      | [e] =>
          simp only [List.cons_append, List.nil_append, List.cons.injEq,
            Event.requested.injEq] at hall
          obtain ⟨rfl, rfl, -⟩ := hall
          exact ⟨[], s, v, rfl, hok⟩
      | e :: e' :: before =>
          simp only [List.cons_append, List.cons.injEq] at hall
          obtain ⟨rfl, rfl, hall⟩ := hall
          obtain ⟨before', s', v', hbefore, hok'⟩ := ih hall
          exact ⟨_ :: _ :: before', s', v', by rw [hbefore]; rfl, hok'⟩

/-- Whatever the resolver and the servers do: every URL that is requested is the result of a
validation right before it and a plain HTTP or HTTPS URL without credentials, an attempt makes at
most `max_redirects + 1` requests, at most three attempts are made, and a response that is returned
has a status that is no redirect and a body of at most `max_bytes` bytes. -/
theorem fetch_confined (N : NetTools) (fetcher : HttpFetcher) (O : Opponent σ) (url : Text)
    (s : σ) :
    (∀ a ∈ fetch N fetcher O url s, ∀ before after u,
      a.events = before ++ .requested u :: after →
        (∃ before' s v, before = before' ++ [.validated s v u] ∧
          (validatePublicUrl N O.resolve s v).1 = .ok u) ∧ PlainHttp N u) ∧
      (∀ a ∈ fetch N fetcher O url s,
        (requests a.events).length ≤ fetcher.maxRedirects + 1) ∧
      (fetch N fetcher O url s).length ≤ 3 ∧
      ∀ r, outcome (fetch N fetcher O url s) = some (.ok r) →
        r.statusCode ∉ redirectStatusCodes ∧ r.content.length ≤ fetcher.maxBytes := by
  refine ⟨fun a ha before after u hevents => ?_,
    fun a ha => (orderly_of_mem_attempts ha).requests, length_attempts_le url 3 s, ?_⟩
  · have hvetted := (orderly_of_mem_attempts ha).vetted
    rw [hevents] at hvetted
    obtain ⟨before', s, v, hbefore, hok⟩ := hvetted.before
    exact ⟨⟨before', s, v, hbefore, hok⟩, (validatePublicUrl_ok hok).2⟩
  · intro r hr
    obtain ⟨a, ha, hok⟩ := Option.map_eq_some_iff.mp hr
    exact (orderly_of_mem_attempts (List.mem_of_getLast? ha)).limited r hok

end

end Odirag.Crawler
