import Odirag.Crawler.Fetcher
import Odirag.Foundations.Distinct
import Odirag.Foundations.Except
import Odirag.Foundations.Json

/-!
# The addresses that are connected to

Reference: `backend/app/crawler/dns.py`.

A fetcher asks a fixed HTTPS endpoint for the addresses of a host, once when it validates a URL
and once more when a socket is opened for the request, and the socket is opened to one of the
addresses of the second answer. Name servers and servers may answer anything and change their
answers at any time; `fetch_pinned` says which sockets this can lead to.
-/

namespace Odirag.Crawler

/-! ## The resolver -/

/-- The records that are asked for. -/
inductive RecordType
  | a
  | aaaa
deriving DecidableEq, Repr

/-- `expected_type`. -/
def RecordType.expectedType : RecordType → ℤ
  | .a => 1
  | .aaaa => 28

/-- An exception while a response is awaited or read: one that `_query` catches
(`httpx.HTTPError`, `ValueError`, `TypeError`), another `OSError`, a cancellation, or something
else. -/
inductive Stop
  | caught
  | osError
  | cancelled
  | raises (name : String)

/-- What the endpoint does with a request. -/
inductive DohReply
  | stops (stop : Stop)
  | response (status : ℕ) (body : List (Except Stop (List UInt8)))

/-- What `json.loads` does. -/
inductive Loaded
  | value (payload : Json)
  | valueError
  | raises (name : String)

/-- How resolving a host fails. -/
inductive ResolutionError
  | dnsResolution (message : String)
  | osError
  | cancelled
  | raises (name : String)
deriving DecidableEq, Repr

/-- What an exception becomes at the end of the `try`. -/
def Stop.error : Stop → ResolutionError
  | .caught => .dnsResolution "trusted DNS request failed"
  | .osError => .osError
  | .cancelled => .cancelled
  | .raises name => .raises name

/-- `_MAX_DNS_RESPONSE_BYTES`. -/
def maxDnsResponseBytes : ℕ := 64 * 1024

/-- The loop over the chunks. -/
def readBody : List UInt8 → List (Except Stop (List UInt8)) → Except ResolutionError (List UInt8)
  | content, [] => .ok content
  | _, .error stop :: _ => .error stop.error
  | content, .ok chunk :: rest =>
      if maxDnsResponseBytes < content.length + chunk.length then
        .error (.dnsResolution "trusted DNS response exceeded the size limit")
      else readBody (content ++ chunk) rest

/-- The text of an answer of the expected type. -/
def answerText (recordType : RecordType) : Json → Option Text
  | .obj item =>
      if (Json.get item (str "type")).isNumber recordType.expectedType then
        match Json.get item (str "data") with
        | .str value => some value
        | _ => none
      else none
  | _ => none

/-- The answers of a payload. -/
def answersOf (recordType : RecordType) : Json → Except ResolutionError (List Text)
  | .obj payload =>
      if (Json.get payload (str "Status")).isNumber 0 then
        match Json.getD payload (str "Answer") (.arr []) with
        | .arr answers => .ok (firsts (answers.filterMap (answerText recordType)))
        | _ => .error (.dnsResolution "trusted DNS response has an invalid shape")
      else .error (.dnsResolution "trusted DNS response was unsuccessful")
  | _ => .error (.dnsResolution "trusted DNS response was unsuccessful")

section

variable (loads : List UInt8 → Loaded)

/-- `_query`, given the reply to the request. -/
def queryReply (recordType : RecordType) : DohReply → Except ResolutionError (List Text)
  | .stops stop => .error stop.error
  | .response status body =>
      if status ≠ 200 then
        .error (.dnsResolution "trusted DNS returned a non-success status")
      else
        match readBody [] body with
        | .error e => .error e
        | .ok content =>
            match loads content with
            | .valueError => .error (.dnsResolution "trusted DNS request failed")
            | .raises name => .error (.raises name)
            | .value payload => answersOf recordType payload

variable {σ : Type*}

/-- `DohHostResolver.__call__`; `ask` sends one request to the endpoint. -/
def dohHostResolver (ask : σ → Text → RecordType → DohReply × σ) (s : σ) (hostname : Text) :
    Except ResolutionError (List Text) × σ :=
  let (reply, s) := ask s hostname .a
  match queryReply loads .a reply with
  | .error e => (.error e, s)
  | .ok ipv4 =>
      let (reply, s) := ask s hostname .aaaa
      match queryReply loads .aaaa reply with
      | .error e => (.error e, s)
      | .ok ipv6 =>
          let addresses := firsts (ipv4 ++ ipv6)
          if addresses = [] then
            (.error (.dnsResolution "trusted DNS returned no address records"), s)
          else (.ok addresses, s)

/-- The resolver as `validate_public_url` sees it. -/
def asAnswer : Except ResolutionError (List Text) → ResolverAnswer
  | .ok addresses => .addresses addresses
  | .error (.dnsResolution _) => .osError
  | .error .osError => .osError
  | .error .cancelled => .timeout
  | .error (.raises name) => .raises name

end

/-! ## Sockets -/

/-- What opening a socket leads to. -/
inductive SocketReply
  | stream
  | connectError
  | connectTimeout
  | raises (name : String)

/-- How opening a connection fails. -/
inductive ConnectFailure
  | connectError (message : String)
  | connectTimeout
  | raises (name : String)
deriving DecidableEq, Repr

/-- The outside of a fetcher: the endpoint, the sockets, and the servers. `dial` is the host and the
port that the HTTP client opens a connection to for a request; it opens none where it still has
one. -/
structure Network (σ : Type*) where
  ask : σ → Text → RecordType → DohReply × σ
  connect : σ → Text → ℕ → SocketReply × σ
  dial : σ → Text → Option (Text × ℕ)
  exchange : σ → Text → Reply × σ

/-- The parts of the libraries that connecting uses. -/
structure DnsTools extends NetTools where
  loads : List UInt8 → Loaded
  /-- `str(ipaddress.ip_address(host))`; `none` is a `ValueError`. -/
  literal : Text → Option Text

/-- A call of `connect_tcp`: the network before it, the host, and the addresses that it tries in
order. -/
structure Dialled (σ : Type*) where
  before : σ
  host : Text
  tried : List Text

section

variable (T : DnsTools) {σ : Type*} (W : Network σ)

/-- `ensure_public_addresses`. -/
def ensurePublicAddresses (values : List Text) : Except UrlError (List Text) :=
  let addresses := firsts values
  if addresses = [] then .error (.unsafeUrl "URL host did not resolve to an IP address")
  else
    match addresses.forM (ensurePublicText T.toNetTools) with
    | .error e => .error e
    | .ok () => .ok addresses

/-- The loop over the addresses: how it ends, which were tried, and the network. -/
def tryAddresses (port : ℕ) :
    Option ConnectFailure → List Text → σ → Except ConnectFailure Unit × List Text × σ
  | last, [], s =>
      (.error (last.getD (.connectError "validated DNS returned no usable addresses")), [], s)
  | _, address :: rest, s =>
      match W.connect s address port with
      | (.stream, s) => (.ok (), [address], s)
      | (.raises name, s) => (.error (.raises name), [address], s)
      | (.connectError, s) =>
          let (outcome, tried, s) := tryAddresses port (some (.connectError "")) rest s
          (outcome, address :: tried, s)
      | (.connectTimeout, s) =>
          let (outcome, tried, s) := tryAddresses port (some .connectTimeout) rest s
          (outcome, address :: tried, s)

/-- The values that are checked: the literal itself, or the answer of the resolver. -/
def resolveForSocket (s : σ) (host : Text) : Except ResolutionError (List Text) × σ :=
  match T.literal host with
  | some literal => (.ok [literal], s)
  | none => dohHostResolver T.loads W.ask s host

/-- `PinnedNetworkBackend.connect_tcp`. -/
def connectTcp (s : σ) (host : Text) (port : ℕ) :
    Except ConnectFailure Unit × List Text × σ :=
  let refused := .error (.connectError "validated DNS resolution failed")
  match resolveForSocket T W s host with
  | (.error (.raises name), s) => (.error (.raises name), [], s)
  | (.error .cancelled, s) => (.error (.raises "CancelledError"), [], s)
  | (.error (.dnsResolution _), s) => (refused, [], s)
  | (.error .osError, s) => (refused, [], s)
  | (.ok values, s) =>
      match ensurePublicAddresses T values with
      | .error _ => (refused, [], s)
      | .ok addresses => tryAddresses W port none addresses s

/-- A request that opens its connection through `connect_tcp`. -/
def sendPinned (s : σ × List (Dialled σ)) (url : Text) : Reply × σ × List (Dialled σ) :=
  match W.dial s.1 url with
  | none =>
      let (reply, network) := W.exchange s.1 url
      (reply, network, s.2)
  | some (host, port) =>
      let (outcome, tried, network) := connectTcp T W s.1 host port
      let log := s.2 ++ [⟨s.1, host, tried⟩]
      match outcome with
      | .error (.connectError _) => (.connectError, network, log)
      | .error .connectTimeout => (.raises "ConnectTimeout", network, log)
      | .error (.raises name) => (.raises name, network, log)
      | .ok () =>
          let (reply, network) := W.exchange network url
          (reply, network, log)

/-- The outside of a fetcher with a pinned transport, and what `connect_tcp` was called for. -/
def pinned : Opponent (σ × List (Dialled σ)) where
  resolve s hostname :=
    let (result, network) := dohHostResolver T.loads W.ask s.1 hostname
    (asAnswer result, network, s.2)
  send := sendPinned T W

end

/-! ## Answers -/

/-- A reply whose body is whole and within the limit, and the texts that it answers with. -/
def Answers (loads : List UInt8 → Loaded) (recordType : RecordType) (reply : DohReply)
    (texts : List Text) : Prop :=
  ∃ (chunks : List (List UInt8)) (payload : Json.Fields) (answers : List Json),
    reply = .response 200 (chunks.map .ok) ∧ chunks.flatten.length ≤ maxDnsResponseBytes ∧
      loads chunks.flatten = .value (.obj payload) ∧
      (Json.get payload (str "Status")).isNumber 0 = true ∧
      Json.getD payload (str "Answer") (.arr []) = .arr answers ∧
      texts = answers.filterMap (answerText recordType)

theorem readBody_ok {content result : List UInt8} {body : List (Except Stop (List UInt8))}
    (h : readBody content body = .ok result) (hcontent : content.length ≤ maxDnsResponseBytes) :
    ∃ chunks : List (List UInt8), body = chunks.map .ok ∧ result = content ++ chunks.flatten ∧
      result.length ≤ maxDnsResponseBytes := by
  induction body generalizing content with
  | nil =>
      cases h
      exact ⟨[], rfl, by simp, hcontent⟩
  | cons part rest ih =>
      cases part with
      | error stop => cases h
      | ok chunk =>
          rw [readBody] at h
          split_ifs at h with hlimit
          obtain ⟨chunks, hrest, hresult, hlength⟩ := ih h (by rw [List.length_append]; omega)
          exact ⟨chunk :: chunks, by rw [hrest]; rfl, by simp [hresult], hlength⟩

/-- A query returns the texts of a whole reply, each once. -/
theorem queryReply_ok {loads : List UInt8 → Loaded} {recordType : RecordType} {reply : DohReply}
    {values : List Text} (h : queryReply loads recordType reply = .ok values) :
    ∃ texts, Answers loads recordType reply texts ∧ values = firsts texts := by
  unfold queryReply at h
  split at h
  · cases h
  · next status body =>
      split_ifs at h with hstatus
      cases hread : readBody [] body with
      | error e => simp [hread] at h
      | ok content =>
          obtain ⟨chunks, hbody, hresult, hlength⟩ := readBody_ok hread (Nat.zero_le _)
          obtain rfl : content = chunks.flatten := hresult
          simp only [hread] at h
          cases hloads : loads chunks.flatten with
          | valueError => simp [hloads] at h
          | raises name => simp [hloads] at h
          | value payload =>
              simp only [hloads, answersOf] at h
              split at h
              · next fields =>
                  split_ifs at h with hzero
                  split at h
                  · next answers hanswers =>
                      cases h
                      have hok : status = 200 := not_not.mp hstatus
                      exact ⟨_, ⟨chunks, fields, answers, by rw [hok, hbody], hlength, hloads,
                        hzero, hanswers, rfl⟩, rfl⟩
                  · cases h
              · cases h

section

variable {T : DnsTools} {σ : Type*} {W : Network σ}

/-- What the addresses of a host are when the network is in this state: the host itself, or the
answers to two queries. -/
inductive Resolves (T : DnsTools) (W : Network σ) (s : σ) (host : Text) : List Text → Prop
  | literal {literal : Text} : T.literal host = some literal → Resolves T W s host [literal]
  | answers {ipv4 ipv6 : List Text} :
      T.literal host = none →
      Answers T.loads .a (W.ask s host .a).1 ipv4 →
      Answers T.loads .aaaa (W.ask (W.ask s host .a).2 host .aaaa).1 ipv6 →
        Resolves T W s host (firsts (ipv4 ++ ipv6))

theorem dohHostResolver_ok {s : σ} {hostname : Text} {addresses : List Text}
    (h : (dohHostResolver T.loads W.ask s hostname).1 = .ok addresses) :
    ∃ ipv4 ipv6, Answers T.loads .a (W.ask s hostname .a).1 ipv4 ∧
      Answers T.loads .aaaa (W.ask (W.ask s hostname .a).2 hostname .aaaa).1 ipv6 ∧
      addresses = firsts (ipv4 ++ ipv6) := by
  unfold dohHostResolver at h
  simp only at h
  cases hfour : queryReply T.loads .a (W.ask s hostname .a).1 with
  | error e => simp [hfour] at h
  | ok four =>
      cases hsix : queryReply T.loads .aaaa (W.ask (W.ask s hostname .a).2 hostname .aaaa).1 with
      | error e => simp [hfour, hsix] at h
      | ok six =>
          simp only [hfour, hsix] at h
          split_ifs at h with hempty
          obtain ⟨ipv4, hipv4, rfl⟩ := queryReply_ok hfour
          obtain ⟨ipv6, hipv6, rfl⟩ := queryReply_ok hsix
          refine ⟨ipv4, ipv6, hipv4, hipv6, ?_⟩
          obtain rfl : firsts (firsts ipv4 ++ firsts ipv6) = addresses := by simpa using h
          rw [firsts_append_firsts, firsts_firsts_append]

theorem resolves_of_resolveForSocket {s : σ} {host : Text} {values : List Text}
    (h : (resolveForSocket T W s host).1 = .ok values) : Resolves T W s host values := by
  unfold resolveForSocket at h
  split at h
  · next literal hliteral =>
      cases h
      exact .literal hliteral
  · next hname =>
      obtain ⟨ipv4, ipv6, hipv4, hipv6, rfl⟩ := dohHostResolver_ok h
      exact .answers hname hipv4 hipv6

/-- The addresses of a host are given once each. -/
theorem Resolves.firsts_eq {s : σ} {host : Text} {values : List Text}
    (h : Resolves T W s host values) : firsts values = values := by
  cases h with
  | literal => rfl
  | answers => exact firsts_firsts _

/-! ## What is connected to -/

/-- All of these addresses are public. -/
def AllPublic (N : NetTools) (addresses : List Text) : Prop :=
  ∀ address ∈ addresses, ensurePublicText N address = .ok ()

theorem ensurePublicAddresses_ok {values addresses : List Text}
    (h : ensurePublicAddresses T values = .ok addresses) :
    addresses = firsts values ∧ AllPublic T.toNetTools addresses := by
  unfold ensurePublicAddresses at h
  simp only at h
  split_ifs at h with hempty
  split at h
  · cases h
  · next hall =>
      cases h
      exact ⟨rfl, forM_eq_ok.mp hall⟩

/-- The addresses are tried from the first on. -/
theorem tried_prefix (port : ℕ) (last : Option ConnectFailure) (addresses : List Text) (s : σ) :
    (tryAddresses W port last addresses s).2.1 <+: addresses := by
  induction addresses generalizing last s with
  | nil => exact List.prefix_refl []
  | cons address rest ih =>
      rw [tryAddresses]
      split
      · exact ⟨rest, rfl⟩
      · exact ⟨rest, rfl⟩
      · exact (List.prefix_cons_inj address).mpr (ih _ _)
      · exact (List.prefix_cons_inj address).mpr (ih _ _)

/-- A call of `connect_tcp` that tries an address tries the first ones of those that the host has at
that moment, all of which are public. -/
def Dialled.Sound (T : DnsTools) (W : Network σ) (d : Dialled σ) : Prop :=
  d.tried ≠ [] → ∃ addresses, Resolves T W d.before d.host addresses ∧
    AllPublic T.toNetTools addresses ∧ d.tried <+: addresses

theorem sound_connectTcp (s : σ) (host : Text) (port : ℕ) :
    Dialled.Sound T W ⟨s, host, (connectTcp T W s host port).2.1⟩ := by
  intro htried
  unfold connectTcp at htried ⊢
  simp only at htried ⊢
  cases hresolve : resolveForSocket T W s host with
  | mk result s' =>
      cases result with
      | error e => cases e <;> simp [hresolve] at htried
      | ok values =>
          have hvalues : Resolves T W s host values :=
            resolves_of_resolveForSocket (by rw [hresolve])
          simp only [hresolve] at htried ⊢
          cases hensure : ensurePublicAddresses T values with
          | error e => simp [hensure] at htried
          | ok addresses =>
              obtain ⟨rfl, hpublic⟩ := ensurePublicAddresses_ok hensure
              rw [hvalues.firsts_eq] at hpublic ⊢
              exact ⟨values, hvalues, hpublic, tried_prefix port none values s'⟩

/-! ## A whole fetch -/

/-- The call was made for a request of this URL. -/
def Dialled.For (W : Network σ) (url : Text) (d : Dialled σ) : Prop :=
  ∃ port, W.dial d.before url = some (d.host, port)

/-- A request adds one call at most, a sound one for its URL. -/
theorem mem_sendPinned {s : σ × List (Dialled σ)} {url : Text} {d : Dialled σ}
    (h : d ∈ (sendPinned T W s url).2.2) : d ∈ s.2 ∨ d.For W url ∧ d.Sound T W := by
  unfold sendPinned at h
  split at h
  · exact .inl h
  · next host port hdial =>
      have hlog : d ∈ s.2 ++ [⟨s.1, host, (connectTcp T W s.1 host port).2.1⟩] := by
        simp only at h
        split at h <;> exact h
      rcases List.mem_append.mp hlog with hbefore | hnew
      · exact .inl hbefore
      · obtain rfl := List.mem_singleton.mp hnew
        exact .inr ⟨⟨port, hdial⟩, sound_connectTcp s.1 host port⟩

variable {N : NetTools} {fetcher : HttpFetcher}

/-- Validating a URL leaves the outside as it is or asks the resolver once. -/
theorem validatePublicUrl_state {τ : Type*} (resolve : τ → Text → ResolverAnswer × τ) (s : τ)
    (url : Text) :
    (validatePublicUrl N resolve s url).2 = s ∨
      ∃ hostname, (validatePublicUrl N resolve s url).2 = (resolve s hostname).2 := by
  unfold validatePublicUrl
  simp only
  repeat' split
  all_goals first | exact .inl rfl | exact .inr ⟨_, rfl⟩

section

-- A log that the opponent keeps, to which only requests add.
variable {τ δ : Type*} {O : Opponent τ} {log : τ → List δ} {R : Text → δ → Prop}

/-- What an attempt adds to the log belongs to its requests. -/
def Traced (log : τ → List δ) (R : Text → δ → Prop) (before : List δ) (a : Attempt τ) : Prop :=
  ∀ d ∈ log a.opponent, d ∈ before ∨ ∃ url, .requested url ∈ a.events ∧ R url d

theorem Traced.error (e : FetchError) (s : τ) : Traced log R (log s) ⟨.error e, [], s⟩ :=
  fun _ hd => .inl hd

theorem Traced.visit (hresolve : ∀ s hostname, log (O.resolve s hostname).2 = log s)
    (hsend : ∀ s url, ∀ d ∈ log (O.send s url).2, d ∈ log s ∨ R url d)
    {redirect : Text → Text → τ → Attempt τ}
    (hredirect : ∀ base location s, Traced log R (log s) (redirect base location s))
    (current : Text) (s : τ) :
    Traced log R (log s) (Crawler.visit N fetcher O redirect current s) := by
  have hlog : log (validatePublicUrl N O.resolve s current).2 = log s := by
    rcases validatePublicUrl_state (N := N) O.resolve s current with h | ⟨_, h⟩
    · rw [h]
    · rw [h, hresolve]
  unfold Crawler.visit
  split
  · next e s' hvalidated =>
      rw [hvalidated] at hlog
      exact fun d hd => .inl (hlog ▸ hd)
  · next url s' hvalidated =>
      rw [hvalidated] at hlog
      -- What stands in the log when the request is over.
      have hhere : ∀ d ∈ log (O.send s' url).2, d ∈ log s ∨ ∃ u,
          .requested u ∈ [Event.validated s current url, .requested url] ∧ R u d := fun d hd =>
        (hsend s' url d hd).imp (fun h => hlog ▸ h) fun hnew => ⟨url, by simp, hnew⟩
      simp only
      split
      · exact hhere
      · exact hhere
      · exact hhere
      · next r _ =>
          split
          · split
            · exact hhere
            · next location _ =>
                intro d hd
                rcases hredirect r.url location (O.send s' url).2 d hd with hbefore | ⟨u, hu, hnew⟩
                · refine (hhere d hbefore).imp_right ?_
                  rintro ⟨u, hu, hnew⟩
                  exact ⟨u, List.mem_append_left _ hu, hnew⟩
                · exact .inr ⟨u, List.mem_append_right _ hu, hnew⟩
          · exact hhere

theorem traced_follow (hresolve : ∀ s hostname, log (O.resolve s hostname).2 = log s)
    (hsend : ∀ s url, ∀ d ∈ log (O.send s url).2, d ∈ log s ∨ R url d) (hops : ℕ)
    (current : Text) (s : τ) :
    Traced log R (log s) (follow N fetcher O hops current s) := by
  induction hops generalizing current s with
  | zero => exact Traced.visit hresolve hsend (fun _ _ s => .error _ s) current s
  | succ hops ih =>
      refine Traced.visit hresolve hsend (fun base location s => ?_) current s
      split
      · exact .error _ s
      · next next _ => exact ih next s

/-- What the attempts so far have added belongs to their requests. -/
theorem traced_attempts (log : τ → List δ) (R : Text → δ → Prop)
    (hresolve : ∀ s hostname, log (O.resolve s hostname).2 = log s)
    (hsend : ∀ s url, ∀ d ∈ log (O.send s url).2, d ∈ log s ∨ R url d) {url : Text} {n : ℕ}
    {s : τ} {a : Attempt τ} (ha : a ∈ attempts N fetcher O url n s) :
    ∀ d ∈ log a.opponent, d ∈ log s ∨
      ∃ a' ∈ attempts N fetcher O url n s, ∃ u, .requested u ∈ a'.events ∧ R u d := by
  induction n generalizing s with
  | zero => cases ha
  | succ n ih =>
      rw [attempts] at ha ⊢
      have hfirst : Traced log R (log s) (follow N fetcher O fetcher.maxRedirects url s) :=
        traced_follow hresolve hsend fetcher.maxRedirects url s
      intro d hd
      rcases List.mem_cons.mp ha with rfl | ha
      · refine (hfirst d hd).imp_right ?_
        rintro ⟨u, hu, hnew⟩
        exact ⟨_, List.mem_cons_self, u, hu, hnew⟩
      · split at ha
        · next hretried =>
            rw [if_pos hretried]
            rcases ih ha d hd with hbefore | ⟨a', ha', hnew⟩
            · refine (hfirst d hbefore).imp_right ?_
              rintro ⟨u, hu, hnew⟩
              exact ⟨_, List.mem_cons_self, u, hu, hnew⟩
            · exact .inr ⟨a', List.mem_cons_of_mem _ ha', hnew⟩
        · cases ha

end

/-- Whatever the endpoint, the name servers, the sockets and the servers do, and whatever host the
HTTP client takes from a URL: a fetch opens sockets only for URLs that it requests right after they
passed the validation, and a socket that it tries goes to one of the first addresses of the host
itself or of two whole answers that came for this very connection, all of which are public. -/
theorem fetch_pinned (T : DnsTools) (fetcher : HttpFetcher) (W : Network σ) (url : Text) (s : σ) :
    ∀ a ∈ fetch T.toNetTools fetcher (pinned T W) url (s, []), ∀ d ∈ a.opponent.2,
      (∃ a' ∈ fetch T.toNetTools fetcher (pinned T W) url (s, []), ∃ before after s₁ v u,
        a'.events = before ++ [.validated s₁ v u, .requested u] ++ after ∧
          (validatePublicUrl T.toNetTools (pinned T W).resolve s₁ v).1 = .ok u ∧
          PlainHttp T.toNetTools u ∧ d.For W u) ∧
      (d.tried ≠ [] → ∃ addresses, Resolves T W d.before d.host addresses ∧
        AllPublic T.toNetTools addresses ∧ d.tried <+: addresses) := by
  intro a ha d hd
  have htraced := traced_attempts (O := pinned T W) Prod.snd
    (fun u d => d.For W u ∧ d.Sound T W) (fun _ _ => rfl) (fun _ _ _ => mem_sendPinned) ha
  rcases htraced d hd with hnone | ⟨a', ha', u, hu, hfor, hsound⟩
  · cases hnone
  refine ⟨?_, hsound⟩
  obtain ⟨before, after, hevents⟩ := List.append_of_mem hu
  have hvetted := (orderly_of_mem_attempts ha').vetted
  rw [hevents] at hvetted
  obtain ⟨before', s₁, v, rfl, hok⟩ := hvetted.before
  exact ⟨a', ha', before', after, s₁, v, u, by rw [hevents]; simp, hok,
    (validatePublicUrl_ok hok).2, hfor⟩

end

/-- A public host. -/
def publicFlags : AddressFlags := ⟨true, false, false, false, false, false, false⟩

/-- Addresses that start with a digit are public, and the body is not looked at. -/
def oneAnswer : DnsTools where
  toNetTools := { plainTools with
    ipAddress := fun text =>
      if (text.take 1).any Url.isAsciiDigit then some (.v4 publicFlags) else none }
  loads _ := .value (.obj [(str "Status", .int 0), (str "Answer", .arr
    [.obj [(str "type", .int 1), (str "data", .str (str "93.184.216.34"))]])])
  literal _ := none

/-- A page behind that address. -/
def onePage : Network Unit where
  ask s _ _ := (.response 200 [.ok []], s)
  connect s _ _ := (.stream, s)
  dial _ _ := some (str "a.example", 443)
  exchange s url := (.response ⟨200, url, none, none, none, none, none, []⟩, s)

theorem fetch_pinned_onePage :
    ∃ a ∈ fetch oneAnswer.toNetTools ⟨10, 5⟩ (pinned oneAnswer onePage) (str "https://a.example/")
        ((), []), ∃ d ∈ a.opponent.2, d.tried = [str "93.184.216.34"] ∧
      ∃ addresses, Resolves oneAnswer onePage d.before d.host addresses ∧
        AllPublic oneAnswer.toNetTools addresses ∧ d.tried <+: addresses := by
  have htried : (fetch oneAnswer.toNetTools ⟨10, 5⟩ (pinned oneAnswer onePage)
      (str "https://a.example/") ((), [])).map (fun a => a.opponent.2.map Dialled.tried) =
        [[[str "93.184.216.34"]]] := by
    decide
  obtain ⟨a, ha, hlog⟩ := List.mem_map.mp (htried ▸ List.mem_singleton_self _)
  obtain ⟨d, hd, hone⟩ := List.mem_map.mp (hlog ▸ List.mem_singleton_self _)
  have hsound := (fetch_pinned oneAnswer ⟨10, 5⟩ onePage (str "https://a.example/") () a ha d hd).2
  exact ⟨a, ha, d, hd, hone, hsound (by simp [hone])⟩

end Odirag.Crawler
