import Odirag.Foundations.Parties
import Mathlib.Data.List.Basic

/-!
# One browser session and its requests

Reference: `frontend/src/api/client.ts`; `refresh` and `get_active_user` of
`backend/app/services/auth.py`.

The requests of one session share the stored tokens and the refresh that is in flight. A step is
the synchronous code between two awaits of the client, or the processing of one request by the
server, which keeps one version and invalidates all older tokens on each refresh. The steps of the
shared refresh may be taken at any request's turn.
-/

namespace Odirag.Auth

/-- An access token: the version that it carries, and whether its time is over. -/
structure AccessToken where
  version : ℕ
  expired : Bool := false
deriving DecidableEq, Repr

/-- `StoredSession`; of the refresh token only the version counts. -/
structure StoredSession where
  accessToken : AccessToken
  refreshToken : ℕ
deriving DecidableEq, Repr

/-- The fetch of `/auth/refresh`, on its way to the server or back. -/
inductive RefreshFetch
  | sent (refreshToken : ℕ)
  | answered (tokens : Option StoredSession)
deriving DecidableEq, Repr

/-- The module state of the client and the token version of the server. -/
structure Browser where
  session : Option StoredSession
  refreshPromise : Option RefreshFetch := none
  /-- What the refreshes that are over have resolved to, oldest first. -/
  refreshed : List Bool := []
  /-- `expireSession` has been called. -/
  authExpired : Bool := false
  tokenVersion : ℕ
deriving DecidableEq, Repr

/-- An authenticated `apiRequest`. -/
inductive ApiRequest
  | idle
  /-- The request is on its way; `retry` is `options.retry !== false`. -/
  | sent (token : Option AccessToken) (retry : Bool)
  /-- The response is on its way: a 401 if not authorized. -/
  | answered (token : Option AccessToken) (retry authorized : Bool)
  /-- It awaits a refresh, by its place among all refreshes. -/
  | awaiting (refresh : ℕ)
  | returned
  /-- It has thrown a 401 error. -/
  | unauthorized
deriving DecidableEq, Repr

/-- The steps of the requests, of the server and of the refresh in flight. -/
inductive RequestAct
  | start | serve | receive | resume | serveRefresh | receiveRefresh
deriving DecidableEq, Repr

namespace Browser

/-- `expireSession`. -/
def expireSession (b : Browser) : Browser := { b with session := none, authExpired := true }

/-- The server accepts the access token of a request. -/
def authorizes (b : Browser) (token : Option AccessToken) : Bool :=
  match token with
  | none => false
  | some t => t.version == b.tokenVersion && !t.expired

/-- The tokens of a version. -/
def tokens (version : ℕ) : StoredSession := ⟨⟨version, false⟩, version⟩

/-- The server processes `/auth/refresh`. -/
def serveRefresh (refreshToken : ℕ) (b : Browser) : Browser :=
  if refreshToken = b.tokenVersion then
    { b with
      tokenVersion := b.tokenVersion + 1
      refreshPromise := some (.answered (some (tokens (b.tokenVersion + 1)))) }
  else { b with refreshPromise := some (.answered none) }

/-- The response of `/auth/refresh` resolves the promise. -/
def receiveRefresh (tokens : Option StoredSession) (b : Browser) : Browser :=
  { b with
    session := tokens.or b.session
    refreshed := b.refreshed ++ [tokens.isSome]
    refreshPromise := none }

/-- The start of `refreshSession`, after a 401: what it leaves and where the request waits. -/
def refreshSession (b : Browser) : Browser × ApiRequest :=
  match b.session with
  | none => (b.expireSession, .unauthorized)
  | some session =>
      match b.refreshPromise with
      | none =>
          ({ b with refreshPromise := some (.sent session.refreshToken) },
            .awaiting b.refreshed.length)
      | some _ => (b, .awaiting b.refreshed.length)

end Browser

/-- The next step at a request's turn. -/
def ApiRequest.next (a : RequestAct) (b : Browser) (r : ApiRequest) :
    Option (Browser × ApiRequest) :=
  match a, r with
  | .start, .idle => some (b, .sent (b.session.map (·.accessToken)) true)
  | .serve, .sent token retry => some (b, .answered token retry (b.authorizes token))
  | .receive, .answered _ _ true => some (b, .returned)
  | .receive, .answered _ false false => some (b, .unauthorized)
  | .receive, .answered _ true false => some b.refreshSession
  | .resume, .awaiting refresh =>
      match b.refreshed[refresh]? with
      | none => none
      | some true => some (b, .sent (b.session.map (·.accessToken)) false)
      | some false => some (b.expireSession, .unauthorized)
  | .serveRefresh, r =>
      match b.refreshPromise with
      | some (.sent refreshToken) => some (b.serveRefresh refreshToken, r)
      | _ => none
  | .receiveRefresh, r =>
      match b.refreshPromise with
      | some (.answered tokens) => some (b.receiveRefresh tokens, r)
      | _ => none
  | _, _ => none

variable {ι : Type*} [DecidableEq ι]

/-- Any number of requests of one session. -/
def apiRequests (ι : Type*) : Parties ι Browser ApiRequest RequestAct where
  next _ := ApiRequest.next

/-- The access token has expired, the refresh token is valid, and no request has started. -/
def AccessExpired (s : Parties.State ι Browser ApiRequest) : Prop :=
  (∃ version, s.shared =
    { session := some ⟨⟨version, true⟩, version⟩, tokenVersion := version }) ∧
  ∀ i, s.loc i = .idle

/-- The interleavings of the requests with the server. -/
def requestSystem (ι : Type*) [DecidableEq ι] :
    System (Parties.State ι Browser ApiRequest) (ι × RequestAct) :=
  (apiRequests ι).system AccessExpired

/-- No request has ended with a 401 error and the session has not been expired. -/
def Survives (s : Parties.State ι Browser ApiRequest) : Prop :=
  (∀ i, s.loc i ≠ .unauthorized) ∧ s.shared.authExpired = false

/-- A first 401 that arrives while no refresh is in flight refuses the token that the session still
has: no refresh has replaced it since the request was sent. -/
def RefusedInTime (s : Parties.State ι Browser ApiRequest) (l : ι × RequestAct) : Prop :=
  l.2 = .receive → ∀ token, s.loc l.1 = .answered token true false →
    s.shared.refreshPromise = none → s.shared.session.map (·.accessToken) = token

/-! ## The one refresh -/

/-- The phases of the refresh of version `v`. -/
inductive Phase (v : ℕ) : Browser → Prop
  | before : Phase v { session := some ⟨⟨v, true⟩, v⟩, tokenVersion := v }
  | sent : Phase v
      { session := some ⟨⟨v, true⟩, v⟩, refreshPromise := some (.sent v), tokenVersion := v }
  | answered : Phase v
      { session := some ⟨⟨v, true⟩, v⟩
        refreshPromise := some (.answered (some (Browser.tokens (v + 1))))
        tokenVersion := v + 1 }
  | after : Phase v
      { session := some (Browser.tokens (v + 1)), refreshed := [true], tokenVersion := v + 1 }

/-- What holds of a request: it carries the old token and may retry, or the new one, which the
server accepts; it waits only for the one refresh. -/
def ApiRequest.Assertion (v : ℕ) (b : Browser) : ApiRequest → Prop
  | .sent token retry =>
      (token = some ⟨v, true⟩ ∧ retry = true) ∨
        (token = some ⟨v + 1, false⟩ ∧ b.tokenVersion = v + 1 ∧ b.refreshPromise = none)
  | .answered token retry authorized =>
      (token = some ⟨v, true⟩ ∧ retry = true ∧ authorized = false) ∨
        (token = some ⟨v + 1, false⟩ ∧ authorized = true)
  | .awaiting refresh => refresh = 0
  | .unauthorized => False
  | _ => True

section Phases

variable {v : ℕ} {b b' : Browser} {r r' : ApiRequest}

theorem Phase.authExpired (h : Phase v b) : b.authExpired = false := by
  cases h <;> rfl

/-- The session has the old token until the refresh is over, and then the new one. -/
theorem Phase.session (h : Phase v b) :
    (b.session = some ⟨⟨v, true⟩, v⟩ ∧ b.refreshed = []) ∨
      (b.session = some (Browser.tokens (v + 1)) ∧ b.tokenVersion = v + 1 ∧
        b.refreshPromise = none) := by
  cases h with
  | before => exact .inl ⟨rfl, rfl⟩
  | sent => exact .inl ⟨rfl, rfl⟩
  | answered => exact .inl ⟨rfl, rfl⟩
  | after => exact .inr ⟨rfl, rfl, rfl⟩

/-- The server refuses the old token and accepts the new one. -/
theorem authorizes_of_assertion {token : Option AccessToken} {retry : Bool}
    (h : (ApiRequest.sent token retry).Assertion v b) :
    (ApiRequest.answered token retry (b.authorizes token)).Assertion v b := by
  rcases h with ⟨rfl, rfl⟩ | ⟨rfl, hversion, -⟩
  · exact .inl ⟨rfl, rfl, by simp [Browser.authorizes]⟩
  · exact .inr ⟨rfl, by simp [Browser.authorizes, hversion]⟩

/-- A request that starts or retries carries the token that the session has. -/
theorem Phase.sent_assertion (h : Phase v b) {retry : Bool}
    (hretry : b.refreshed = [] → retry = true) :
    (ApiRequest.sent (b.session.map (·.accessToken)) retry).Assertion v b := by
  rcases h.session with ⟨hsession, hrefreshed⟩ | ⟨hsession, hversion, hpromise⟩
  · rw [hsession]
    exact .inl ⟨rfl, hretry hrefreshed⟩
  · rw [hsession]
    exact .inr ⟨rfl, hversion, hpromise⟩

/-- A timely first 401 starts the one refresh or joins it. -/
theorem Phase.refreshSession (h : Phase v b)
    (htimely : b.refreshPromise = none → b.session.map (·.accessToken) = some ⟨v, true⟩) :
    Phase v b.refreshSession.1 ∧ b.refreshSession.2 = .awaiting 0 := by
  cases h with
  | before => exact ⟨.sent, rfl⟩
  | sent => exact ⟨.sent, rfl⟩
  | answered => exact ⟨.answered, rfl⟩
  | after =>
      have hold := htimely rfl
      simp [Browser.tokens] at hold

/-- The shared state changes only towards the end of the refresh, so what holds of a request
stays. -/
theorem ApiRequest.Assertion.mono (h : r.Assertion v b) (hphase : Phase v b)
    (hsame : b' = b ∨ b.refreshPromise ≠ none ∨ b.tokenVersion = v) : r.Assertion v b' := by
  rcases hsame with rfl | hchange
  · exact h
  · cases r with
    | sent token retry =>
        rcases h with hold | ⟨-, hversion, hpromise⟩
        · exact .inl hold
        · rcases hchange with hchange | hchange
          · exact absurd hpromise hchange
          · omega
    | _ => exact h

/-- A step of a request keeps the phases and what holds of the requests, if its first 401 arrives
in time. -/
theorem ApiRequest.next_keeps {a : RequestAct} (hphase : Phase v b) (h : r.Assertion v b)
    (htimely : a = .receive → ∀ token, r = .answered token true false →
      b.refreshPromise = none → b.session.map (·.accessToken) = token)
    (hnext : r.next a b = some (b', r')) :
    Phase v b' ∧ r'.Assertion v b' ∧ (b' = b ∨ b.refreshPromise ≠ none ∨ b.tokenVersion = v) := by
  unfold ApiRequest.next at hnext
  split at hnext
  · cases hnext
    exact ⟨hphase, hphase.sent_assertion fun _ => rfl, .inl rfl⟩
  · cases hnext
    exact ⟨hphase, authorizes_of_assertion h, .inl rfl⟩
  · cases hnext
    exact ⟨hphase, trivial, .inl rfl⟩
  · -- A retry is never refused.
    rcases h with ⟨-, hretry, -⟩ | ⟨-, hauthorized⟩
    · cases hretry
    · cases hauthorized
  · next token =>
      rcases h with ⟨rfl, -, -⟩ | ⟨-, hauthorized⟩
      · obtain ⟨hphase', hwaits⟩ := hphase.refreshSession (htimely rfl _ rfl)
        have hb : b.refreshSession.1 = b' := congrArg Prod.fst (Option.some.inj hnext)
        have hr : b.refreshSession.2 = r' := congrArg Prod.snd (Option.some.inj hnext)
        rw [hb] at hphase'
        rw [← hr, hwaits]
        refine ⟨hphase', rfl, ?_⟩
        cases hphase with
        | before => exact .inr (.inr rfl)
        | sent => exact .inr (.inl (Option.some_ne_none _))
        | answered => exact .inr (.inl (Option.some_ne_none _))
        | after =>
            have hold := htimely rfl _ rfl rfl
            simp [Browser.tokens] at hold
      · cases hauthorized
  · next refresh =>
      obtain rfl : refresh = 0 := h
      cases hphase with
      | after =>
          cases hnext
          exact ⟨.after, .inr ⟨rfl, rfl, rfl⟩, .inl rfl⟩
      | _ => cases hnext
  · cases hphase with
    | sent =>
        simp only [Browser.serveRefresh, if_true, Option.some.injEq, Prod.mk.injEq] at hnext
        obtain ⟨rfl, rfl⟩ := hnext
        exact ⟨.answered, h.mono .sent (.inr (.inr rfl)), .inr (.inr rfl)⟩
    | _ => cases hnext
  · cases hphase with
    | answered =>
        cases hnext
        exact ⟨.after, h.mono .answered (.inr (.inl (Option.some_ne_none _))),
          .inr (.inl (Option.some_ne_none _))⟩
    | _ => cases hnext
  · cases hnext

end Phases

/-- In every interleaving in which each first 401 arrives while the refresh is in flight or before
the session's token has been replaced, every request survives the expiry. -/
theorem requests_survive_expiry {tr : List (Parties.State ι Browser ApiRequest × (ι × RequestAct))}
    {s : Parties.State ι Browser ApiRequest}
    (h : (requestSystem ι).Run (fun _ s l _ => RefusedInTime s l) tr s) : Survives s := by
  have hinv : ∃ v, Phase v s.shared ∧ ∀ i, (s.loc i).Assertion v s.shared := by
    refine h.invariant (I := fun _ s =>
      ∃ v, Phase v s.shared ∧ ∀ i, (s.loc i).Assertion v s.shared) ?_ ?_
    · rintro s ⟨⟨v, hshared⟩, hidle⟩
      refine ⟨v, hshared ▸ .before, fun i => ?_⟩
      rw [hidle i]
      trivial
    · rintro tr s ⟨i, a⟩ s' _ ⟨v, hphase, hloc⟩ htimely hstep
      have hnext := Parties.next_of_step hstep
      obtain ⟨hphase', hown, hsame⟩ := ApiRequest.next_keeps hphase (hloc i) htimely hnext
      refine ⟨v, hphase', fun j => ?_⟩
      by_cases hj : j = i
      · subst hj
        exact hown
      · rw [Parties.loc_of_ne hstep hj]
        exact (hloc j).mono hphase hsame
  obtain ⟨v, hphase, hloc⟩ := hinv
  refine ⟨fun i hi => ?_, hphase.authExpired⟩
  have hassertion := hloc i
  rw [hi] at hassertion
  exact hassertion

/-- The session of version 0, and no request. -/
def expiredBrowser : Parties.State ℕ Browser ApiRequest :=
  ⟨{ session := some ⟨⟨0, true⟩, 0⟩, tokenVersion := 0 }, fun _ => .idle⟩

theorem expiredBrowser_init : (requestSystem ℕ).init expiredBrowser :=
  ⟨⟨0, rfl⟩, fun _ => rfl⟩

/-- Two requests: the second 401 arrives while the refresh of the first is in flight. -/
theorem requests_survive_expiry_two :
    ∃ tr s, (requestSystem ℕ).Run (fun _ s l _ => RefusedInTime s l) tr s ∧
      s.loc 0 = .returned ∧ s.loc 1 = .returned ∧ Survives s := by
  let sched : List (ℕ × RequestAct) :=
    [(0, .start), (1, .start), (0, .serve), (1, .serve), (0, .receive), (1, .receive),
      (0, .serveRefresh), (0, .receiveRefresh), (0, .resume), (1, .resume), (0, .serve),
      (1, .serve), (0, .receive), (1, .receive)]
  obtain ⟨s, hs⟩ := Option.isSome_iff_exists.mp
    (by decide : ((apiRequests ℕ).exec expiredBrowser sched).isSome = true)
  have hcheck : ((apiRequests ℕ).exec expiredBrowser sched).map (fun s => (s.loc 0, s.loc 1)) =
      some (.returned, .returned) := by
    decide
  rw [hs] at hcheck
  obtain ⟨hfirst, hsecond⟩ := Prod.mk.inj (Option.some.inj hcheck)
  have htimely : ((apiRequests ℕ).traceOf expiredBrowser sched).all (fun e =>
      match e.2.2, e.1.loc e.2.1 with
      | .receive, .answered token true false => e.1.shared.refreshPromise.isSome ||
          e.1.shared.session.map (·.accessToken) == token
      | _, _ => true) = true := by
    decide
  have hrun : (requestSystem ℕ).Run (fun _ s l _ => RefusedInTime s l)
      ((apiRequests ℕ).traceOf expiredBrowser sched) s := by
    refine ⟨_, expiredBrowser_init, System.exec_path_of hs ?_⟩
    intro e he hreceive token hanswered hpromise
    have hintime := List.all_eq_true.mp htimely e he
    rw [hreceive, hanswered] at hintime
    simpa [hpromise] using hintime
  exact ⟨_, s, hrun, hfirst, hsecond, requests_survive_expiry hrun⟩

/-- Two requests: the second 401 arrives after the refresh and starts another one, which the server
processes before the retry of the first. -/
theorem late_refusal_ends_request :
    ∃ tr s, (requestSystem ℕ).Run System.always tr s ∧ ¬ Survives s := by
  let sched : List (ℕ × RequestAct) :=
    [(0, .start), (1, .start), (0, .serve), (1, .serve), (0, .receive), (0, .serveRefresh),
      (0, .receiveRefresh), (0, .resume), (1, .receive), (1, .serveRefresh), (0, .serve),
      (0, .receive)]
  obtain ⟨s, hs⟩ := Option.isSome_iff_exists.mp
    (by decide : ((apiRequests ℕ).exec expiredBrowser sched).isSome = true)
  have hcheck : ((apiRequests ℕ).exec expiredBrowser sched).map (fun s => s.loc 0) =
      some .unauthorized := by
    decide
  rw [hs] at hcheck
  have hended : s.loc 0 = .unauthorized := Option.some.inj hcheck
  exact ⟨_, s, ⟨_, expiredBrowser_init, System.exec_path hs⟩, fun h => h.1 0 hended⟩

end Odirag.Auth
