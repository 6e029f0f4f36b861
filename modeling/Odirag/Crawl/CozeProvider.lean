import Mathlib.Algebra.Order.Field.Rat
import Mathlib.Data.List.DropRight
import Mathlib.Data.List.Lex
import Mathlib.Data.Char
import Mathlib.Tactic.Ring
import Odirag.Crawl.Task
import Odirag.Documents.Document
import Odirag.Foundations.Json
import Odirag.Foundations.Retry

/-!
# The Coze client

Reference: `CozeCrawlProvider.start_crawl` of `backend/app/crawler/providers.py`.

A crawl is one POST to the workflow of the contract, repeated after a timeout, a failure of the
network and the status codes 408, 429 and 500 or more. The replies alone decide what comes out
(`startCrawl_spec`): an error that says it is retryable has been retried as often as the settings
allow.

`httpx` is an opponent who chooses every reply. The validation of the payload is a parameter, and
durations are left out; so are the headers, which are fixed but for the token.
-/

namespace Odirag.Crawl.CozeProvider

open Json (Fields)
open Documents (isSpace)
open Retry (Attempt)

/-! ## Replies and errors -/

structure HttpResponse where
  statusCode : ℕ
  text : Text
  /-- `response.json()`; `none` is a `ValueError`. -/
  json : Option Json

/-- How `client.post` ends. -/
inductive PostReply
  | response (response : HttpResponse)
  /-- A `TimeoutException`. -/
  | timeout
  /-- Another `HTTPError`. -/
  | httpError
  /-- Any other exception. -/
  | raised (className : Text)

structure CrawlProviderError where
  code : String
  message : String
  retryable : Bool
  statusCode : Option ℕ := none
  rawResponse : Option Text := none
  attempts : ℕ := 1

/-- What `start_crawl` raises. -/
inductive Failure
  | provider (error : CrawlProviderError)
  | raised (className : Text)

structure CrawlProviderResult where
  contract : Contract
  statusCode : ℕ
  attempts : ℕ
  rawResponse : Json

/-- `_response_error`. -/
def responseError (response : HttpResponse) (attempts : ℕ) : Option CrawlProviderError :=
  let status := response.statusCode
  let error (code message : String) (retryable : Bool) : CrawlProviderError :=
    ⟨code, message, retryable, some status, some response.text, attempts⟩
  if 200 ≤ status ∧ status < 300 then none
  else if status = 401 ∨ status = 403 then
    some (error "COZE_AUTH_FAILED" "Coze rejected the configured credentials" false)
  else if status = 408 then some (error "COZE_TIMEOUT" "Coze deployment timed out" true)
  else if status = 429 then some (error "COZE_RATE_LIMITED" "Coze rate limit was reached" true)
  else if 500 ≤ status then
    some (error "COZE_UPSTREAM_ERROR" "Coze deployment returned a server error" true)
  else some (error "COZE_REQUEST_REJECTED" "Coze rejected the request" false)

/-- The error of a timeout. -/
def timeoutError (attempts : ℕ) : CrawlProviderError where
  code := "COZE_TIMEOUT"
  message := "Coze request timed out"
  retryable := true
  attempts := attempts

/-- The error of a network that fails. -/
def networkError (attempts : ℕ) : CrawlProviderError where
  code := "COZE_NETWORK_ERROR"
  message := "Coze request failed at the network layer"
  retryable := true
  attempts := attempts

/-! ## The provider -/

structure CozeCrawlProvider where
  apiToken : Option Text
  legacyApiUrl : Option Text
  batchApiUrl : Option Text
  defaultContract : Contract := .batchCrawl
  maxRetries : ℕ := 2
  backoffBaseSeconds : ℚ := 1 / 4

/-- `_clean_url`. -/
def cleanUrl (value : Option Text) : Option Text :=
  let stripped := Text.stripBy isSpace (value.getD [])
  if stripped = [] then none else some (stripped.rdropWhile (· = '/'))

/-- What is posted. -/
structure CrawlRequest where
  contract : Contract
  endpoint : Text
  token : Text
  payload : Fields

/-- The world, and what was replied and waited. -/
structure Wire (σ : Type) where
  world : σ
  replies : List PostReply := []
  pauses : List ℚ := []

namespace CozeCrawlProvider

variable (P : CozeCrawlProvider)

/-- `_endpoint`. -/
def endpoint (contract : Contract) : Except CrawlProviderError Text :=
  let url := match contract with
    | .batchCrawl => cleanUrl P.batchApiUrl
    | .legacySingleArticle => cleanUrl P.legacyApiUrl
  let code := match contract with
    | .batchCrawl => "COZE_BATCH_WORKFLOW_NOT_PUBLISHED"
    | .legacySingleArticle => "COZE_LEGACY_WORKFLOW_NOT_CONFIGURED"
  if url.getD [] = [] then
    .error { code, message := "Coze workflow URL is not configured", retryable := false }
  else .ok (url.getD [])

/-- `start_crawl` before it posts. The validation of a batch request returns what is posted, or
nothing for a `ValidationError`. -/
def request (validate : Fields → Option Fields) (contract : Option Contract) (payload : Fields) :
    Except CrawlProviderError CrawlRequest := do
  let selected := contract.getD P.defaultContract
  let endpoint ← P.endpoint selected
  let token := P.apiToken.getD []
  if token = [] then
    throw {
      code := "COZE_TOKEN_NOT_CONFIGURED"
      message := "Coze API token is not configured"
      retryable := false }
  match selected with
  | .legacySingleArticle => return ⟨selected, endpoint, token, payload⟩
  | .batchCrawl =>
      match validate payload with
      | some payload => return ⟨selected, endpoint, token, payload⟩
      | none => throw {
          code := "COZE_REQUEST_INVALID"
          message := "Coze batch crawl request is invalid"
          retryable := false }

variable {σ : Type} (post : σ → PostReply × σ)

/-- `_backoff`. -/
def backoff (attempt : ℕ) (w : Wire σ) : Wire σ :=
  { w with pauses := w.pauses ++ [P.backoffBaseSeconds * 2 ^ (attempt - 1)] }

/-- `_post_with_retry`, after some attempts. -/
def postWithRetry (attempts : ℕ) (w : Wire σ) : Except Failure (HttpResponse × ℕ) × Wire σ :=
  let attempts' := attempts + 1
  let (reply, world) := post w.world
  let w := { w with world, replies := w.replies ++ [reply] }
  match reply with
  | .timeout =>
      if attempts' ≤ P.maxRetries then postWithRetry attempts' (P.backoff attempts' w)
      else (.error (.provider (timeoutError attempts')), w)
  | .httpError =>
      if attempts' ≤ P.maxRetries then postWithRetry attempts' (P.backoff attempts' w)
      else (.error (.provider (networkError attempts')), w)
  | .raised className => (.error (.raised className), w)
  | .response response =>
      match responseError response attempts' with
      | none => (.ok (response, attempts'), w)
      | some error =>
          if error.retryable = true ∧ attempts' ≤ P.maxRetries then
            postWithRetry attempts' (P.backoff attempts' w)
          else (.error (.provider error), w)
termination_by P.maxRetries - attempts
decreasing_by all_goals omega

/-- What `start_crawl` makes of a response. -/
def completed (contract : Contract) (response : HttpResponse) (attempts : ℕ) :
    Except Failure CrawlProviderResult :=
  match response.json with
  | some rawResponse => .ok ⟨contract, response.statusCode, attempts, rawResponse⟩
  | none => .error (.provider {
      code := "COZE_INVALID_JSON"
      message := "Coze returned invalid JSON"
      retryable := false
      statusCode := some response.statusCode
      rawResponse := some response.text
      attempts })

/-- `start_crawl`. -/
def startCrawl (validate : Fields → Option Fields) (post : CrawlRequest → σ → PostReply × σ)
    (contract : Option Contract) (payload : Fields) (w : Wire σ) :
    Except Failure CrawlProviderResult × Wire σ :=
  match P.request validate contract payload with
  | .error error => (.error (.provider error), w)
  | .ok request =>
      match P.postWithRetry (post request) 0 w with
      | (.error failure, w) => (.error failure, w)
      | (.ok (response, attempts), w) => (completed request.contract response attempts, w)

end CozeCrawlProvider

/-! ## One attempt -/

/-- Replies after which another attempt is made. -/
def PostReply.isTransient : PostReply → Bool
  | timeout | httpError => true
  | raised _ => false
  | response r => r.statusCode = 408 || r.statusCode = 429 || 500 ≤ r.statusCode

/-- What an attempt comes to. -/
def verdict (attempts : ℕ) : PostReply → Attempt Failure (HttpResponse × ℕ)
  | .timeout => .mendable (.provider (timeoutError attempts))
  | .httpError => .mendable (.provider (networkError attempts))
  | .raised className => .settled (.error (.raised className))
  | .response response =>
      match responseError response attempts with
      | none => .settled (.ok (response, attempts))
      | some error =>
          if error.retryable then .mendable (.provider error)
          else .settled (.error (.provider error))

/-- An error of a response is retryable exactly if the response is transient. -/
theorem responseError_some {response : HttpResponse} {attempts : ℕ} {error : CrawlProviderError}
    (h : responseError response attempts = some error) :
    error.attempts = attempts ∧ error.retryable = (PostReply.response response).isTransient := by
  unfold responseError at h
  dsimp only at h
  simp only [PostReply.isTransient]
  split at h
  · cases h
  · split at h
    · cases h
      refine ⟨rfl, (Bool.eq_false_iff.mpr ?_).symm⟩
      simp only [ne_eq, Bool.or_eq_true, decide_eq_true_eq]
      omega
    · split at h
      · cases h
        exact ⟨rfl, by simp [*]⟩
      · split at h
        · cases h
          exact ⟨rfl, by simp [*]⟩
        · split at h
          · cases h
            exact ⟨rfl, by simp [*]⟩
          · cases h
            exact ⟨rfl, by simp [*]⟩

theorem responseError_eq_none {response : HttpResponse} {attempts : ℕ} :
    responseError response attempts = none ↔
      200 ≤ response.statusCode ∧ response.statusCode < 300 := by
  unfold responseError
  dsimp only
  split
  · next h => exact iff_of_true rfl h
  · next h =>
      refine iff_of_false ?_ h
      split <;> [skip; split <;> [skip; split <;> [skip; split]]] <;> exact Option.some_ne_none _

/-- What an attempt comes to: a response of success, an exception of another kind, or an error of the
provider, which is retryable exactly if the reply is transient. -/
theorem verdict_cases (attempts : ℕ) (reply : PostReply) :
    (∃ response, reply = .response response ∧ 200 ≤ response.statusCode ∧
      response.statusCode < 300 ∧ reply.isTransient = false ∧
        verdict attempts reply = .settled (.ok (response, attempts))) ∨
    (∃ className, reply = .raised className ∧
      verdict attempts reply = .settled (.error (.raised className))) ∨
    ∃ error : CrawlProviderError, error.attempts = attempts ∧
      error.retryable = reply.isTransient ∧
        verdict attempts reply = if error.retryable then .mendable (.provider error)
          else .settled (.error (.provider error)) := by
  cases reply with
  | timeout => exact .inr (.inr ⟨timeoutError attempts, rfl, rfl, rfl⟩)
  | httpError => exact .inr (.inr ⟨networkError attempts, rfl, rfl, rfl⟩)
  | raised className => exact .inr (.inl ⟨className, rfl, rfl⟩)
  | response response =>
      cases herror : responseError response attempts with
      | none =>
          have hok := responseError_eq_none.mp herror
          refine .inl ⟨response, rfl, hok.1, hok.2, Bool.eq_false_iff.mpr ?_, ?_⟩
          · simp only [PostReply.isTransient, ne_eq, Bool.or_eq_true, decide_eq_true_eq]
            omega
          · simp only [verdict, herror]
      | some error =>
          obtain ⟨hattempts, hretryable⟩ := responseError_some herror
          refine .inr (.inr ⟨error, hattempts, hretryable, ?_⟩)
          simp only [verdict, herror]

theorem isMendable_verdict (attempts : ℕ) (reply : PostReply) :
    (verdict attempts reply).isMendable = reply.isTransient := by
  rcases verdict_cases attempts reply with
    ⟨response, -, -, -, htransient, hverdict⟩ | ⟨className, rfl, -⟩ |
      ⟨error, -, hretryable, hverdict⟩
  · rw [hverdict, htransient]
    rfl
  · rfl
  · rw [hverdict, ← hretryable]
    cases error.retryable <;> rfl

/-! ## The loop -/

namespace CozeCrawlProvider

variable {P : CozeCrawlProvider} {σ : Type} {post : σ → PostReply × σ}

/-- One round of the loop, by what the attempt comes to. -/
theorem postWithRetry_eq_verdict (attempts : ℕ) (w : Wire σ) :
    P.postWithRetry post attempts w =
      let w' : Wire σ :=
        ⟨(post w.world).2, w.replies ++ [(post w.world).1], w.pauses⟩
      match verdict (attempts + 1) (post w.world).1 with
      | .settled result => (result, w')
      | .mendable error =>
          if attempts + 1 ≤ P.maxRetries then
            P.postWithRetry post (attempts + 1) (P.backoff (attempts + 1) w')
          else (.error error, w') := by
  rw [postWithRetry]
  dsimp only
  cases (post w.world).1 with
  | timeout => rfl
  | httpError => rfl
  | raised className => rfl
  | response response =>
      dsimp only [verdict]
      cases responseError response (attempts + 1) with
      | none => rfl
      | some error =>
          dsimp only
          cases error.retryable with
          | false => simp
          | true => simp

/-- The loop is a loop that tries again, with a pause before each of the later attempts. -/
theorem postWithRetry_eq_run (retries attempts : ℕ) (h : attempts + retries = P.maxRetries)
    (w : Wire σ) :
    P.postWithRetry post attempts w =
      let (replies, result, world) := Retry.run post verdict retries (attempts + 1) w.world
      (result, ⟨world, w.replies ++ replies, w.pauses ++
        (List.range' attempts (replies.length - 1)).map fun i => P.backoffBaseSeconds * 2 ^ i⟩) := by
  induction retries generalizing attempts w with
  | zero =>
      rw [postWithRetry_eq_verdict, Retry.run]
      dsimp only
      cases verdict (attempts + 1) (post w.world).1 with
      | settled result => simp
      | mendable error => simp [show ¬ attempts + 1 ≤ P.maxRetries by omega]
  | succ retries ih =>
      rw [postWithRetry_eq_verdict, Retry.run]
      dsimp only
      cases verdict (attempts + 1) (post w.world).1 with
      | settled result => simp
      | mendable error =>
          dsimp only
          rw [if_pos (by omega), ih (attempts + 1) (by omega)]
          obtain ⟨earlier, last, hreplies, -⟩ :=
            Retry.run_spec post verdict retries (attempts + 1 + 1) (post w.world).2
          simp only [backoff, hreplies, List.length_append, List.length_cons, List.length_nil,
            Nat.add_sub_cancel, List.append_assoc, List.cons_append, List.nil_append,
            List.range'_succ, List.map_cons]

/-- How long the pauses are altogether. -/
theorem sum_pauses (base : ℚ) (n : ℕ) :
    ((List.range' 0 n).map fun i => base * 2 ^ i).sum = base * (2 ^ n - 1) := by
  induction n with
  | zero => simp
  | succ n ih =>
      rw [List.range'_concat, List.map_append, List.sum_append, ih]
      simp only [List.map_cons, List.map_nil, List.sum_singleton]
      ring

end CozeCrawlProvider

/-! ## What comes out -/

/-- What a crawl makes of its last reply. -/
def concluded (contract : Contract) (attempts : ℕ) (reply : PostReply) :
    Except Failure CrawlProviderResult :=
  match (verdict attempts reply).outcome with
  | .error failure => .error failure
  | .ok (response, attempts) => CozeCrawlProvider.completed contract response attempts

theorem concluded_ok {contract : Contract} {attempts : ℕ} {reply : PostReply}
    {result : CrawlProviderResult} (h : concluded contract attempts reply = .ok result) :
    result.attempts = attempts ∧ ∃ response, reply = .response response ∧
      200 ≤ response.statusCode ∧ response.statusCode < 300 ∧
        response.json = some result.rawResponse := by
  unfold concluded at h
  rcases verdict_cases attempts reply with
    ⟨response, hreply, hlow, hhigh, -, hverdict⟩ | ⟨className, -, hverdict⟩ |
      ⟨error, -, -, hverdict⟩
  · rw [hverdict] at h
    dsimp only [Attempt.outcome, CozeCrawlProvider.completed] at h
    cases hjson : response.json with
    | none =>
        rw [hjson] at h
        cases h
    | some rawResponse =>
        rw [hjson] at h
        cases h
        exact ⟨rfl, response, hreply, hlow, hhigh, hjson⟩
  · rw [hverdict] at h
    cases h
  · rw [hverdict] at h
    cases hretryable : error.retryable <;> rw [hretryable] at h <;> cases h

theorem concluded_error {contract : Contract} {attempts : ℕ} {reply : PostReply}
    {error : CrawlProviderError} (h : concluded contract attempts reply = .error (.provider error)) :
    error.attempts = attempts ∧ error.retryable = reply.isTransient := by
  unfold concluded at h
  rcases verdict_cases attempts reply with
    ⟨response, -, -, -, htransient, hverdict⟩ | ⟨className, -, hverdict⟩ |
      ⟨error', hattempts, hretryable, hverdict⟩
  · rw [hverdict] at h
    dsimp only [Attempt.outcome, CozeCrawlProvider.completed] at h
    -- The body of a response of success that is no JSON: another attempt would not help.
    cases hjson : response.json with
    | none =>
        rw [hjson] at h
        cases h
        exact ⟨rfl, htransient.symm⟩
    | some rawResponse =>
        rw [hjson] at h
        cases h
  · rw [hverdict] at h
    cases h
  · have hsame : error = error' := by
      rw [hverdict] at h
      cases hretry : error'.retryable <;> rw [hretry] at h <;> cases h <;> rfl
    rw [hsame]
    exact ⟨hattempts, hretryable⟩

/-- A request that is refused beforehand posts nothing. Otherwise the last reply decides, and every
reply before it was transient: there are at most as many as the settings allow retries, and exactly so
many if the last one is transient too. A result is the JSON of a response of success. An error of the
provider counts the attempts, and is retryable exactly if the last reply is transient. The pauses add
up to a geometric sum. -/
theorem startCrawl_spec (P : CozeCrawlProvider) {σ : Type} (validate : Fields → Option Fields)
    (post : CrawlRequest → σ → PostReply × σ) (contract : Option Contract) (payload : Fields)
    (s : σ) :
    let outcome := P.startCrawl validate post contract payload ⟨s, [], []⟩
    (∀ error, P.request validate contract payload = .error error →
      outcome = (.error (.provider error), ⟨s, [], []⟩)) ∧
    ∀ request, P.request validate contract payload = .ok request →
      ∃ earlier last, outcome.2.replies = earlier ++ [last] ∧
        (∀ reply ∈ earlier, reply.isTransient = true) ∧
        earlier.length ≤ P.maxRetries ∧
        (last.isTransient = true → earlier.length = P.maxRetries) ∧
        outcome.2.pauses.sum = P.backoffBaseSeconds * (2 ^ earlier.length - 1) ∧
        (∀ result, outcome.1 = .ok result → result.attempts = earlier.length + 1 ∧
          ∃ response, last = .response response ∧ 200 ≤ response.statusCode ∧
            response.statusCode < 300 ∧ response.json = some result.rawResponse) ∧
        ∀ error, outcome.1 = .error (.provider error) →
          error.attempts = earlier.length + 1 ∧ error.retryable = last.isTransient := by
  intro outcome
  refine ⟨fun error hrequest => ?_, fun request hrequest => ?_⟩
  · simp only [outcome, CozeCrawlProvider.startCrawl, hrequest]
  obtain ⟨earlier, last, hreplies, hearlier, hlength, hlast, hresult⟩ :=
    Retry.run_spec (post request) verdict P.maxRetries 1 s
  have hrun := @CozeCrawlProvider.postWithRetry_eq_run P σ (post request) P.maxRetries 0
    (Nat.zero_add _) ⟨s, [], []⟩
  have hconcluded : outcome.1 = concluded request.contract (earlier.length + 1) last := by
    simp only [outcome, CozeCrawlProvider.startCrawl, hrequest, hrun, Nat.zero_add, hresult, concluded,
      Nat.add_comm 1]
    cases (verdict (earlier.length + 1) last).outcome <;> rfl
  have hwire : outcome.2.replies = earlier ++ [last] ∧ outcome.2.pauses =
      (List.range' 0 earlier.length).map fun i => P.backoffBaseSeconds * 2 ^ i := by
    simp only [outcome, CozeCrawlProvider.startCrawl, hrequest, hrun, Nat.zero_add]
    cases (Retry.run (post request) verdict P.maxRetries 1 s).2.1 <;> simp [hreplies]
  rw [isMendable_verdict] at hlast
  refine ⟨earlier, last, hwire.1, fun reply hreply => ?_, hlength, hlast, ?_,
    fun result hok => concluded_ok (hconcluded ▸ hok),
    fun error herror => concluded_error (hconcluded ▸ herror)⟩
  · obtain ⟨i, hi⟩ := List.getElem?_of_mem hreply
    exact isMendable_verdict _ reply ▸ hearlier i reply hi
  · rw [hwire.2]
    exact CozeCrawlProvider.sum_pauses _ _

end Odirag.Crawl.CozeProvider
