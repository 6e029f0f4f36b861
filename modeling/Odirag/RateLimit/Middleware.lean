import Odirag.Documents.Document
import Odirag.Foundations.Text
import Odirag.RateLimit.Limiters

/-!
# The rate limit middleware

Reference: `RateLimitMiddleware`, `_profile` and `_identity` of `backend/app/rate_limit.py`.

Every request passes the middleware before it reaches the application. A request that is not exempt
is counted in a bucket, its profile and the identity of its client, and the limiter decides.
`answerAfter` says what a request may expect from the requests before it: only those of its own
bucket and window count. Over any sequence of requests the middleware gives these answers with the
limiter in memory (`dispatch_memory`), whence a client that is no trusted proxy neither chooses its
bucket nor touches the answers of the others (`peer_isolated`). With Redis it stays closed when the
server cannot be reached (`dispatch_redis`).

How an IP address is read, written and compared with a network is a parameter, and what the
application does with a request that passes is left to the application.
-/

namespace Odirag.RateLimit

open FixedWindow
open Documents (isSpace)

/-- `ipaddress`, as far as it is used, for addresses `α` and networks `ν`. -/
structure IpTools (α ν : Type*) where
  /-- `ip_address`; `none` is a `ValueError`. -/
  ipAddress : Text → Option α
  /-- `address.compressed`. -/
  compressed : α → Text
  /-- `address in network`. -/
  contains : ν → α → Bool

/-- The settings of the middleware. -/
structure Settings where
  apiPrefix : Text
  rateLimitEnabled : Bool
  rateLimitWindowSeconds : ℕ
  rateLimitAuthRequests : ℤ
  rateLimitExpensiveRequests : ℤ
  rateLimitDefaultRequests : ℤ

/-- What becomes of a call of `redis.eval`. -/
inductive Backend
  | replies
  /-- The script has not run. -/
  | unreachable
  /-- The script has run and its reply is lost. -/
  | replyLost
deriving DecidableEq, Repr

/-- A request, the clocks when it is checked, and what Redis does with the check. -/
structure Arrival where
  path : Text
  method : Text
  /-- `request.client.host`. -/
  client : Option Text
  /-- The header `x-forwarded-for`. -/
  forwardedFor : Option Text
  requestId : Option Text
  now : ℚ
  server : ℚ
  ttl : ℤ
  backend : Backend := .replies

/-- The profiles of `_profile`. -/
inductive Profile
  | auth | expensive | default
deriving DecidableEq, Repr

/-- The name in the key and in the error. -/
def Profile.name : Profile → Text
  | .auth => str "auth"
  | .expensive => str "expensive"
  | .default => str "default"

/-- `ErrorDetail`. -/
structure ErrorDetail where
  code : Text
  message : Text
  /-- The profile in `details`. -/
  details : Option Text := none
  requestId : Option Text

/-- What the client receives. -/
inductive Answer
  /-- The response of the application, updated with these headers. -/
  | passed (headers : List (Text × Text))
  /-- A response of the middleware; the application has not seen the request. -/
  | refused (status : ℕ) (error : ErrorDetail) (headers : List (Text × Text))

namespace Answer

/-- The application has seen the request. -/
def isPassed : Answer → Bool
  | passed _ => true
  | refused .. => false

/-- The status of a refusal. -/
def refusal : Answer → Option ℕ
  | passed _ => none
  | refused status _ _ => some status

end Answer

namespace Settings

variable (settings : Settings)

/-- The paths that are never limited. -/
def probePaths : List Text := strs ["/health/live", "/health/ready", "/metrics"]

/-- The request goes to the application without a check. -/
def isExempt (a : Arrival) : Bool :=
  probePaths.contains a.path || !settings.rateLimitEnabled || a.method == str "OPTIONS"

/-- `auth_paths`. -/
def authPaths : List Text :=
  [settings.apiPrefix ++ str "/auth/login", settings.apiPrefix ++ str "/auth/refresh"]

/-- `expensive_prefixes`. -/
def expensivePrefixes : List Text :=
  (strs ["/chat", "/search", "/evaluations", "/experiments", "/source-discovery"]).map
    (settings.apiPrefix ++ ·)

/-- `expensive_suffixes`. -/
def expensiveSuffixes : List Text := strs ["/test", "/reindex", "/reparse", "/run"]

/-- The profile that `_profile` returns. -/
def profile (a : Arrival) : Profile :=
  if a.method = str "POST" ∧ a.path ∈ settings.authPaths then .auth
  else if a.method ∉ strs ["GET", "HEAD"] ∧
      (settings.expensivePrefixes.any (·.isPrefixOf a.path) ||
        expensiveSuffixes.any (·.isSuffixOf a.path)) then .expensive
  else .default

/-- The limit that `_profile` returns with it. -/
def limit : Profile → ℤ
  | .auth => settings.rateLimitAuthRequests
  | .expensive => settings.rateLimitExpensiveRequests
  | .default => settings.rateLimitDefaultRequests

end Settings

section

variable {α ν : Type*} (I : IpTools α ν) (networks : List ν) (settings : Settings)

/-- The address of an untrusted peer, or what a trusted proxy says of its own. -/
def forwarded (peer : α) (a : Arrival) : α :=
  if networks.any (I.contains · peer) then
    -- Exactly one value counts: a chain that the client has begun has more.
    match (((a.forwardedFor.getD []).splitOn ',').map (Text.stripBy isSpace)).filter (· ≠ []) with
    | [value] => (I.ipAddress value).getD peer
    | _ => peer
  else peer

/-- `_identity`. -/
def identity (a : Arrival) : Text :=
  let clientHost := a.client.getD (str "unknown")
  match I.ipAddress clientHost with
  | none => str "ip:" ++ clientHost
  | some peer => str "ip:" ++ I.compressed (forwarded I networks peer a)

/-- `f"{profile}:{identity}"`. -/
def bucketKey (profile : Profile) (identity : Text) : String :=
  String.ofList (profile.name ++ ':' :: identity)

/-- The key of a request. -/
def keyOf (a : Arrival) : String := bucketKey (settings.profile a) (identity I networks a)

/-- What the limiter is asked for a request. -/
def requestOf (a : Arrival) : Request := ⟨keyOf I networks settings a, a.now, a.server, a.ttl⟩

/-- `limiter.check` for a limit and a window; `none` is a `RateLimitBackendUnavailable`. -/
abbrev Limiter (σ : Type*) :=
  ℕ → ℤ → σ → Backend → Request → Option RateLimitDecision × σ

/-- `InMemoryFixedWindowRateLimiter`. -/
def memoryLimiter : Limiter Entries := fun windowSeconds limit entries _ r =>
  let (decision, entries) := memoryCheck windowSeconds (fun _ => limit) entries r
  (some decision, entries)

/-- `RedisFixedWindowRateLimiter`. -/
def redisLimiter (keyPrefix : String) : Limiter Store := fun windowSeconds limit store backend r =>
  let (decision, after) := redisCheck keyPrefix windowSeconds (fun _ => limit) store r
  match backend with
  | .replies => (some decision, after)
  | .unreachable => (none, store)
  | .replyLost => (none, after)

/-- The digits of `str(value)`. -/
def intText (value : ℤ) : Text := (Int.repr value).toList

/-- The headers that tell about a decision. -/
def rateLimitHeaders (d : RateLimitDecision) : List (Text × Text) :=
  [(str "X-RateLimit-Limit", intText d.limit), (str "X-RateLimit-Remaining", intText d.remaining),
    (str "X-RateLimit-Reset", intText d.resetAfterSeconds)]

/-- What a decision leads to. -/
def respond (a : Arrival) (d : RateLimitDecision) : Answer :=
  if d.allowed then .passed (rateLimitHeaders d)
  else
    .refused 429
      { code := str "RATE_LIMITED"
        message := str "Too many requests"
        details := some (settings.profile a).name
        requestId := a.requestId }
      (rateLimitHeaders d ++ [(str "Retry-After", intText d.resetAfterSeconds)])

/-- The answer when the limiter cannot be reached. -/
def unavailable (a : Arrival) : Answer :=
  .refused 503
    { code := str "RATE_LIMIT_BACKEND_UNAVAILABLE"
      message := str "Rate limiting dependency is unavailable"
      requestId := a.requestId } []

/-- `RateLimitMiddleware.dispatch`. -/
def dispatch {σ : Type*} (limiter : Limiter σ) (s : σ) (a : Arrival) : Answer × σ :=
  if settings.isExempt a then (.passed [], s)
  else
    match limiter settings.rateLimitWindowSeconds (settings.limit (settings.profile a)) s a.backend
        (requestOf I networks settings a) with
    | (none, s) => (unavailable a, s)
    | (some decision, s) => (respond settings a decision, s)

/-! ## What a request may expect -/

/-- The request is counted in a bucket: it is not exempt, and it has this profile and identity and
comes in this window. -/
def inBucket (profile : Profile) (i : Text) (window : ℤ) (a : Arrival) : Bool :=
  !settings.isExempt a && decide (settings.profile a = profile) &&
    decide (identity I networks a = i) &&
    decide (windowOf settings.rateLimitWindowSeconds a.now = window)

/-- The requests in the bucket and the window of this one. -/
def isCountedWith (a : Arrival) : Arrival → Bool :=
  inBucket I networks settings (settings.profile a) (identity I networks a)
    (windowOf settings.rateLimitWindowSeconds a.now)

/-- The decision for the request that `rank` requests of its bucket and window came before. -/
def decisionAt (rank : ℕ) (reset : ℤ) (a : Arrival) : RateLimitDecision :=
  let limit := settings.limit (settings.profile a)
  ⟨(verdict limit rank).allowed, limit, (verdict limit rank).remaining, reset⟩

/-- The answer to a request after others. -/
def answerAfter (past : List Arrival) (a : Arrival) : Answer :=
  if settings.isExempt a then .passed []
  else
    respond settings a
      (decisionAt settings (past.countP (isCountedWith I networks settings a))
        (resetAfter settings.rateLimitWindowSeconds a.now) a)

/-- The request has reached the server. -/
def Arrival.reached (a : Arrival) : Bool := a.backend ≠ .unreachable

/-- The answer to a request after others when Redis counts: those that have not reached the server
are not counted, and a request without a reply is refused. -/
def redisAnswerAfter (past : List Arrival) (a : Arrival) : Answer :=
  if settings.isExempt a then .passed []
  else if a.backend = .replies then
    respond settings a
      (decisionAt settings
        (past.countP fun b => b.reached && isCountedWith I networks settings a b)
        (if 0 < a.ttl then a.ttl else resetAfter settings.rateLimitWindowSeconds a.now) a)
  else unavailable a

end

/-! ## Buckets -/

theorem colon_notMem_name (profile : Profile) : ':' ∉ profile.name := by
  cases profile <;> decide

/-- A key tells the profile and the identity. -/
theorem bucketKey_inj {p p' : Profile} {i i' : Text} :
    bucketKey p i = bucketKey p' i' ↔ p = p' ∧ i = i' := by
  constructor
  · intro h
    have hlist : p.name ++ ':' :: i = p'.name ++ ':' :: i' := by
      simpa only [bucketKey, String.toList_ofList] using congrArg String.toList h
    -- The name ends at the first colon.
    have hname : ∀ (q : Profile) (j : Text),
        (q.name ++ ':' :: j).takeWhile (· ≠ ':') = q.name := by
      intro q j
      rw [List.takeWhile_append_of_pos]
      · simp
      · intro c hc
        simpa using fun heq : c = ':' => colon_notMem_name q (heq ▸ hc)
    have hnames : p.name = p'.name := by rw [← hname p i, hlist, hname]
    have hp : p = p' := by
      cases p <;> cases p' <;> first | rfl | exact absurd hnames (by decide)
    subst hp
    exact ⟨rfl, by simpa using hlist⟩
  · rintro ⟨rfl, rfl⟩
    rfl

/-- The limit of the profile that a key names. -/
def Settings.limitOfKey (settings : Settings) (key : String) : ℤ :=
  let name := key.toList.takeWhile (· ≠ ':')
  if name = Profile.auth.name then settings.limit .auth
  else if name = Profile.expensive.name then settings.limit .expensive
  else settings.limit .default

theorem Settings.limitOfKey_bucketKey (settings : Settings) (p : Profile) (i : Text) :
    settings.limitOfKey (bucketKey p i) = settings.limit p := by
  have hname : (bucketKey p i).toList.takeWhile (· ≠ ':') = p.name := by
    rw [bucketKey, String.toList_ofList, List.takeWhile_append_of_pos]
    · simp
    · intro c hc
      simpa using fun heq : c = ':' => colon_notMem_name p (heq ▸ hc)
  unfold Settings.limitOfKey
  rw [hname]
  cases p <;> rfl

section

variable {α ν : Type*} {I : IpTools α ν} {networks : List ν} {settings : Settings}
  {past : List Arrival} {a : Arrival}

/-- The checks that past requests have led to, of those that the limiter has seen. -/
def checksOf (I : IpTools α ν) (networks : List ν) (settings : Settings) (seen : Arrival → Bool)
    (past : List Arrival) : List Request :=
  (past.filter fun a => !settings.isExempt a && seen a).map (requestOf I networks settings)

theorem checksOf_cons (seen : Arrival → Bool) :
    checksOf I networks settings seen (a :: past) =
      if !settings.isExempt a && seen a then
        requestOf I networks settings a :: checksOf I networks settings seen past
      else checksOf I networks settings seen past := by
  unfold checksOf
  rw [List.filter_cons]
  split <;> rfl

/-- What holds of all past requests holds of the checks. -/
theorem forall_checksOf (seen : Arrival → Bool) {P : Request → Prop}
    (h : ∀ b ∈ past, P (requestOf I networks settings b)) :
    ∀ r ∈ checksOf I networks settings seen past, P r := by
  intro r hr
  obtain ⟨b, hb, rfl⟩ := List.mem_map.mp hr
  exact h b (List.mem_of_mem_filter hb)

/-- The limiter has counted the requests of the bucket and the window that it has seen. -/
theorem made_checksOf (seen : Arrival → Bool) (past : List Arrival) (a : Arrival) :
    made settings.rateLimitWindowSeconds (checksOf I networks settings seen past)
        (keyOf I networks settings a) (windowOf settings.rateLimitWindowSeconds a.now) =
      past.countP fun b => seen b && isCountedWith I networks settings a b := by
  unfold made checksOf
  rw [List.map_map, List.count_eq_countP, List.countP_map, List.countP_filter]
  refine List.countP_congr fun b _ => ?_
  simp only [Function.comp_apply, requestOf, Request.arrival, keyOf, isCountedWith, inBucket,
    Bool.and_eq_true, beq_iff_eq, Prod.mk.injEq, bucketKey_inj, decide_eq_true_eq, Bool.not_eq_true']
  tauto

/-- What a check is asked depends on the limit of its own key only. -/
theorem memoryCheck_congr (windowSeconds : ℕ) (limit limit' : String → ℤ) (entries : Entries)
    {r : Request} (h : limit r.key = limit' r.key) :
    memoryCheck windowSeconds limit entries r = memoryCheck windowSeconds limit' entries r := by
  simp only [memoryCheck, h]

theorem redisCheck_congr (keyPrefix : String) (windowSeconds : ℕ) (limit limit' : String → ℤ)
    (store : Store) {r : Request} (h : limit r.key = limit' r.key) :
    redisCheck keyPrefix windowSeconds limit store r =
      redisCheck keyPrefix windowSeconds limit' store r := by
  simp only [redisCheck, h]

/-- The parts of a decision that no count decides. -/
theorem memoryCheck_decision (windowSeconds : ℕ) (limit : String → ℤ) (entries : Entries)
    (r : Request) :
    (memoryCheck windowSeconds limit entries r).1.limit = limit r.key ∧
      (memoryCheck windowSeconds limit entries r).1.resetAfterSeconds =
        resetAfter windowSeconds r.now := by
  rw [memoryCheck_eq]
  simp only
  split <;> exact ⟨rfl, rfl⟩

theorem redisCheck_decision (keyPrefix : String) (windowSeconds : ℕ) (limit : String → ℤ)
    (store : Store) (r : Request) :
    (redisCheck keyPrefix windowSeconds limit store r).1.limit = limit r.key ∧
      (redisCheck keyPrefix windowSeconds limit store r).1.resetAfterSeconds =
        if 0 < r.ttl then r.ttl else resetAfter windowSeconds r.now := by
  simp only [redisCheck]
  split <;> exact ⟨rfl, rfl⟩

/-- A decision is known from its verdict, its limit and its reset. -/
theorem decision_eq {d : RateLimitDecision} {rank : ℕ} {reset : ℤ}
    (hverdict : d.verdict = verdict (settings.limit (settings.profile a)) rank)
    (hlimit : d.limit = settings.limit (settings.profile a))
    (hreset : d.resetAfterSeconds = reset) : d = decisionAt settings rank reset a := by
  obtain ⟨allowed, limit, remaining, resetAfterSeconds⟩ := d
  simp only [decisionAt, ← hverdict, RateLimitDecision.verdict]
  subst hlimit hreset
  rfl

/-- Only a request of the application's share is let through. -/
theorem isPassed_respond {rank : ℕ} {reset : ℤ}
    (h : (respond settings a (decisionAt settings rank reset a)).isPassed = true) :
    rank < (settings.limit (settings.profile a)).toNat := by
  unfold respond at h
  split at h
  · next hallowed =>
      rw [decisionAt, verdict_allowed] at hallowed
      simpa using hallowed
  · cases h

/-! ## In memory -/

/-- One request is answered from the requests before it, and counted. -/
theorem memory_step {entries : Entries}
    (hcounts : MemoryCounts settings.rateLimitWindowSeconds settings.limitOfKey
      (checksOf I networks settings (fun _ => true) past) entries)
    (hpast : ∀ b ∈ past, b.now ≤ a.now) :
    (dispatch I networks settings memoryLimiter entries a).1 =
        answerAfter I networks settings past a ∧
      MemoryCounts settings.rateLimitWindowSeconds settings.limitOfKey
        (checksOf I networks settings (fun _ => true) (a :: past))
        (dispatch I networks settings memoryLimiter entries a).2 := by
  rw [checksOf_cons]
  by_cases hexempt : settings.isExempt a = true
  · simp only [dispatch, answerAfter, hexempt, Bool.not_true, Bool.false_and, if_true,
      Bool.false_eq_true, if_false]
    exact ⟨trivial, hcounts⟩
  · have hkey : settings.limitOfKey (requestOf I networks settings a).key =
        settings.limit (settings.profile a) := settings.limitOfKey_bucketKey _ _
    obtain ⟨hverdict, hnext⟩ := hcounts.check
      (forall_checksOf _ (P := fun r => r.now ≤ (requestOf I networks settings a).now) hpast)
    obtain ⟨hlimit, hreset⟩ := memoryCheck_decision settings.rateLimitWindowSeconds
      settings.limitOfKey entries (requestOf I networks settings a)
    have hcheck := memoryCheck_congr settings.rateLimitWindowSeconds
      (fun _ => settings.limit (settings.profile a)) settings.limitOfKey entries hkey.symm
    have hmade : made settings.rateLimitWindowSeconds
        (checksOf I networks settings (fun _ => true) past) (requestOf I networks settings a).key
          (windowOf settings.rateLimitWindowSeconds (requestOf I networks settings a).now) =
        past.countP (isCountedWith I networks settings a) :=
      (made_checksOf (fun _ => true) past a).trans (by simp only [Bool.true_and])
    rw [hkey] at hlimit
    rw [hkey, hmade] at hverdict
    simp only [hexempt, Bool.not_false, Bool.and_true, if_true, dispatch, answerAfter,
      Bool.false_eq_true, if_false, memoryLimiter, hcheck]
    refine ⟨?_, hnext⟩
    exact congrArg (respond settings a) (decision_eq hverdict hlimit hreset)

/-- While the clock does not go back, the middleware with the limiter in memory answers every
request, status, body and headers, from the number of requests that came before it with the same
profile and identity in the same window. -/
theorem dispatch_memory (I : IpTools α ν) (networks : List ν) (settings : Settings)
    {arrivals : List Arrival} (hclock : arrivals.Pairwise fun a b => a.now ≤ b.now) :
    run (dispatch I networks settings memoryLimiter) ∅ arrivals =
      answersAfter (answerAfter I networks settings) [] arrivals :=
  run_eq_of_simulation (answerAfter I networks settings)
    (fun _ _ _ (hcounts : MemoryCounts _ _ (checksOf I networks settings _ _) _) hpast =>
      memory_step hcounts hpast)
    (fun _ _ _ => by simp [checksOf]) (by simp) hclock

/-! ## Peers -/

/-- A peer that is no trusted proxy has one identity, whatever its headers say. -/
theorem identity_untrusted {host : Text} {peer : α} (hpeer : I.ipAddress host = some peer)
    (huntrusted : ∀ network ∈ networks, I.contains network peer = false)
    (hclient : a.client = some host) :
    identity I networks a = str "ip:" ++ I.compressed peer := by
  have hany : networks.any (I.contains · peer) = false := by
    simpa using huntrusted
  simp [identity, hclient, hpeer, forwarded, hany]

/-- No more requests of a bucket pass in a window than its limit. -/
theorem countP_isPassed_le (I : IpTools α ν) (networks : List ν) (settings : Settings)
    (profile : Profile) (i : Text) (window : ℤ) (arrivals : List Arrival) :
    (answersTo (inBucket I networks settings profile i window) arrivals
        (answersAfter (answerAfter I networks settings) [] arrivals)).countP Answer.isPassed ≤
      (settings.limit profile).toNat := by
  refine countP_answersTo_le (inBucket I networks settings profile i window) ?_ [] arrivals
  intro past a ha hpassed
  refine ⟨ha, ?_⟩
  simp only [inBucket, Bool.and_eq_true, Bool.not_eq_true', decide_eq_true_eq] at ha
  obtain ⟨⟨⟨hexempt, rfl⟩, rfl⟩, rfl⟩ := ha
  rw [answerAfter, hexempt, if_neg Bool.false_ne_true] at hpassed
  exact isPassed_respond hpassed

/-- A request is answered from the requests of its own identity. -/
theorem answerAfter_filter (i : Text) (past : List Arrival)
    (ha : decide (identity I networks a ≠ i) = true) :
    answerAfter I networks settings past a =
      answerAfter I networks settings (past.filter fun b => identity I networks b ≠ i) a := by
  have hrank : (past.filter fun b => identity I networks b ≠ i).countP
      (isCountedWith I networks settings a) = past.countP (isCountedWith I networks settings a) := by
    rw [List.countP_filter]
    refine List.countP_congr fun b _ => ?_
    rw [Bool.and_eq_true, and_iff_left_iff_imp]
    intro hb
    simp only [isCountedWith, inBucket, Bool.and_eq_true, decide_eq_true_eq] at hb
    rwa [hb.1.2]
  unfold answerAfter
  rw [hrank]

theorem countP_le_add {β : Type*} {p q r s : β → Bool} (h : ∀ x, p x → q x ∨ r x ∨ s x)
    (xs : List β) : xs.countP p ≤ xs.countP q + xs.countP r + xs.countP s := by
  induction xs with
  | nil => simp
  | cons x xs ih =>
      have hx := h x
      simp only [List.countP_cons]
      split <;> split <;> split <;> split <;> first | omega | simp_all

/-- Of the requests that are not exempt, a client that is no trusted proxy does not get more than the
limits of the three profiles through in a window, whatever it sends; and the clients of other identities
are answered, in full, as if it had sent nothing. -/
theorem peer_isolated (I : IpTools α ν) (networks : List ν) (settings : Settings)
    {arrivals : List Arrival} (hclock : arrivals.Pairwise fun a b => a.now ≤ b.now)
    (host : Text) (peer : α) (hpeer : I.ipAddress host = some peer)
    (huntrusted : ∀ network ∈ networks, I.contains network peer = false) :
    let answers := run (dispatch I networks settings memoryLimiter) ∅ arrivals
    (∀ window,
      (answersTo (fun a => !settings.isExempt a && decide (a.client = some host) &&
            decide (windowOf settings.rateLimitWindowSeconds a.now = window))
          arrivals answers).countP Answer.isPassed ≤
        settings.rateLimitAuthRequests.toNat + settings.rateLimitExpensiveRequests.toNat +
          settings.rateLimitDefaultRequests.toNat) ∧
      answersTo (fun a => identity I networks a ≠ str "ip:" ++ I.compressed peer) arrivals answers =
        run (dispatch I networks settings memoryLimiter) ∅
          (arrivals.filter fun a => identity I networks a ≠ str "ip:" ++ I.compressed peer) := by
  intro answers
  have hanswers : answers = answersAfter (answerAfter I networks settings) [] arrivals :=
    dispatch_memory I networks settings hclock
  refine ⟨fun window => ?_, ?_⟩
  · -- Each of its requests is in the bucket of one of the profiles.
    have hbucket := fun profile => countP_isPassed_le I networks settings profile
      (str "ip:" ++ I.compressed peer) window arrivals
    simp only [← hanswers, countP_answersTo] at hbucket ⊢
    refine (countP_le_add ?_ _).trans
      (Nat.add_le_add (Nat.add_le_add (hbucket .auth) (hbucket .expensive)) (hbucket .default))
    rintro ⟨a, answer⟩ h
    simp only [Bool.and_eq_true, Bool.not_eq_true', decide_eq_true_eq] at h
    obtain ⟨hpassed, ⟨hexempt, hclient⟩, hwindow⟩ := h
    have hidentity := identity_untrusted hpeer huntrusted hclient
    cases hprofile : settings.profile a <;>
      simp [inBucket, hpassed, hexempt, hidentity, hwindow, hprofile]
  · generalize str "ip:" ++ I.compressed peer = i
    rw [hanswers, dispatch_memory I networks settings (hclock.filter _)]
    exact answersTo_answersAfter (p := fun a => decide (identity I networks a ≠ i))
      (fun past a ha => answerAfter_filter (a := a) i past ha) [] arrivals

/-! ## Redis -/

/-- One request is answered from those before it that have reached the server. -/
theorem redis_step {keyPrefix : String} {store : Store}
    (hcounts : RedisCounts keyPrefix settings.rateLimitWindowSeconds
      (checksOf I networks settings Arrival.reached past) store)
    (hpast : ∀ b ∈ past, KeyLives settings.rateLimitWindowSeconds (requestOf I networks settings b)
      (requestOf I networks settings a)) :
    (dispatch I networks settings (redisLimiter keyPrefix) store a).1 =
        redisAnswerAfter I networks settings past a ∧
      RedisCounts keyPrefix settings.rateLimitWindowSeconds
        (checksOf I networks settings Arrival.reached (a :: past))
        (dispatch I networks settings (redisLimiter keyPrefix) store a).2 := by
  rw [checksOf_cons]
  by_cases hexempt : settings.isExempt a = true
  · simp only [dispatch, redisAnswerAfter, hexempt, Bool.not_true, Bool.false_and, if_true,
      Bool.false_eq_true, if_false]
    exact ⟨trivial, hcounts⟩
  · have hkey : settings.limitOfKey (requestOf I networks settings a).key =
        settings.limit (settings.profile a) := settings.limitOfKey_bucketKey _ _
    have hlive := forall_checksOf (I := I) Arrival.reached (P := fun r =>
      KeyLives settings.rateLimitWindowSeconds r (requestOf I networks settings a)) hpast
    obtain ⟨hverdict, hnext⟩ := @RedisCounts.check keyPrefix settings.rateLimitWindowSeconds
      settings.limitOfKey _ _ _ hcounts hlive
    obtain ⟨hlimit, hreset⟩ := redisCheck_decision keyPrefix settings.rateLimitWindowSeconds
      settings.limitOfKey store (requestOf I networks settings a)
    have hcheck := redisCheck_congr keyPrefix settings.rateLimitWindowSeconds
      (fun _ => settings.limit (settings.profile a)) settings.limitOfKey store hkey.symm
    have hmade : made settings.rateLimitWindowSeconds
        (checksOf I networks settings Arrival.reached past) (requestOf I networks settings a).key
          (windowOf settings.rateLimitWindowSeconds (requestOf I networks settings a).now) =
        past.countP fun b => b.reached && isCountedWith I networks settings a b :=
      made_checksOf Arrival.reached past a
    rw [hkey] at hlimit
    rw [hkey, hmade] at hverdict
    simp only [hexempt, Bool.not_false, Bool.true_and, dispatch, redisAnswerAfter,
      Bool.false_eq_true, if_false, redisLimiter, hcheck]
    cases hbackend : a.backend with
    | replies =>
        simp only [Arrival.reached, hbackend, ne_eq, reduceCtorEq, not_false_eq_true, decide_true,
          if_true]
        refine ⟨?_, hnext⟩
        exact congrArg (respond settings a) (decision_eq hverdict hlimit hreset)
    | unreachable =>
        simp only [Arrival.reached, hbackend, ne_eq, not_true_eq_false, decide_false,
          Bool.false_eq_true, if_false, reduceCtorEq]
        exact ⟨trivial, hcounts⟩
    | replyLost =>
        simp only [Arrival.reached, hbackend, ne_eq, reduceCtorEq, not_false_eq_true, decide_true,
          if_true, if_false]
        exact ⟨trivial, hnext⟩

/-- While the keys of a window live as long as requests are made in it, and whatever calls of the
server fail, the middleware with the limiter in Redis answers from the requests that have reached
the server; a request whose call has failed does not pass, and no more requests of a bucket pass in
a window than its limit. -/
theorem dispatch_redis (I : IpTools α ν) (networks : List ν) (settings : Settings)
    (keyPrefix : String) {arrivals : List Arrival}
    (hlive : arrivals.Pairwise fun a b => KeyLives settings.rateLimitWindowSeconds
      (requestOf I networks settings a) (requestOf I networks settings b)) :
    let answers :=
      run (dispatch I networks settings (redisLimiter keyPrefix)) (fun _ => none) arrivals
    answers = answersAfter (redisAnswerAfter I networks settings) [] arrivals ∧
      ∀ profile i window,
        (answersTo (inBucket I networks settings profile i window) arrivals answers).countP
          Answer.isPassed ≤ (settings.limit profile).toNat := by
  intro answers
  have hanswers : answers = answersAfter (redisAnswerAfter I networks settings) [] arrivals :=
    run_eq_of_simulation (redisAnswerAfter I networks settings)
      (fun _ _ _ (hcounts : RedisCounts _ _ (checksOf I networks settings _ _) _) hpast =>
        redis_step hcounts hpast)
      (fun _ _ => .inl ⟨rfl, rfl⟩) (by simp) hlive
  refine ⟨hanswers, fun profile i window => ?_⟩
  rw [hanswers]
  refine countP_answersTo_le (n := (settings.limit profile).toNat)
    (fun b => b.reached && inBucket I networks settings profile i window b) ?_ [] arrivals
  intro past a ha hpassed
  have hbucket := ha
  simp only [inBucket, Bool.and_eq_true, Bool.not_eq_true', decide_eq_true_eq] at ha
  obtain ⟨⟨⟨hexempt, rfl⟩, rfl⟩, rfl⟩ := ha
  rw [redisAnswerAfter, hexempt, if_neg Bool.false_ne_true] at hpassed
  split at hpassed
  · next hreplies =>
      exact ⟨by simp [Arrival.reached, hreplies, hbucket], isPassed_respond hpassed⟩
  · cases hpassed

end

/-! ## Two clients -/

/-- One part of a dotted address. -/
def octet (part : Text) : Option ℕ :=
  if part ≠ [] ∧ part.length ≤ 3 ∧ part.all Char.isDigit ∧ (part.head? = some '0' → part = ['0']) ∧
      Nat.ofDigitChars 10 part 0 ≤ 255 then
    some (Nat.ofDigitChars 10 part 0)
  else none

/-- `ipaddress` on IPv4 addresses and networks of whole octets. -/
def ipv4Tools : IpTools (List ℕ) (List ℕ) where
  ipAddress text :=
    let parts := text.splitOn '.'
    if parts.length = 4 then parts.mapM octet else none
  compressed address := ['.'].intercalate (address.map fun n => n.repr.toList)
  contains network address := network.isPrefixOf address

/-- Windows of a minute with few requests. -/
def fewRequests : Settings where
  apiPrefix := str "/api"
  rateLimitEnabled := true
  rateLimitWindowSeconds := 60
  rateLimitAuthRequests := 1
  rateLimitExpensiveRequests := 2
  rateLimitDefaultRequests := 3

/-- A request for a login. -/
def login (client forwardedFor : Text) (now : ℚ) (backend : Backend := .replies) : Arrival where
  path := str "/api/auth/login"
  method := str "POST"
  client := some client
  forwardedFor := some forwardedFor
  requestId := none
  now := now
  server := now
  ttl := 30
  backend := backend

/-- A client that claims to be forwarded, twice, and one that a proxy forwards. -/
def twoClients : List Arrival :=
  [login (str "203.0.113.9") (str "198.51.100.7") 1, login (str "203.0.113.9") (str "192.0.2.1") 2,
    login (str "10.0.0.1") (str "198.51.100.7") 3]

theorem twoClients_clock : twoClients.Pairwise fun a b => a.now ≤ b.now := by
  unfold twoClients login
  norm_num

theorem dispatch_memory_twoClients :
    run (dispatch ipv4Tools [[10]] fewRequests memoryLimiter) ∅ twoClients =
      answersAfter (answerAfter ipv4Tools [[10]] fewRequests) [] twoClients :=
  dispatch_memory ipv4Tools [[10]] fewRequests twoClients_clock

theorem peer_isolated_twoClients :
    answersTo (fun a => identity ipv4Tools [[10]] a ≠ str "ip:" ++ str "203.0.113.9") twoClients
        (run (dispatch ipv4Tools [[10]] fewRequests memoryLimiter) ∅ twoClients) =
      run (dispatch ipv4Tools [[10]] fewRequests memoryLimiter) ∅
        (twoClients.filter fun a =>
          identity ipv4Tools [[10]] a ≠ str "ip:" ++ str "203.0.113.9") :=
  (peer_isolated ipv4Tools [[10]] fewRequests twoClients_clock (str "203.0.113.9") [203, 0, 113, 9]
    (by decide) (by decide)).2

/-- The reply to the first of two requests is lost: the second does not pass either. -/
theorem dispatch_redis_replyLost :
    let arrivals := [login (str "203.0.113.9") [] 1 .replyLost, login (str "203.0.113.9") [] 2]
    run (dispatch ipv4Tools [[10]] fewRequests (redisLimiter "odirag:ratelimit"))
        (fun _ => none) arrivals =
      answersAfter (redisAnswerAfter ipv4Tools [[10]] fewRequests) [] arrivals := by
  refine (dispatch_redis ipv4Tools [[10]] fewRequests "odirag:ratelimit" ?_).1
  simp only [List.pairwise_cons, List.mem_singleton, forall_eq, List.not_mem_nil, false_imp_iff,
    implies_true, List.Pairwise.nil, and_true]
  intro _
  simp only [requestOf, login, fewRequests, resetAfter, windowOf]
  norm_num

end Odirag.RateLimit
