import Odirag.Foundations.FixedWindow
import Mathlib.Algebra.Order.Field.Rat
import Mathlib.Data.List.AList
import Mathlib.Data.Rat.Floor
import Mathlib.Logic.Function.Basic
import Mathlib.Tactic.NormNum

/-!
# The two rate limiters

Reference: `InMemoryFixedWindowRateLimiter` and `RedisFixedWindowRateLimiter` of
`backend/app/rate_limit.py`.

The first keeps a dictionary with one entry for each key, stops counting at the limit and throws
old entries out when there are more than 10,000; the second keeps one expiring counter for each
key and window and counts on. Both are shown to answer like `FixedWindow.verdicts`
(`memory_verdicts`, `redis_verdicts`), hence to agree on every request.

The clock is read as an exact number. A check is one step: the in-memory limiter holds its lock
without awaiting anything, and Redis runs a script atomically.
-/

namespace Odirag.RateLimit

open FixedWindow

/-- `RateLimitDecision`. -/
structure RateLimitDecision where
  allowed : Bool
  limit : ℤ
  remaining : ℤ
  resetAfterSeconds : ℤ
deriving DecidableEq, Repr

/-- What a caller sees of the count. -/
def RateLimitDecision.verdict (d : RateLimitDecision) : Verdict := ⟨d.allowed, d.remaining⟩

/-- `int(now // window_seconds)`. -/
def windowOf (windowSeconds : ℕ) (now : ℚ) : ℤ := ⌊now / windowSeconds⌋

/-- `max(1, math.ceil(((window + 1) * window_seconds) - now))`. -/
def resetAfter (windowSeconds : ℕ) (now : ℚ) : ℤ :=
  max 1 ⌈((windowOf windowSeconds now + 1) * windowSeconds : ℚ) - now⌉

/-- One call of `check`: the key, the limiter's clock, and for Redis the server's clock and the
time to live that the script reports. -/
structure Request where
  key : String
  now : ℚ
  server : ℚ
  ttl : ℤ

/-- The key and the window of a request. -/
def Request.arrival (windowSeconds : ℕ) (r : Request) : String × ℤ :=
  (r.key, windowOf windowSeconds r.now)

/-- Time does not take a request back to an earlier window. -/
theorem windowOf_mono (windowSeconds : ℕ) {now now' : ℚ} (h : now ≤ now') :
    windowOf windowSeconds now ≤ windowOf windowSeconds now' :=
  Int.floor_le_floor (div_le_div_of_nonneg_right h (Nat.cast_nonneg windowSeconds))

/-! ## In memory -/

/-- `_entries`: for each key the window and the count last stored. -/
abbrev Entries := AList fun _ : String => ℤ × ℕ

/-- The entries of one window. -/
def entriesOf (window : ℤ) (entries : Entries) : Entries where
  entries := entries.entries.filter fun e => e.2.1 = window
  nodupKeys := entries.nodupKeys.sublist List.filter_sublist

/-- `InMemoryFixedWindowRateLimiter.check`. -/
def memoryCheck (windowSeconds : ℕ) (limit : String → ℤ) (entries : Entries) (r : Request) :
    RateLimitDecision × Entries :=
  let window := windowOf windowSeconds r.now
  let resetAfter := resetAfter windowSeconds r.now
  let stored := (entries.lookup r.key).getD (window, 0)
  let count := if stored.1 ≠ window then 0 else stored.2
  if limit r.key ≤ count then (⟨false, limit r.key, 0, resetAfter⟩, entries)
  else
    let entries := entries.insert r.key (window, count + 1)
    let entries := if 10000 < entries.entries.length then entriesOf window entries else entries
    (⟨true, limit r.key, max 0 (limit r.key - (count + 1)), resetAfter⟩, entries)

/-- The count that is stored for a key and a window. -/
def countOf (entries : Entries) (key : String) (window : ℤ) : ℕ :=
  match entries.lookup key with
  | none => 0
  | some (stored, count) => if stored = window then count else 0

@[simp] theorem countOf_empty (key : String) (window : ℤ) : countOf ∅ key window = 0 := rfl

theorem countOf_insert (entries : Entries) (key key' : String) (window window' : ℤ) (n : ℕ) :
    countOf (entries.insert key (window, n)) key' window' =
      if key' = key then (if window = window' then n else 0) else countOf entries key' window' := by
  unfold countOf
  by_cases h : key' = key
  · subst h
    simp
  · simp [h, AList.lookup_insert_ne h]

theorem lookup_entriesOf {entries : Entries} {window : ℤ} {key : String} {e : ℤ × ℕ} :
    (entriesOf window entries).lookup key = some e ↔ entries.lookup key = some e ∧ e.1 = window := by
  rw [← Option.mem_def, ← Option.mem_def, AList.mem_lookup_iff, AList.mem_lookup_iff]
  simp [entriesOf]

/-- Throwing out the entries of other windows keeps the counts of this window, and those that are
zero. -/
theorem countOf_entriesOf {entries : Entries} {window window' : ℤ} {key : String}
    (h : window' = window ∨ countOf entries key window' = 0) :
    countOf (entriesOf window entries) key window' = countOf entries key window' := by
  unfold countOf at h ⊢
  cases hkept : (entriesOf window entries).lookup key with
  | some e => rw [(lookup_entriesOf.mp hkept).1]
  | none =>
      cases hlookup : entries.lookup key with
      | none => rfl
      | some e =>
          have hother : e.1 ≠ window := fun heq => by
            rw [lookup_entriesOf.mpr ⟨hlookup, heq⟩] at hkept
            cases hkept
          rw [hlookup] at h
          rcases h with rfl | h
          · simp [hother]
          · exact h.symm

/-- `check` reads the count of the current window. -/
theorem memoryCheck_eq (windowSeconds : ℕ) (limit : String → ℤ) (entries : Entries) (r : Request) :
    memoryCheck windowSeconds limit entries r =
      let window := windowOf windowSeconds r.now
      let count := countOf entries r.key window
      if limit r.key ≤ count then
        (⟨false, limit r.key, 0, resetAfter windowSeconds r.now⟩, entries)
      else
        let entries := entries.insert r.key (window, count + 1)
        (⟨true, limit r.key, max 0 (limit r.key - (count + 1)), resetAfter windowSeconds r.now⟩,
          if 10000 < entries.entries.length then entriesOf window entries else entries) := by
  unfold memoryCheck countOf
  cases entries.lookup r.key with
  | none => simp
  | some e =>
      by_cases h : e.1 = windowOf windowSeconds r.now
      · simp [h]
      · simp [h]

section Memory

variable {windowSeconds : ℕ} {limit : String → ℤ} {past : List Request} {entries : Entries}
  {r : Request}

/-- How many requests of a key there were in a window. -/
def made (windowSeconds : ℕ) (past : List Request) (key : String) (window : ℤ) : ℕ :=
  (past.map (Request.arrival windowSeconds)).count (key, window)

@[simp] theorem made_nil (key : String) (window : ℤ) : made windowSeconds [] key window = 0 := rfl

theorem made_cons (key : String) (window : ℤ) :
    made windowSeconds (r :: past) key window =
      made windowSeconds past key window +
        if key = r.key ∧ window = windowOf windowSeconds r.now then 1 else 0 := by
  unfold made
  rw [List.map_cons, List.count_cons]
  congr 1
  by_cases h : key = r.key ∧ window = windowOf windowSeconds r.now
  · obtain ⟨rfl, rfl⟩ := h
    simp [Request.arrival]
  · rw [if_neg h, if_neg]
    intro heq
    have hsame : r.arrival windowSeconds = (key, window) := by simpa using heq
    exact h ⟨(congrArg Prod.fst hsame).symm, (congrArg Prod.snd hsame).symm⟩

/-- A window that is later than all requests has none. -/
theorem made_of_later {key : String} {window : ℤ}
    (h : ∀ r ∈ past, windowOf windowSeconds r.now < window) :
    made windowSeconds past key window = 0 := by
  unfold made
  rw [List.count_eq_zero]
  intro hmem
  obtain ⟨r, hr, heq⟩ := List.mem_map.mp hmem
  have hlt := h r hr
  rw [show windowOf windowSeconds r.now = window from congrArg Prod.snd heq] at hlt
  exact lt_irrefl _ hlt

/-- For every window that is not over, the number of requests up to the limit is stored. -/
def MemoryCounts (windowSeconds : ℕ) (limit : String → ℤ) (past : List Request)
    (entries : Entries) : Prop :=
  ∀ key window, (∀ r ∈ past, windowOf windowSeconds r.now ≤ window) →
    countOf entries key window = min (limit key).toNat (made windowSeconds past key window)

/-- A request over the limit is not counted, and need not be. -/
theorem MemoryCounts.refuse (h : MemoryCounts windowSeconds limit past entries)
    (hfull : (limit r.key).toNat ≤ made windowSeconds past r.key (windowOf windowSeconds r.now)) :
    MemoryCounts windowSeconds limit (r :: past) entries := by
  intro key window hall
  rw [h key window fun r' hr' => hall r' (List.mem_cons_of_mem _ hr'), made_cons]
  split
  · next hsame =>
      obtain ⟨rfl, rfl⟩ := hsame
      omega
  · rfl

/-- A request below the limit is counted. -/
theorem MemoryCounts.allow (h : MemoryCounts windowSeconds limit past entries)
    (hpast : ∀ r' ∈ past, windowOf windowSeconds r'.now ≤ windowOf windowSeconds r.now)
    {n : ℕ} (hn : made windowSeconds past r.key (windowOf windowSeconds r.now) = n)
    (hfree : n < (limit r.key).toNat) :
    MemoryCounts windowSeconds limit (r :: past)
      (entries.insert r.key (windowOf windowSeconds r.now, n + 1)) := by
  intro key window hall
  have hold := h key window fun r' hr' => hall r' (List.mem_cons_of_mem _ hr')
  rw [countOf_insert, made_cons]
  by_cases hkey : key = r.key
  · subst hkey
    by_cases hw : windowOf windowSeconds r.now = window
    · subst hw
      rw [hn]
      simp only [and_self, if_true]
      omega
    · have hlater : windowOf windowSeconds r.now < window :=
        lt_of_le_of_ne (hall r List.mem_cons_self) hw
      rw [made_of_later fun r' hr' => lt_of_le_of_lt (hpast r' hr') hlater]
      simp [hw, Ne.symm hw]
  · simp [hkey, hold]

/-- Throwing out the entries of the windows that are over loses no count. -/
theorem MemoryCounts.entriesOf (h : MemoryCounts windowSeconds limit (r :: past) entries)
    (hpast : ∀ r' ∈ past, windowOf windowSeconds r'.now ≤ windowOf windowSeconds r.now) :
    MemoryCounts windowSeconds limit (r :: past)
      (entriesOf (windowOf windowSeconds r.now) entries) := by
  intro key window hall
  rw [countOf_entriesOf, h key window hall]
  rcases (hall r List.mem_cons_self).eq_or_lt with heq | hlater
  · exact .inl heq.symm
  · right
    rw [h key window hall, made_of_later]
    · simp
    · intro r' hr'
      rcases List.mem_cons.mp hr' with rfl | hr'
      · exact hlater
      · exact lt_of_le_of_lt (hpast r' hr') hlater

/-- One check answers from the number of requests made and counts its own. -/
theorem MemoryCounts.check (h : MemoryCounts windowSeconds limit past entries)
    (hpast : ∀ r' ∈ past, r'.now ≤ r.now) :
    (memoryCheck windowSeconds limit entries r).1.verdict =
        verdict (limit r.key) (made windowSeconds past r.key (windowOf windowSeconds r.now)) ∧
      MemoryCounts windowSeconds limit (r :: past)
        (memoryCheck windowSeconds limit entries r).2 := by
  have hwindows : ∀ r' ∈ past, windowOf windowSeconds r'.now ≤ windowOf windowSeconds r.now :=
    fun r' hr' => windowOf_mono windowSeconds (hpast r' hr')
  have hcount := h r.key (windowOf windowSeconds r.now) hwindows
  rw [memoryCheck_eq]
  simp only [hcount]
  generalize hn : made windowSeconds past r.key (windowOf windowSeconds r.now) = n
  split
  · next hfull =>
      have hle : (limit r.key).toNat ≤ n := by omega
      have hnot : ¬ (n : ℤ) < limit r.key := by omega
      exact ⟨by simp [RateLimitDecision.verdict, verdict, hnot], h.refuse (hn ▸ hle)⟩
  · next hfree =>
      have hlt : (n : ℤ) < limit r.key := by omega
      have hmin : min (limit r.key).toNat n = n := by omega
      rw [hmin]
      have hallow := h.allow hwindows hn (by omega)
      refine ⟨?_, ?_⟩
      · simp only [RateLimitDecision.verdict, verdict, hlt, if_true]
        congr 1
        omega
      · split
        · exact hallow.entriesOf hwindows
        · exact hallow

/-- `InMemoryFixedWindowRateLimiter` is a fixed window while its clock does not go back. -/
theorem memory_verdicts (windowSeconds : ℕ) (limit : String → ℤ) {requests : List Request}
    (hclock : requests.Pairwise fun r r' => r.now ≤ r'.now) :
    (run (memoryCheck windowSeconds limit) ∅ requests).map RateLimitDecision.verdict =
      verdicts limit (requests.map (Request.arrival windowSeconds)) :=
  verdicts_eq_of_simulation _ _ limit
    (fun _ _ _ (hcounts : MemoryCounts windowSeconds limit _ _) hpast => hcounts.check hpast)
    (fun _ _ _ => by simp) hclock

end Memory

/-! ## Redis -/

/-- A counter of the server and the time at which it expires. -/
structure Counter where
  count : ℕ
  deadline : Option ℚ

/-- The counters of the server. -/
abbrev Store := String → Option Counter

/-- The counter of a key, if it has not expired. -/
def Store.live (store : Store) (server : ℚ) (key : String) : Option Counter :=
  (store key).filter fun c => c.deadline.all (server < ·)

/-- `INCR`: a counter that does not exist starts at zero and does not expire. -/
def incr (store : Store) (server : ℚ) (key : String) : Counter :=
  match store.live server key with
  | none => ⟨1, none⟩
  | some c => { c with count := c.count + 1 }

/-- `_FIXED_WINDOW_SCRIPT` with its key and its argument, in the order in which Redis runs it. -/
def fixedWindowScript (store : Store) (server : ℚ) (key : String) (seconds : ℤ) : ℕ × Store :=
  let counter := incr store server key
  let counter :=
    if counter.count = 1 then { counter with deadline := some (server + seconds) } else counter
  (counter.count, Function.update store key (some counter))

/-- `f"{key_prefix}:{window_seconds}:{window}:{key}"`. -/
def redisKey (keyPrefix : String) (windowSeconds : ℕ) (window : ℤ) (key : String) : String :=
  keyPrefix ++ ":" ++ Nat.repr windowSeconds ++ ":" ++ Int.repr window ++ ":" ++ key

/-- `RedisFixedWindowRateLimiter.check`. -/
def redisCheck (keyPrefix : String) (windowSeconds : ℕ) (limit : String → ℤ) (store : Store)
    (r : Request) : RateLimitDecision × Store :=
  let window := windowOf windowSeconds r.now
  let seconds := resetAfter windowSeconds r.now
  let (count, store) :=
    fixedWindowScript store r.server (redisKey keyPrefix windowSeconds window r.key) seconds
  let resetAfter := if 0 < r.ttl then r.ttl else seconds
  if limit r.key < count then (⟨false, limit r.key, 0, resetAfter⟩, store)
  else (⟨true, limit r.key, max 0 (limit r.key - count), resetAfter⟩, store)

/-- A key that the earlier request created lives while requests are made in its window. -/
def KeyLives (windowSeconds : ℕ) (r r' : Request) : Prop :=
  windowOf windowSeconds r.now = windowOf windowSeconds r'.now →
    r'.server < r.server + resetAfter windowSeconds r.now

/-- The digits of a number, and a sign. -/
theorem colon_notMem_repr (z : ℤ) : ':' ∉ (Int.repr z).toList := by
  have hnat : ∀ n : ℕ, ':' ∉ n.repr.toList := fun n hmem => by
    rw [Nat.toList_repr] at hmem
    exact absurd (Nat.isDigit_of_mem_toDigits (by decide) (by decide) hmem) (by decide)
  rw [Int.repr_eq_if]
  split
  · exact hnat _
  · simpa using hnat _

theorem nat_repr_injective {m n : ℕ} (h : m.repr.toList = n.repr.toList) : m = n := by
  rw [Nat.toList_repr, Nat.toList_repr] at h
  calc m = Nat.ofDigitChars 10 (Nat.toDigits 10 m) 0 :=
        (Nat.ofDigitChars_toDigits (by decide) (by decide)).symm
    _ = n := by rw [h, Nat.ofDigitChars_toDigits (by decide) (by decide)]

theorem int_repr_injective {y z : ℤ} (h : (Int.repr y).toList = (Int.repr z).toList) : y = z := by
  have hsign : ∀ (m : ℕ) (cs : List Char), m.repr.toList ≠ '-' :: cs := fun m cs heq => by
    have hmem : '-' ∈ m.repr.toList := heq ▸ List.mem_cons_self
    rw [Nat.toList_repr] at hmem
    exact absurd (Nat.isDigit_of_mem_toDigits (by decide) (by decide) hmem) (by decide)
  rw [Int.repr_eq_if, Int.repr_eq_if] at h
  split at h <;> split at h
  · have := nat_repr_injective h
    omega
  · exact absurd (by simpa using h) (hsign _ _)
  · exact absurd (by simpa using h.symm) (hsign _ _)
  · have := nat_repr_injective (by simpa using h)
    omega

/-- Different keys, and different windows, have different counters. -/
theorem redisKey_inj {keyPrefix : String} {windowSeconds : ℕ} {window window' : ℤ}
    {key key' : String}
    (h : redisKey keyPrefix windowSeconds window key =
      redisKey keyPrefix windowSeconds window' key') :
    window = window' ∧ key = key' := by
  have hlist := congrArg String.toList h
  simp only [redisKey, String.toList_append, List.append_assoc, List.append_cancel_left_eq] at hlist
  have hcolon : ":".toList = [':'] := rfl
  rw [hcolon, List.singleton_append, List.singleton_append] at hlist
  -- The window ends at the first colon.
  have hends : ∀ (z : ℤ) (rest : List Char),
      ((Int.repr z).toList ++ ':' :: rest).takeWhile (· ≠ ':') = (Int.repr z).toList := by
    intro z rest
    rw [List.takeWhile_append_of_pos]
    · simp
    · intro c hc
      simpa using fun heq : c = ':' => colon_notMem_repr z (heq ▸ hc)
  have hrepr : (Int.repr window).toList = (Int.repr window').toList := by
    rw [← hends window key.toList, hlist, hends]
  have hwindow := int_repr_injective hrepr
  subst hwindow
  have hkey : key.toList = key'.toList := by simpa using hlist
  exact ⟨rfl, String.toList_inj.mp hkey⟩

section Redis

variable {keyPrefix : String} {windowSeconds : ℕ} {limit : String → ℤ} {past : List Request}
  {store : Store} {r : Request}

/-- Each key and window has a counter of its requests, which one of them has created. -/
def RedisCounts (keyPrefix : String) (windowSeconds : ℕ) (past : List Request) (store : Store) :
    Prop :=
  ∀ key window,
    (made windowSeconds past key window = 0 ∧
      store (redisKey keyPrefix windowSeconds window key) = none) ∨
    ∃ first ∈ past, windowOf windowSeconds first.now = window ∧
      store (redisKey keyPrefix windowSeconds window key) =
        some ⟨made windowSeconds past key window,
          some (first.server + resetAfter windowSeconds first.now)⟩ ∧
      0 < made windowSeconds past key window

/-- The script counts one request more. -/
theorem RedisCounts.incr (h : RedisCounts keyPrefix windowSeconds past store)
    (hlive : ∀ r' ∈ past, KeyLives windowSeconds r' r) :
    ∃ first ∈ r :: past, windowOf windowSeconds first.now = windowOf windowSeconds r.now ∧
      fixedWindowScript store r.server
          (redisKey keyPrefix windowSeconds (windowOf windowSeconds r.now) r.key)
          (resetAfter windowSeconds r.now) =
        (made windowSeconds past r.key (windowOf windowSeconds r.now) + 1,
          Function.update store
            (redisKey keyPrefix windowSeconds (windowOf windowSeconds r.now) r.key)
            (some ⟨made windowSeconds past r.key (windowOf windowSeconds r.now) + 1,
              some (first.server + resetAfter windowSeconds first.now)⟩)) := by
  rcases h r.key (windowOf windowSeconds r.now) with ⟨hzero, hnone⟩ | ⟨first, hmem, hw, hsome, hpos⟩
  · refine ⟨r, List.mem_cons_self, rfl, ?_⟩
    simp [fixedWindowScript, RateLimit.incr, Store.live, hnone, hzero]
  · refine ⟨first, List.mem_cons_of_mem _ hmem, hw, ?_⟩
    have halive := hlive first hmem hw
    have hcounter : store.live r.server
        (redisKey keyPrefix windowSeconds (windowOf windowSeconds r.now) r.key) =
          some ⟨made windowSeconds past r.key (windowOf windowSeconds r.now),
            some (first.server + resetAfter windowSeconds first.now)⟩ := by
      unfold Store.live
      rw [hsome, Option.filter_some, if_pos]
      simpa using halive
    have hne : made windowSeconds past r.key (windowOf windowSeconds r.now) ≠ 0 := by omega
    simp [fixedWindowScript, RateLimit.incr, hcounter, hne]

/-- One check answers from the number of requests made and counts its own. -/
theorem RedisCounts.check (h : RedisCounts keyPrefix windowSeconds past store)
    (hlive : ∀ r' ∈ past, KeyLives windowSeconds r' r) :
    (redisCheck keyPrefix windowSeconds limit store r).1.verdict =
        verdict (limit r.key) (made windowSeconds past r.key (windowOf windowSeconds r.now)) ∧
      RedisCounts keyPrefix windowSeconds (r :: past)
        (redisCheck keyPrefix windowSeconds limit store r).2 := by
  obtain ⟨first, hmem, hw, hscript⟩ := h.incr hlive
  generalize hn : made windowSeconds past r.key (windowOf windowSeconds r.now) = n at hscript
  have hstore : (redisCheck keyPrefix windowSeconds limit store r).2 =
      Function.update store
        (redisKey keyPrefix windowSeconds (windowOf windowSeconds r.now) r.key)
        (some ⟨n + 1, some (first.server + resetAfter windowSeconds first.now)⟩) := by
    simp only [redisCheck, hscript]
    split <;> rfl
  refine ⟨?_, fun key window => ?_⟩
  · simp only [redisCheck, hscript]
    by_cases hlt : (n : ℤ) < limit r.key
    · have hnot : ¬ limit r.key < ((n + 1 : ℕ) : ℤ) := by omega
      simp only [hnot, if_false, RateLimitDecision.verdict, verdict, hlt, if_true]
      congr 1
      omega
    · have hover : limit r.key < ((n + 1 : ℕ) : ℤ) := by omega
      simp only [hover, if_true, RateLimitDecision.verdict, verdict, hlt, if_false]
  · rw [hstore, made_cons]
    by_cases hsame : key = r.key ∧ window = windowOf windowSeconds r.now
    · obtain ⟨rfl, rfl⟩ := hsame
      right
      exact ⟨first, hmem, hw, by simp [hn], by simp⟩
    · rw [Function.update_of_ne fun heq => hsame ⟨(redisKey_inj heq).2, (redisKey_inj heq).1⟩,
        if_neg hsame, Nat.add_zero]
      rcases h key window with hnone | ⟨first, hmem, hrest⟩
      · exact .inl hnone
      · exact .inr ⟨first, List.mem_cons_of_mem _ hmem, hrest⟩

/-- `RedisFixedWindowRateLimiter` is a fixed window while its keys live. -/
theorem redis_verdicts (keyPrefix : String) (windowSeconds : ℕ) (limit : String → ℤ)
    {requests : List Request} (hlive : requests.Pairwise (KeyLives windowSeconds)) :
    (run (redisCheck keyPrefix windowSeconds limit) (fun _ => none) requests).map
        RateLimitDecision.verdict =
      verdicts limit (requests.map (Request.arrival windowSeconds)) :=
  verdicts_eq_of_simulation _ _ limit
    (fun _ _ _ (hcounts : RedisCounts keyPrefix windowSeconds _ _) hpast => hcounts.check hpast)
    (fun _ _ => .inl ⟨rfl, rfl⟩) hlive

end Redis

/-! ## Both -/

/-- Whether each request of a key in a window was allowed. -/
def allowedOf (windowSeconds : ℕ) (key : String) (window : ℤ) (requests : List Request)
    (decisions : List RateLimitDecision) : List Bool :=
  (answersTo (fun r => decide (Request.arrival windowSeconds r = (key, window))) requests
    decisions).map RateLimitDecision.allowed

/-- What a fixed window lets through. -/
theorem allowedOf_eq {windowSeconds : ℕ} {limit : String → ℤ} {requests : List Request}
    {decisions : List RateLimitDecision}
    (h : decisions.map RateLimitDecision.verdict =
      verdicts limit (requests.map (Request.arrival windowSeconds))) (key : String) (window : ℤ) :
    allowedOf windowSeconds key window requests decisions =
      firstAllowed (limit key) (made windowSeconds requests key window) := by
  have hof := verdicts_of limit (key, window) (requests.map (Request.arrival windowSeconds))
  rw [← h, answersTo_map, List.map_map] at hof
  exact hof

/-- Over any number of keys, while the clock does not go back and the keys of a window live as long
as requests are made in it, both limiters allow exactly the first requests of each key and window
and report the same number of remaining ones. -/
theorem limiters_exact (windowSeconds : ℕ) (limit : String → ℤ) (keyPrefix : String)
    {requests : List Request} (hclock : requests.Pairwise fun r r' => r.now ≤ r'.now)
    (hlive : requests.Pairwise (KeyLives windowSeconds)) :
    let memory := run (memoryCheck windowSeconds limit) ∅ requests
    let redis := run (redisCheck keyPrefix windowSeconds limit) (fun _ => none) requests
    (∀ key window,
      allowedOf windowSeconds key window requests memory =
          firstAllowed (limit key) (made windowSeconds requests key window) ∧
        allowedOf windowSeconds key window requests redis =
          firstAllowed (limit key) (made windowSeconds requests key window)) ∧
      memory.map RateLimitDecision.remaining = redis.map RateLimitDecision.remaining := by
  intro memory redis
  have hmemory := memory_verdicts windowSeconds limit hclock
  have hredis := redis_verdicts keyPrefix windowSeconds limit hlive
  refine ⟨fun key window => ⟨allowedOf_eq hmemory key window, allowedOf_eq hredis key window⟩, ?_⟩
  have hsame : memory.map RateLimitDecision.verdict = redis.map RateLimitDecision.verdict :=
    hmemory.trans hredis.symm
  simpa [Function.comp_def, RateLimitDecision.verdict] using
    congrArg (List.map Verdict.remaining) hsame

/-- Three requests of one key in one window, one of another key between them, and one in the next
window. -/
def fiveRequests : List Request :=
  [⟨"default:ip:a", 1, 1, 59⟩, ⟨"default:ip:b", 2, 2, 58⟩, ⟨"default:ip:a", 3, 3, 57⟩,
    ⟨"default:ip:a", 58, 58, 2⟩, ⟨"default:ip:a", 61, 61, 59⟩]

theorem limiters_exact_fiveRequests :
    allowedOf 60 "default:ip:a" 0 fiveRequests (run (memoryCheck 60 fun _ => 2) ∅ fiveRequests) =
        firstAllowed 2 (made 60 fiveRequests "default:ip:a" 0) ∧
      (run (memoryCheck 60 fun _ => 2) ∅ fiveRequests).map RateLimitDecision.remaining =
        (run (redisCheck "odirag:ratelimit" 60 fun _ => 2) (fun _ => none) fiveRequests).map
          RateLimitDecision.remaining := by
  have hclock : fiveRequests.Pairwise fun r r' => r.now ≤ r'.now := by
    unfold fiveRequests
    norm_num
  have hlive : fiveRequests.Pairwise (KeyLives 60) := by
    unfold fiveRequests KeyLives resetAfter windowOf
    norm_num
  obtain ⟨hallowed, hremaining⟩ := limiters_exact 60 (fun _ => 2) "odirag:ratelimit" hclock hlive
  exact ⟨(hallowed "default:ip:a" 0).1, hremaining⟩

end Odirag.RateLimit
