import Odirag.Foundations.Parties
import Mathlib.Data.List.Count
import Mathlib.Order.Nat

/-!
# Token rotation

Reference: `backend/app/services/auth.py`, `bump_token_version` of
`backend/app/repositories/users.py`, `backend/app/security.py` and the logout route of
`backend/app/api/routes/auth.py`.

The tokens of one user carry the version that the user row had when they were issued. A call reads
the row and compares, increments the version that it has read in memory, and commits the result:
one step for each access to the database. A token is known by the place at which it was issued;
nobody else can sign one.
-/

namespace Odirag.Auth

/-- `TokenKind`. -/
inductive TokenKind
  | access | refresh
deriving DecidableEq, Repr

/-- The claims of a token that the checks read. -/
structure Token where
  kind : TokenKind
  version : ℕ
deriving DecidableEq, Repr

/-- The columns of a `users` row that the checks read. -/
structure User where
  isActive : Bool := true
  tokenVersion : ℕ := 0
deriving DecidableEq, Repr

/-- What has happened to a token, by its place. -/
inductive Event
  | issued (token : ℕ)
  /-- `get_active_user` has returned the user. -/
  | accepted (token : ℕ)
  /-- `refresh` has returned a new pair for the token. -/
  | exchanged (token : ℕ)
  /-- The commit of `revoke_tokens`. -/
  | loggedOut
deriving DecidableEq, Repr

/-- The row of the user and the tokens issued for it, oldest first; the newest event first. -/
structure AuthDb where
  user : User := {}
  tokens : List Token := []
  log : List Event := []
deriving DecidableEq, Repr

/-- What a call that presents a token does after the check. -/
inductive Service
  | refresh
  | logout
  /-- Any other authenticated request. -/
  | request
deriving DecidableEq, Repr

/-- The kind of token that a service accepts. -/
def Service.kind : Service → TokenKind
  | .refresh => .refresh
  | _ => .access

/-- A call, by the access to the database that it has made last. -/
inductive Call
  | idle
  /-- The check has passed, with the version that was read. -/
  | loaded (service : Service) (token version : ℕ)
  /-- The commit of `bump_token_version`. -/
  | committed (service : Service) (token : ℕ)
  | returned
  | raised
deriving DecidableEq, Repr

/-- The accesses to the database. -/
inductive Act
  /-- `authenticate`: it reads the row and issues a pair. -/
  | authenticate
  /-- `get_active_user`. -/
  | getActiveUser (service : Service) (token : ℕ)
  /-- The commit of `bump_token_version`. -/
  | commit
  /-- Its `session.refresh`; the pair of `refresh` is issued from what it reads. -/
  | reload
deriving DecidableEq, Repr

namespace AuthDb

/-- Append to the log. -/
def record (db : AuthDb) (event : Event) : AuthDb := { db with log := event :: db.log }

/-- `_issue_token_pair`. -/
def issueTokenPair (db : AuthDb) : AuthDb where
  user := db.user
  tokens := db.tokens ++
    [⟨.access, db.user.tokenVersion⟩, ⟨.refresh, db.user.tokenVersion⟩]
  log := .issued (db.tokens.length + 1) :: .issued db.tokens.length :: db.log

/-- The commit of the version that was computed in memory. -/
def bumpTokenVersion (loaded : ℕ) (db : AuthDb) : AuthDb :=
  { db with user := { db.user with tokenVersion := loaded + 1 } }

end AuthDb

/-- The next access of a call. -/
def Call.next (a : Act) (db : AuthDb) (call : Call) : Option (AuthDb × Call) :=
  match a, call with
  | .authenticate, .idle =>
      if db.user.isActive then some (db.issueTokenPair, .returned) else some (db, .raised)
  | .getActiveUser service t, .idle =>
      match db.tokens[t]? with
      | none => some (db, .raised)
      | some token =>
          if token.kind = service.kind ∧ db.user.isActive = true ∧
              db.user.tokenVersion = token.version then
            some (db.record (.accepted t),
              if service = .request then .returned
              else .loaded service t db.user.tokenVersion)
          else some (db, .raised)
  | .commit, .loaded service t version =>
      let db := db.bumpTokenVersion version
      some (if service = .logout then db.record .loggedOut else db, .committed service t)
  | .reload, .committed service t =>
      some (if service = .refresh then (db.record (.exchanged t)).issueTokenPair else db, .returned)
  | _, _ => none

variable {ι : Type*} [DecidableEq ι]

/-- Any number of calls of the user. -/
def calls (ι : Type*) : Parties ι AuthDb Call Act where
  next _ := Call.next

/-- The interleavings of the calls, before any token is issued. -/
def authSystem (ι : Type*) [DecidableEq ι] :
    System (Parties.State ι AuthDb Call) (ι × Act) :=
  (calls ι).system fun s => s.shared.tokens = [] ∧ s.shared.log = [] ∧ ∀ i, s.loc i = .idle

/-! ## What the rotation promises -/

/-- Each refresh token is exchanged for a new pair at most once. -/
def SpentOnce (log : List Event) : Prop := ∀ t, log.count (.exchanged t) ≤ 1

/-- The token was issued before a committed logout. -/
def IssuedBeforeLogout (log : List Event) (t : ℕ) : Prop :=
  ∃ later earlier, log = later ++ .loggedOut :: earlier ∧ .issued t ∈ earlier

/-- No token issued before a committed logout is accepted after it. -/
def LogoutRevokes (log : List Event) : Prop :=
  ∀ later earlier t, log = later ++ .accepted t :: earlier → ¬ IssuedBeforeLogout earlier t

/-- The commit finds the version that its call has read: no other commit came in between. -/
def CommitsUnchanged (s : Parties.State ι AuthDb Call) (l : ι × Act) : Prop :=
  l.2 = .commit → ∀ service t version, s.loc l.1 = .loaded service t version →
    s.shared.user.tokenVersion = version

section Log

variable {log : List Event} {event : Event} {t : ℕ}

theorem issuedBeforeLogout_cons :
    IssuedBeforeLogout (event :: log) t ↔
      (event = .loggedOut ∧ .issued t ∈ log) ∨ IssuedBeforeLogout log t := by
  constructor
  · rintro ⟨later, earlier, hlog, hissued⟩
    cases later with
    | nil =>
        obtain ⟨rfl, rfl⟩ := List.cons.inj hlog
        exact .inl ⟨rfl, hissued⟩
    | cons first later =>
        obtain ⟨rfl, rfl⟩ := List.cons.inj hlog
        exact .inr ⟨later, earlier, rfl, hissued⟩
  · rintro (⟨rfl, hissued⟩ | ⟨later, earlier, rfl, hissued⟩)
    · exact ⟨[], log, rfl, hissued⟩
    · exact ⟨event :: later, earlier, rfl, hissued⟩

theorem logoutRevokes_cons :
    LogoutRevokes (event :: log) ↔
      LogoutRevokes log ∧ ∀ t, event = .accepted t → ¬ IssuedBeforeLogout log t := by
  constructor
  · intro h
    refine ⟨fun later earlier t hlog => h (event :: later) earlier t (by rw [hlog]; rfl), ?_⟩
    rintro t rfl
    exact h [] log t rfl
  · rintro ⟨h, hnew⟩ later earlier t hlog
    cases later with
    | nil =>
        obtain ⟨rfl, rfl⟩ := List.cons.inj hlog
        exact hnew t rfl
    | cons first later =>
        obtain ⟨rfl, rfl⟩ := List.cons.inj hlog
        exact h later earlier t rfl

end Log

/-! ## The invariant -/

/-- The token is older than the stored version. -/
def Spent (db : AuthDb) (t : ℕ) : Prop :=
  ∃ token, db.tokens[t]? = some token ∧ token.version < db.user.tokenVersion

/-- Tokens are only added and the version only grows. -/
structure Grows (db db' : AuthDb) : Prop where
  tokens : db.tokens <+: db'.tokens
  version : db.user.tokenVersion ≤ db'.user.tokenVersion

theorem Grows.getElem? {db db' : AuthDb} (h : Grows db db') {t : ℕ} {token : Token}
    (ht : db.tokens[t]? = some token) : db'.tokens[t]? = some token := by
  obtain ⟨rest, hrest⟩ := h.tokens
  obtain ⟨hlt, -⟩ := List.getElem?_eq_some_iff.mp ht
  rw [← hrest, List.getElem?_append_left hlt, ht]

theorem Spent.mono {db db' : AuthDb} {t : ℕ} (h : Spent db t) (hgrows : Grows db db') :
    Spent db' t := by
  obtain ⟨token, ht, hlt⟩ := h
  exact ⟨token, hgrows.getElem? ht, lt_of_lt_of_le hlt hgrows.version⟩

/-- What holds of the row, the tokens and the log. -/
structure Rotated (db : AuthDb) : Prop where
  le : ∀ token ∈ db.tokens, token.version ≤ db.user.tokenVersion
  issued : ∀ t, .issued t ∈ db.log → t < db.tokens.length
  exchanged : ∀ t, .exchanged t ∈ db.log → Spent db t
  once : SpentOnce db.log
  revoked : ∀ t, IssuedBeforeLogout db.log t → Spent db t
  revokes : LogoutRevokes db.log

/-- What holds of a call. -/
def Call.Assertion (db : AuthDb) : Call → Prop
  | .loaded service t version => db.tokens[t]? = some ⟨service.kind, version⟩
  | .committed .refresh t => Spent db t ∧ .exchanged t ∉ db.log
  | _ => True

/-- What holds of all calls: no two of them are about to exchange one token. -/
structure Rotating (s : Parties.State ι AuthDb Call) : Prop where
  shared : Rotated s.shared
  loc : ∀ i, (s.loc i).Assertion s.shared
  apart : ∀ i j t, s.loc i = .committed .refresh t → s.loc j = .committed .refresh t → i = j

namespace Rotated

variable {db : AuthDb}

/-- A live token is accepted: no logout has revoked it. -/
theorem accept (h : Rotated db) {t : ℕ} {token : Token} (ht : db.tokens[t]? = some token)
    (hlive : db.user.tokenVersion = token.version) : Rotated (db.record (.accepted t)) where
  le := h.le
  issued := fun t' ht' => h.issued t' (by simpa [AuthDb.record] using ht')
  exchanged := fun t' ht' => h.exchanged t' (by simpa [AuthDb.record] using ht')
  once := fun t' => by simpa [AuthDb.record, List.count_cons] using h.once t'
  revoked := by
    intro t' ht'
    rcases issuedBeforeLogout_cons.mp ht' with ⟨hevent, -⟩ | ht'
    · cases hevent
    · exact h.revoked t' ht'
  revokes := by
    refine logoutRevokes_cons.mpr ⟨h.revokes, ?_⟩
    rintro t' heq hbefore
    cases heq
    obtain ⟨token', ht', hlt⟩ := h.revoked t hbefore
    rw [ht] at ht'
    cases ht'
    omega

/-- A new pair carries the stored version. -/
theorem issueTokenPair (h : Rotated db) : Rotated db.issueTokenPair := by
  have hgrows : Grows db db.issueTokenPair := ⟨List.prefix_append _ _, le_rfl⟩
  refine ⟨?_, ?_, ?_, ?_, ?_, ?_⟩
  · intro token hmem
    simp only [AuthDb.issueTokenPair, List.mem_append, List.mem_cons, List.not_mem_nil,
      or_false] at hmem
    rcases hmem with hmem | rfl | rfl
    · exact h.le token hmem
    · exact le_rfl
    · exact le_rfl
  · intro t ht
    simp only [AuthDb.issueTokenPair, List.mem_cons, Event.issued.injEq] at ht
    simp only [AuthDb.issueTokenPair, List.length_append, List.length_cons, List.length_nil]
    rcases ht with rfl | rfl | ht
    · omega
    · omega
    · have hlt := h.issued t ht
      omega
  · intro t ht
    exact (h.exchanged t (by simpa [AuthDb.issueTokenPair] using ht)).mono hgrows
  · intro t
    simpa [AuthDb.issueTokenPair, List.count_cons] using h.once t
  · intro t ht
    refine (h.revoked t ?_).mono hgrows
    simpa [AuthDb.issueTokenPair, issuedBeforeLogout_cons] using ht
  · simpa [AuthDb.issueTokenPair, logoutRevokes_cons] using h.revokes

/-- A commit of the next version makes every token old. -/
theorem bumpTokenVersion (h : Rotated db) :
    Rotated (db.bumpTokenVersion db.user.tokenVersion) := by
  have hgrows : Grows db (db.bumpTokenVersion db.user.tokenVersion) :=
    ⟨List.prefix_rfl, Nat.le_succ _⟩
  exact ⟨fun token hmem => (h.le token hmem).trans hgrows.version, h.issued,
    fun t ht => (h.exchanged t ht).mono hgrows, h.once,
    fun t ht => (h.revoked t ht).mono hgrows, h.revokes⟩

/-- After a commit of the next version every issued token is old. -/
theorem spent_of_issued (h : Rotated db) {t : ℕ} (ht : .issued t ∈ db.log) :
    Spent (db.bumpTokenVersion db.user.tokenVersion) t := by
  have hlt := h.issued t ht
  refine ⟨db.tokens[t], List.getElem?_eq_getElem hlt, ?_⟩
  have hle := h.le db.tokens[t] (List.getElem_mem hlt)
  change db.tokens[t].version < db.user.tokenVersion + 1
  omega

/-- The commit of a logout revokes every issued token. -/
theorem logout (h : Rotated db) :
    Rotated ((db.bumpTokenVersion db.user.tokenVersion).record .loggedOut) where
  le := h.bumpTokenVersion.le
  issued := fun t ht => h.bumpTokenVersion.issued t (by simpa [AuthDb.record] using ht)
  exchanged := fun t ht => h.bumpTokenVersion.exchanged t (by simpa [AuthDb.record] using ht)
  once := fun t => by
    simpa [AuthDb.record, AuthDb.bumpTokenVersion, List.count_cons] using h.once t
  revoked := by
    intro t ht
    rcases issuedBeforeLogout_cons.mp ht with ⟨-, hissued⟩ | ht
    · exact h.spent_of_issued hissued
    · exact h.bumpTokenVersion.revoked t ht
  revokes := logoutRevokes_cons.mpr ⟨h.revokes, fun t heq => by cases heq⟩

/-- An old token that was not exchanged before is exchanged. -/
theorem exchange (h : Rotated db) {t : ℕ} (hspent : Spent db t) (hfirst : .exchanged t ∉ db.log) :
    Rotated (db.record (.exchanged t)) where
  le := h.le
  issued := fun t' ht' => h.issued t' (by simpa [AuthDb.record] using ht')
  exchanged := by
    intro t' ht'
    rcases List.mem_cons.mp ht' with heq | ht'
    · cases heq
      exact hspent
    · exact h.exchanged t' ht'
  once := by
    intro t'
    by_cases heq : t' = t
    · subst heq
      simp [AuthDb.record, List.count_eq_zero.mpr hfirst]
    · have hne : Event.exchanged t ≠ .exchanged t' := fun he => heq (Event.exchanged.inj he).symm
      simpa [AuthDb.record, List.count_cons_of_ne hne] using h.once t'
  revoked := by
    intro t' ht'
    rcases issuedBeforeLogout_cons.mp ht' with ⟨hevent, -⟩ | ht'
    · cases hevent
    · exact h.revoked t' ht'
  revokes := logoutRevokes_cons.mpr ⟨h.revokes, fun t' heq => by cases heq⟩

end Rotated

/-! ## One access -/

/-- What an access does to the row, the tokens and the log. -/
theorem Call.next_cases {a : Act} {db db' : AuthDb} {call call' : Call}
    (h : Call.next a db call = some (db', call')) :
    (db' = db ∧ (call' = .returned ∨ call' = .raised)) ∨
      (a = .authenticate ∧ db' = db.issueTokenPair ∧ call' = .returned) ∨
      (∃ service t token, a = .getActiveUser service t ∧ db.tokens[t]? = some token ∧
        token.kind = service.kind ∧ db.user.tokenVersion = token.version ∧
        db' = db.record (.accepted t) ∧
        (call' = .returned ∨ call' = .loaded service t db.user.tokenVersion)) ∨
      (∃ service t version, a = .commit ∧ call = .loaded service t version ∧
        call' = .committed service t ∧
        db' = if service = .logout then (db.bumpTokenVersion version).record .loggedOut
          else db.bumpTokenVersion version) ∨
      (∃ t, a = .reload ∧ call = .committed .refresh t ∧ call' = .returned ∧
        db' = (db.record (.exchanged t)).issueTokenPair) := by
  -- The branches in the order of `Call.next`.
  unfold Call.next at h
  split at h
  · split at h
    · cases h
      exact .inr (.inl ⟨rfl, rfl, rfl⟩)
    · cases h
      exact .inl ⟨rfl, .inr rfl⟩
  · next service t =>
      split at h
      · cases h
        exact .inl ⟨rfl, .inr rfl⟩
      · next token htoken =>
          split at h
          · next hlive =>
              cases h
              refine .inr (.inr (.inl ⟨service, t, token, rfl, htoken, hlive.1, hlive.2.2, rfl, ?_⟩))
              split
              · exact .inl rfl
              · exact .inr rfl
          · cases h
            exact .inl ⟨rfl, .inr rfl⟩
  · next service t version =>
      cases h
      exact .inr (.inr (.inr (.inl ⟨service, t, version, rfl, rfl, rfl, rfl⟩)))
  · next service t =>
      cases h
      by_cases hservice : service = .refresh
      · subst hservice
        exact .inr (.inr (.inr (.inr ⟨t, rfl, rfl, rfl, by simp⟩)))
      · exact .inl ⟨by simp [hservice], .inl rfl⟩
  · cases h

/-- A step of one call keeps what holds of the calls, if the others are not disturbed. -/
theorem Rotating.update {s : Parties.State ι AuthDb Call} (h : Rotating s) {i : ι} {db : AuthDb}
    {call : Call} (hshared : Rotated db) (hgrows : Grows s.shared db)
    (hown : call.Assertion db)
    (hothers : ∀ j, j ≠ i → ∀ t, s.loc j = .committed .refresh t → .exchanged t ∉ db.log)
    (hapart : ∀ t, call = .committed .refresh t →
      ∀ j, j ≠ i → s.loc j ≠ .committed .refresh t) :
    Rotating ⟨db, Function.update s.loc i call⟩ where
  shared := hshared
  loc := by
    intro j
    by_cases hj : j = i
    · subst hj
      simpa using hown
    · show (Function.update s.loc i call j).Assertion db
      rw [Function.update_of_ne hj]
      -- The database only grows, so that what another call has loaded is still there.
      have hassertion := h.loc j
      cases hcall : s.loc j with
      | loaded service t version =>
          rw [hcall] at hassertion
          exact hgrows.getElem? hassertion
      | committed service t =>
          cases service with
          | refresh =>
              rw [hcall] at hassertion
              exact ⟨hassertion.1.mono hgrows, hothers j hj t hcall⟩
          | logout => trivial
          | request => trivial
      | idle => trivial
      | returned => trivial
      | raised => trivial
  apart := by
    intro j k t hj hk
    dsimp only at hj hk
    by_cases hji : j = i
    · by_cases hki : k = i
      · rw [hji, hki]
      · rw [hji, Function.update_self] at hj
        rw [Function.update_of_ne hki] at hk
        exact absurd hk (hapart t hj k hki)
    · rw [Function.update_of_ne hji] at hj
      by_cases hki : k = i
      · rw [hki, Function.update_self] at hk
        exact absurd hj (hapart t hk j hji)
      · rw [Function.update_of_ne hki] at hk
        exact h.apart j k t hj hk

/-- A commit that finds the version it has read keeps what holds of the calls. -/
theorem Rotating.commit {s : Parties.State ι AuthDb Call} (h : Rotating s) {i : ι}
    {service : Service} {t : ℕ}
    (hcall : s.loc i = .loaded service t s.shared.user.tokenVersion) :
    Rotating ⟨if service = .logout then
        (s.shared.bumpTokenVersion s.shared.user.tokenVersion).record .loggedOut
      else s.shared.bumpTokenVersion s.shared.user.tokenVersion,
      Function.update s.loc i (.committed service t)⟩ := by
  have htoken : s.shared.tokens[t]? = some ⟨service.kind, s.shared.user.tokenVersion⟩ := by
    have hassertion := h.loc i
    rwa [hcall] at hassertion
  have hgrows : Grows s.shared (s.shared.bumpTokenVersion s.shared.user.tokenVersion) :=
    ⟨List.prefix_rfl, Nat.le_succ _⟩
  -- The token that is presented is of the stored version, so it was not spent before.
  have hlive : ¬ Spent s.shared t := by
    rintro ⟨token, ht, hlt⟩
    rw [htoken] at ht
    cases ht
    exact lt_irrefl _ hlt
  have hothers : ∀ j, j ≠ i → ∀ t', s.loc j = .committed .refresh t' →
      .exchanged t' ∉ s.shared.log := by
    intro j _ t' hj
    have hassertion := h.loc j
    rw [hj] at hassertion
    exact hassertion.2
  by_cases hlogout : service = .logout
  · rw [if_pos hlogout]
    subst hlogout
    refine h.update h.shared.logout ⟨hgrows.tokens, hgrows.version⟩ trivial ?_ ?_
    · intro j hj t' hcommitted hmem
      exact hothers j hj t' hcommitted (by simpa [AuthDb.record, AuthDb.bumpTokenVersion] using hmem)
    · intro t' heq
      cases heq
  · rw [if_neg hlogout]
    refine h.update h.shared.bumpTokenVersion hgrows ?_ hothers ?_
    · cases service with
      | refresh =>
          refine ⟨⟨_, htoken, Nat.lt_succ_self _⟩, fun hmem => ?_⟩
          exact hlive (h.shared.exchanged t hmem)
      | logout => trivial
      | request => trivial
    · intro t' heq j _ hj
      cases heq
      have hassertion := h.loc j
      rw [hj] at hassertion
      exact hlive hassertion.1

/-- Every access keeps what holds of the calls, if a commit finds the version it has read. -/
theorem Rotating.step {s s' : Parties.State ι AuthDb Call} {l : ι × Act} (h : Rotating s)
    (hok : CommitsUnchanged s l) (hstep : (authSystem ι).step s l s') : Rotating s' := by
  obtain ⟨i, a⟩ := l
  obtain ⟨db, call, hnext, rfl⟩ := Parties.step_iff.mp hstep
  -- A refresh that is committed has not been exchanged yet.
  have hothers : ∀ j, j ≠ i → ∀ t, s.loc j = .committed .refresh t →
      .exchanged t ∉ s.shared.log := by
    intro j _ t hj
    have hassertion := h.loc j
    rw [hj] at hassertion
    exact hassertion.2
  rcases Call.next_cases hnext with ⟨rfl, hended⟩ | ⟨-, rfl, rfl⟩ |
    ⟨service, t, token, -, htoken, hkind, hlive, rfl, hcall⟩ |
    ⟨service, t, version, rfl, hloaded, rfl, rfl⟩ | ⟨t, -, hcommitted, rfl, rfl⟩
  · refine h.update h.shared ⟨List.prefix_rfl, le_rfl⟩ ?_ hothers ?_
    · rcases hended with rfl | rfl <;> trivial
    · intro t heq
      rcases hended with rfl | rfl <;> cases heq
  · refine h.update h.shared.issueTokenPair ⟨List.prefix_append _ _, le_rfl⟩ trivial ?_ ?_
    · intro j hj t hcommitted hmem
      exact hothers j hj t hcommitted (by simpa [AuthDb.issueTokenPair] using hmem)
    · intro t heq
      cases heq
  · refine h.update (h.shared.accept htoken hlive) ⟨List.prefix_rfl, le_rfl⟩ ?_ ?_ ?_
    · rcases hcall with rfl | rfl
      · trivial
      · show s.shared.tokens[t]? = some ⟨service.kind, s.shared.user.tokenVersion⟩
        rw [htoken, hlive, ← hkind]
    · intro j hj t' hcommitted hmem
      exact hothers j hj t' hcommitted (by simpa [AuthDb.record] using hmem)
    · intro t' heq
      rcases hcall with rfl | rfl <;> cases heq
  -- Only here the hypothesis on commits is needed.
  · obtain rfl := hok rfl service t version hloaded
    exact h.commit hloaded
  · have hassertion := h.loc i
    rw [hcommitted] at hassertion
    refine h.update (h.shared.exchange hassertion.1 hassertion.2).issueTokenPair
      ⟨List.prefix_append _ _, le_rfl⟩ trivial ?_ ?_
    · intro j hj t' hother hmem
      simp only [AuthDb.issueTokenPair, AuthDb.record, List.mem_cons, reduceCtorEq, false_or,
        Event.exchanged.injEq] at hmem
      rcases hmem with rfl | hmem
      -- Two calls cannot both be about to exchange one token.
      · exact hj (h.apart j i t' hother hcommitted)
      · exact hothers j hj t' hother hmem
    · intro t' heq
      cases heq

/-! ## Runs -/

/-- In every interleaving in which each commit finds the version that its call has read, a refresh
token is exchanged at most once and a committed logout revokes the tokens issued before it. -/
theorem refresh_token_spent_once {tr : List (Parties.State ι AuthDb Call × (ι × Act))}
    {s : Parties.State ι AuthDb Call}
    (h : (authSystem ι).Run (fun _ s l _ => CommitsUnchanged s l) tr s) :
    SpentOnce s.shared.log ∧ LogoutRevokes s.shared.log := by
  have hrotating : Rotating s := by
    refine h.invariant (I := fun _ s => Rotating s) ?_ ?_
    · rintro s ⟨htokens, hlog, hidle⟩
      refine ⟨⟨?_, ?_, ?_, ?_, ?_, ?_⟩, fun i => ?_, fun i j t hi => ?_⟩
      · simp [htokens]
      · simp [hlog]
      · simp [hlog]
      · simp [SpentOnce, hlog]
      · simp [IssuedBeforeLogout, hlog]
      · simp [LogoutRevokes, hlog]
      · rw [hidle i]
        trivial
      · rw [hidle i] at hi
        cases hi
    · exact fun tr s l s' _ hrotating hok hstep => hrotating.step hok hstep
  exact ⟨hrotating.shared.once, hrotating.shared.revokes⟩

/-- No token has been issued and no call has started. -/
def noCalls : Parties.State ℕ AuthDb Call := ⟨{}, fun _ => .idle⟩

/-- A login, a refresh of its token and a logout with the new one, one after another. -/
def sampleCalls : List (ℕ × Act) :=
  [(0, .authenticate), (1, .getActiveUser .refresh 1), (1, .commit), (1, .reload),
    (2, .getActiveUser .logout 2), (2, .commit)]

/-- The calls one after another spend the token once and revoke what was issued. -/
theorem refresh_token_spent_once_sequential :
    ∃ tr s, (authSystem ℕ).Run (fun _ s l _ => CommitsUnchanged s l) tr s ∧
      s.shared.log.count (.exchanged 1) = 1 ∧ s.shared.user.tokenVersion = 2 ∧
      SpentOnce s.shared.log ∧ LogoutRevokes s.shared.log := by
  obtain ⟨s, hs⟩ := Option.isSome_iff_exists.mp
    (by decide : ((calls ℕ).exec noCalls sampleCalls).isSome = true)
  have hcheck : ((calls ℕ).exec noCalls sampleCalls).map (fun s =>
      (s.shared.log.count (.exchanged 1), s.shared.user.tokenVersion)) = some (1, 2) := by
    decide
  rw [hs] at hcheck
  obtain ⟨hcount, hversion⟩ := Prod.mk.inj (Option.some.inj hcheck)
  have hcommits : ((calls ℕ).traceOf noCalls sampleCalls).all (fun e =>
      match e.2.2, e.1.loc e.2.1 with
      | .commit, .loaded _ _ version => e.1.shared.user.tokenVersion == version
      | _, _ => true) = true := by
    decide
  have hrun : (authSystem ℕ).Run (fun _ s l _ => CommitsUnchanged s l)
      ((calls ℕ).traceOf noCalls sampleCalls) s := by
    refine ⟨noCalls, ⟨rfl, rfl, fun _ => rfl⟩, System.exec_path_of hs ?_⟩
    intro e he hcommit service t version hloaded
    have hcommitted := List.all_eq_true.mp hcommits e he
    rw [hcommit, hloaded] at hcommitted
    simpa using hcommitted
  exact ⟨_, s, hrun, hcount, hversion, refresh_token_spent_once hrun⟩

/-- Two calls read the row before either commits: both return a new pair for one token. -/
theorem refresh_token_spent_twice :
    ∃ tr s, (authSystem ℕ).Run System.always tr s ∧
      ¬ (SpentOnce s.shared.log ∧ LogoutRevokes s.shared.log) := by
  let sched : List (ℕ × Act) :=
    [(0, .authenticate), (1, .getActiveUser .refresh 1), (2, .getActiveUser .refresh 1),
      (1, .commit), (1, .reload), (2, .commit), (2, .reload)]
  obtain ⟨s, hs⟩ := Option.isSome_iff_exists.mp
    (by decide : ((calls ℕ).exec noCalls sched).isSome = true)
  have hcheck : ((calls ℕ).exec noCalls sched).map (fun s =>
      s.shared.log.count (.exchanged 1)) = some 2 := by
    decide
  rw [hs] at hcheck
  have hcount : s.shared.log.count (.exchanged 1) = 2 := Option.some.inj hcheck
  refine ⟨_, s, ⟨noCalls, ⟨rfl, rfl, fun _ => rfl⟩, System.exec_path hs⟩, ?_⟩
  rintro ⟨honce, -⟩
  have hle := honce 1
  omega

end Odirag.Auth
