import Odirag.Discovery.Candidate
import Odirag.Foundations.Orm

/-!
# The source discovery service

Reference: `SourceDiscoveryService` of `backend/app/services/source_discovery.py`, with
`backend/app/repositories/source_discovery.py`.

The calls of the service on one run, statement by statement. A session is one call; it takes one
step for each read and for each commit, and every step may raise instead of going through. A
conditional update and the commit right after it are one step, since nobody else can write the row
in between. The run is an ORM object: a commit writes the columns that were assigned since it was
read. An execution works on the row of its candidate directly. The uses of these sessions are the
parties of `Claim` and `Approval`, where calls interleave, and the histories of `Waiting` and
`Counters`, where one call follows another.
-/

namespace Odirag.Discovery

open Crawler (NetTools)

/-! ## The database -/

/-- One run, its candidates and the sources made of them. -/
structure Db where
  run : SourceDiscoveryRun
  candidates : List SourceCandidate := []
  sources : List Source := []

namespace Db

/-- `get_candidate`. -/
def candidate? (db : Db) (id : ℕ) : Option SourceCandidate :=
  db.candidates.find? fun c => c.id = id

/-- `get_candidate_by_url`. -/
def candidateByUrl (db : Db) (url : Text) : Option SourceCandidate :=
  db.candidates.find? fun c => c.canonicalHomepageUrl = url

/-- Change the candidates that meet a condition. -/
def update (db : Db) (p : SourceCandidate → Bool) (f : SourceCandidate → SourceCandidate) : Db :=
  { db with candidates := db.candidates.map fun c => if p c then f c else c }

/-- Change the candidate with an id. -/
def modify (db : Db) (id : ℕ) (f : SourceCandidate → SourceCandidate) : Db :=
  db.update (fun c => c.id = id) f

/-- The number of rows that meet a condition. -/
def rowcount (db : Db) (p : SourceCandidate → Bool) : ℕ := db.candidates.countP p

/-- `save_run`: write the columns that were assigned. -/
def saveRun (db : Db) (run : Held SourceDiscoveryRun) : Db :=
  { db with run := {
      status := column run.loaded.status run.current.status db.run.status
      maxCandidates := column run.loaded.maxCandidates run.current.maxCandidates
        db.run.maxCandidates
      candidateCount := column run.loaded.candidateCount run.current.candidateCount
        db.run.candidateCount
      approvedCount := column run.loaded.approvedCount run.current.approvedCount
        db.run.approvedCount
      activatedCount := column run.loaded.activatedCount run.current.activatedCount
        db.run.activatedCount
      attemptCount := column run.loaded.attemptCount run.current.attemptCount db.run.attemptCount
      errorMessage := column run.loaded.errorMessage run.current.errorMessage
        db.run.errorMessage } }

/-- The counts of `refresh_run_counts`. -/
def counts (db : Db) (run : SourceDiscoveryRun) : SourceDiscoveryRun :=
  { run with
    candidateCount := db.candidates.length
    approvedCount := db.rowcount fun c => c.status = .approved || c.status = .activated
    activatedCount := db.rowcount fun c => c.status = .activated }

@[simp] theorem update_run (db : Db) (p : SourceCandidate → Bool)
    (f : SourceCandidate → SourceCandidate) : (db.update p f).run = db.run := rfl

@[simp] theorem update_sources (db : Db) (p : SourceCandidate → Bool)
    (f : SourceCandidate → SourceCandidate) : (db.update p f).sources = db.sources := rfl

@[simp] theorem modify_run (db : Db) (id : ℕ) (f : SourceCandidate → SourceCandidate) :
    (db.modify id f).run = db.run := rfl

@[simp] theorem modify_sources (db : Db) (id : ℕ) (f : SourceCandidate → SourceCandidate) :
    (db.modify id f).sources = db.sources := rfl

@[simp] theorem saveRun_candidates (db : Db) (run : Held SourceDiscoveryRun) :
    (db.saveRun run).candidates = db.candidates := rfl

@[simp] theorem saveRun_sources (db : Db) (run : Held SourceDiscoveryRun) :
    (db.saveRun run).sources = db.sources := rfl

/-- Saving an object that holds the stored row stores the object. -/
theorem saveRun_fresh {db : Db} {run : Held SourceDiscoveryRun} (h : run.loaded = db.run) :
    (db.saveRun run).run = run.current := by
  unfold saveRun
  rw [h]
  simp only [column_fresh]

theorem mem_update {db : Db} {p : SourceCandidate → Bool} {f : SourceCandidate → SourceCandidate}
    {c' : SourceCandidate} :
    c' ∈ (db.update p f).candidates ↔
      ∃ c ∈ db.candidates, (if p c then f c else c) = c' := List.mem_map

/-- A row with the id that was changed is a changed row. -/
theorem mem_modify {db : Db} {id : ℕ} {f : SourceCandidate → SourceCandidate}
    {c' : SourceCandidate} (h : c' ∈ (db.modify id f).candidates) (hid : c'.id = id) :
    ∃ c ∈ db.candidates, c.id = id ∧ f c = c' := by
  obtain ⟨c, hc, rfl⟩ := mem_update.mp h
  by_cases hcid : c.id = id
  · exact ⟨c, hc, hcid, by simp [hcid]⟩
  · simp [hcid] at hid

/-- What an update does to a count, if all the rows that it changes are counted alike before, and
alike afterwards. -/
theorem rowcount_update {db : Db} {p q : SourceCandidate → Bool}
    {f : SourceCandidate → SourceCandidate} {before after : Bool}
    (h : ∀ c ∈ db.candidates, p c → q c = before ∧ q (f c) = after) :
    (db.update p f).rowcount q + (if before then db.rowcount p else 0)
      = db.rowcount q + (if after then db.rowcount p else 0) := by
  unfold update rowcount
  dsimp only
  generalize db.candidates = rows at h ⊢
  induction rows with
  | nil => simp
  | cons c rest ih =>
      have hrest := ih fun c' hc' => h c' (List.mem_cons_of_mem _ hc')
      have hc := h c List.mem_cons_self
      simp only [List.map_cons, List.countP_cons]
      by_cases hp : p c
      · obtain ⟨hbefore, hafter⟩ := hc hp
        simp only [hp, if_true, hbefore, hafter]
        cases before <;> cases after <;> simp at hrest ⊢ <;> omega
      · simp only [hp, Bool.false_eq_true, if_false, Nat.add_zero]
        omega

/-- An update that leaves the counted rows alone leaves the count alone. -/
theorem rowcount_update_same {db : Db} {p q : SourceCandidate → Bool}
    {f : SourceCandidate → SourceCandidate} (h : ∀ c ∈ db.candidates, p c → q (f c) = q c) :
    (db.update p f).rowcount q = db.rowcount q := by
  unfold update rowcount
  rw [List.countP_map]
  refine List.countP_congr fun c hc => ?_
  simp only [Function.comp_apply]
  split
  · next hp => rw [h c hc hp]
  · rfl

/-- At most one row has an id. -/
theorem rowcount_le_one {db : Db} (hids : (db.candidates.map (·.id)).Nodup) (id : ℕ)
    {p : SourceCandidate → Bool} (hp : ∀ c, p c → c.id = id) : db.rowcount p ≤ 1 := by
  have hcount : db.rowcount p ≤ (db.candidates.map (·.id)).count id := by
    rw [List.count, List.countP_map]
    exact List.countP_mono_left fun c _ hc => by simp [hp c hc]
  exact hcount.trans (List.nodup_iff_count_le_one.mp hids id)

/-- An update of one row that finds none changes nothing. -/
theorem update_of_rowcount_ne {db : Db} (hids : (db.candidates.map (·.id)).Nodup) (id : ℕ)
    {p : SourceCandidate → Bool} (hp : ∀ c, p c → c.id = id) (h : db.rowcount p ≠ 1)
    (f : SourceCandidate → SourceCandidate) : (db.update p f).candidates = db.candidates := by
  have hnone : db.rowcount p = 0 := by
    have hle := rowcount_le_one hids id hp
    omega
  unfold update
  refine (List.map_congr_left fun c hc => ?_).trans (List.map_id _)
  exact if_neg (List.countP_eq_zero.mp hnone c hc)

/-- A row is the only one with its id. -/
theorem rowcount_id {db : Db} (hids : (db.candidates.map (·.id)).Nodup) {c : SourceCandidate}
    (hc : c ∈ db.candidates) : db.rowcount (fun c' => c'.id = c.id) = 1 := by
  have hle : db.rowcount (fun c' => c'.id = c.id) ≤ 1 :=
    rowcount_le_one hids c.id (by simp)
  have hpos : 0 < db.rowcount (fun c' => c'.id = c.id) :=
    List.countP_pos_iff.mpr ⟨c, hc, by simp⟩
  omega

theorem candidate?_some {db : Db} {id : ℕ} {c : SourceCandidate} (h : db.candidate? id = some c) :
    c ∈ db.candidates ∧ c.id = id :=
  ⟨List.mem_of_find?_eq_some h, by simpa using List.find?_some h⟩

end Db

/-! ## Sessions -/

/-- The calls; the reason of a rejection is stripped, and empty where there is none. -/
inductive Call
  | retry
  | execute
  | queueFailure (errorType : String)
  | approve (id : ℕ) (reviewer : String)
  | reject (id : ℕ) (reviewer reason : String)
  | activate (id : ℕ)
deriving DecidableEq

/-- A result of the search provider: what `normalize_url` makes of its URL, if it accepts it. -/
structure Hit where
  homepage : Option Text
  domain : Text
  name : Text

/-- The loop of `execute` over the results. `created` is no variable of the source: it records
whether this execution has stored a new candidate. -/
structure Loop where
  hits : List Hit
  seen : List Text := []
  processed : ℕ := 0
  attempt : ℕ
  maxCandidates : ℕ
  created : Bool := false

/-- Where `_process_candidate` is. -/
inductive Stage
  | validate
  | discover
  | trial (index : ℕ)
  | trialFailing (index : ℕ) (error : String)
  | score
  | failing (error : String)

/-- A conditional update of a candidate that somebody asked for. -/
inductive Decision
  | approve (id : ℕ) (reviewer : String)
  | reject (id : ℕ) (reviewer reason : String)
deriving DecidableEq

/-- What the counts are refreshed for. A decision remembers the status that was read before it,
which only the statements about counters look at. -/
inductive Purpose
  | decision (d : Decision) (previous : CandidateStatus)
  | activation (source : Source)
  | execution (L : Loop)

/-- A call and how far it has come. The flag `late` says that the changes of the call were committed
before the exception, `created` is that of the loop; the source has no such variables. -/
inductive Session
  | call (c : Call)
  | requeueing (run : Held SourceDiscoveryRun)
  | requeued
  | marking (run : Held SourceDiscoveryRun)
  | claimedRun
  | searching (attempt maxCandidates : ℕ)
  | looping (L : Loop)
  | storing (L : Loop) (hit : Hit) (url : Text) (found : Option ℕ)
  | processing (L : Loop) (id : ℕ) (stage : Stage)
  | deciding (d : Decision) (previous : CandidateStatus)
  | claiming (id : ℕ)
  | claimed (id : ℕ)
  | inspecting (id : ℕ)
  | flushing (source : Source)
  | recounting (p : Purpose)
  | counting (p : Purpose) (run : Held SourceDiscoveryRun)
  | listing (L : Loop) (run : Held SourceDiscoveryRun)
  | saving (p : Purpose) (run : Held SourceDiscoveryRun)
  | saved (p : Purpose)
  | undoing (id : ℕ) (reason : String) (late : Bool)
  | failing (id : ℕ) (reason : String) (late : Bool)
  | rescuing (created late : Bool) (error : String)
  | failingRun (created late : Bool) (run : Held SourceDiscoveryRun)
  | returned

/-- What happens at a step: it goes through, possibly with something from outside, or it raises. -/
inductive Act
  | go
  | fail (error : String)
  | search (hits : List Hit)
  | store (id : ℕ)
  | homepage (fetched : Except String Homepage)
  | columns (hits : List ColumnHit)
  | trial (found : Trial)

/-! ## Steps -/

/-- Where an exception goes while the counts are refreshed or saved. -/
def raised (p : Purpose) (error : String) (late : Bool) : Session :=
  match p with
  | .decision _ _ => .returned
  | .activation source => .undoing source.candidateId error late
  | .execution L => .rescuing L.created late error

/-- The condition of the update of a decision. -/
def Decision.applies : Decision → SourceCandidate → Bool
  | .approve id _, c => c.id = id && c.status = .pendingApproval
  | .reject id _ _, c => c.id = id && (c.status = .pendingApproval || c.status = .approved)

/-- The values of the update of a decision. -/
def Decision.change : Decision → SourceCandidate → SourceCandidate
  | .approve _ reviewer, c => approved reviewer c
  | .reject _ reviewer reason, c => rejected reviewer reason c

/-- The end of an execution: is there a candidate to approve? -/
def concluded (db : Db) (processed : ℕ) (run : SourceDiscoveryRun) : SourceDiscoveryRun :=
  if db.candidates.any fun c => c.status = .pendingApproval then
    { run with status := .awaitingApproval }
  else if processed ≠ 0 then
    { run with
      status := .failed
      errorMessage := some "No candidate passed official validation and quality scoring." }
  else
    { run with
      status := .failed
      errorMessage := some "Candidate discovery returned no usable URLs." }

/-- The commit after the counts were refreshed. -/
def commit (p : Purpose) (run : Held SourceDiscoveryRun) (db : Db) : Db :=
  match p with
  | .activation source =>
      let db := db.modify source.candidateId (activated db.sources.length)
      { db.saveRun run with sources := db.sources ++ [source] }
  | _ => db.saveRun run

/-- The next result of the search, or the end of the loop. -/
def nextHit (db : Db) (L : Loop) : Session :=
  match L.hits with
  | [] => .recounting (.execution L)
  | hit :: rest =>
      if L.maxCandidates ≤ L.processed then .recounting (.execution L)
      else
        match hit.homepage with
        | none => .looping { L with hits := rest }
        | some url =>
            if url ∈ L.seen then .looping { L with hits := rest }
            else
              let L := { L with hits := rest, seen := url :: L.seen }
              match db.candidateByUrl url with
              | none => .storing L hit url none
              | some c =>
                  if 1 < L.attempt ∧
                      c.status ∈ [CandidateStatus.validationFailed, .rejected, .failed] then
                    .storing L hit url (some c.id)
                  else .looping L

/-- The trial crawl after the one of column `index`, or the scoring. -/
def nextTrial (db : Db) (id index : ℕ) : Stage :=
  match db.candidate? id with
  | some c => if index + 1 < c.columns.length then .trial (index + 1) else .score
  | none => .score

section

variable (N : NetTools) (settings : Settings)

/-- A step of `_process_candidate`. -/
def process (a : Act) (db : Db) (L : Loop) (id : ℕ) : Stage → Option (Db × Session)
  | .validate =>
      match a with
      | .homepage (.error error) => some (db.modify id (homepageFailed error), .looping L)
      | .homepage (.ok response) =>
          match db.candidate? id with
          | none => none
          | some c =>
              match officialCheck N settings c.canonicalHomepageUrl response with
              | none => some (db, .processing L id (.failing "ValueError"))
              | some check =>
                  some (db.modify id (validated response check),
                    if check.verified then .processing L id .discover else .looping L)
      | .fail error => some (db, .processing L id (.failing error))
      | _ => none
  | .discover =>
      match a with
      | .columns hits =>
          let columns := discoveredColumns settings hits
          some (db.modify id (withColumns columns),
            if columns = [] then .looping L else .processing L id (.trial 0))
      | .fail error => some (db, .processing L id (.failing error))
      | _ => none
  | .trial index =>
      match a with
      | .trial found =>
          some (db.modify id fun c =>
              { c with columns := c.columns.modify index (trialCrawled settings found) },
            .processing L id (nextTrial db id index))
      | .fail error => some (db, .processing L id (.trialFailing index error))
      | _ => none
  | .trialFailing index error =>
      match a with
      | .go =>
          some (db.modify id fun c =>
              { c with columns := c.columns.modify index (trialFailed error) },
            .processing L id (nextTrial db id index))
      | .fail error => some (db, .processing L id (.failing error))
      | _ => none
  | .score =>
      match a with
      | .go => some (db.modify id (scored settings), .looping L)
      | .fail error => some (db, .processing L id (.failing error))
      | _ => none
  | .failing error =>
      match a with
      | .go => some (db.modify id (processingFailed error), .looping L)
      | .fail error => some (db, .rescuing L.created false error)
      | _ => none

/-- The first statement of a call. -/
def begin (db : Db) : Call → Db × Session
  | .retry =>
      if db.run.status = .failed then
        (db, .requeueing ((Held.fresh db.run).assign fun run =>
          { run with status := .pending, errorMessage := none }))
      else (db, .returned)
  | .execute =>
      if db.run.status = .pending then
        ({ db with run := { db.run with
            status := .running
            errorMessage := none
            attemptCount := db.run.attemptCount + 1 } }, .claimedRun)
      else (db, .returned)
  | .queueFailure errorType =>
      if db.run.status = .pending then
        (db, .marking ((Held.fresh db.run).assign fun run =>
          { run with
            status := .failed
            errorMessage := some ("QUEUE_UNAVAILABLE:" ++ errorType) }))
      else (db, .returned)
  | .approve id reviewer =>
      match db.candidate? id with
      | none => (db, .returned)
      | some c =>
          if c.status = .pendingApproval then (db, .deciding (.approve id reviewer) c.status)
          else (db, .returned)
  | .reject id reviewer reason =>
      if reason = "" then (db, .returned)
      else
        match db.candidate? id with
        | none => (db, .returned)
        | some c =>
            if c.status = .activated then (db, .returned)
            else (db, .deciding (.reject id reviewer reason) c.status)
  | .activate id =>
      match db.candidate? id with
      | none => (db, .returned)
      | some c => if c.status = .activated then (db, .returned) else (db, .claiming id)

/-- The condition of `claim_candidate_activation`. -/
def claimable (id : ℕ) (c : SourceCandidate) : Bool := c.id = id && c.status = .approved

/-- One step of a session. -/
def next (a : Act) (db : Db) : Session → Option (Db × Session)
  | .call c =>
      match a with
      | .go => some (begin db c)
      | .fail _ => some (db, .returned)
      | _ => none
  | .requeueing run =>
      match a with
      | .go => some (db.saveRun run, .requeued)
      | .fail _ => some (db, .returned)
      | _ => none
  | .requeued =>
      match a with
      | .go | .fail _ => some (db, .returned)
      | _ => none
  | .marking run =>
      match a with
      | .go => some (db.saveRun run, .returned)
      | .fail _ => some (db, .returned)
      | _ => none
  | .claimedRun =>
      match a with
      | .go => some (db, .searching db.run.attemptCount db.run.maxCandidates)
      | .fail _ => some (db, .returned)
      | _ => none
  | .searching attempt maxCandidates =>
      match a with
      | .search hits =>
          some (db, .looping { hits := hits, attempt := attempt, maxCandidates := maxCandidates })
      | .fail error => some (db, .rescuing false false error)
      | _ => none
  | .looping L =>
      match a with
      | .go => some (db, nextHit db L)
      | .fail error => some (db, .rescuing L.created false error)
      | _ => none
  | .storing L hit url none =>
      match a with
      | .store id =>
          if (db.candidate? id).isSome then none
          -- the unique constraint on the URL
          else if (db.candidateByUrl url).isSome then some (db, .looping L)
          else
            some ({ db with candidates := db.candidates ++
                [{ id := id
                   canonicalHomepageUrl := url
                   domain := hit.domain
                   name := hit.name }] },
              .processing { L with processed := L.processed + 1, created := true } id .validate)
      | .fail error => some (db, .rescuing L.created false error)
      | _ => none
  | .storing L _ _ (some id) =>
      match a with
      | .go =>
          some (db.modify id resetForRetry,
            .processing { L with processed := L.processed + 1 } id .validate)
      | .fail error => some (db, .rescuing L.created false error)
      | _ => none
  | .processing L id stage => process N settings a db L id stage
  | .deciding d previous =>
      match a with
      | .go =>
          some (db.update d.applies d.change,
            if db.rowcount d.applies = 1 then .recounting (.decision d previous) else .returned)
      | .fail _ => some (db, .returned)
      | _ => none
  | .claiming id =>
      match a with
      | .go =>
          some (db.update (claimable id) activating,
            if db.rowcount (claimable id) = 1 then .claimed id else .returned)
      | .fail _ => some (db, .returned)
      | _ => none
  | .claimed id =>
      match a with
      | .go => some (db, .inspecting id)
      | .fail _ => some (db, .returned)
      | _ => none
  | .inspecting id =>
      match a with
      | .go =>
          match db.candidate? id with
          | none => none
          | some c =>
              if (sourceOf c).columns = [] then
                some (db, .undoing id "SOURCE_ACTIVATION_FAILED" false)
              else some (db, .flushing (sourceOf c))
      | .fail error => some (db, .undoing id error false)
      | _ => none
  | .flushing source =>
      match a with
      | .go =>
          -- the unique constraint on the key
          if db.sources.any fun s => s.candidateId = source.candidateId then
            some (db, .undoing source.candidateId "SOURCE_KEY_CONFLICT" false)
          else some (db, .recounting (.activation source))
      | .fail error => some (db, .undoing source.candidateId error false)
      | _ => none
  | .recounting p =>
      match a with
      | .go => some (db, .counting p (.fresh db.run))
      | .fail error => some (db, raised p error false)
      | _ => none
  | .counting p run =>
      match a with
      | .go =>
          let run := run.assign db.counts
          match p with
          | .decision _ _ => some (db, .saving p run)
          | .activation _ =>
              some (db, .saving p (run.assign fun run => { run with status := .activated }))
          | .execution L => some (db, .listing L run)
      | .fail error => some (db, raised p error false)
      | _ => none
  | .listing L run =>
      match a with
      | .go => some (db, .saving (.execution L) (run.assign (concluded db L.processed)))
      | .fail error => some (db, raised (.execution L) error false)
      | _ => none
  | .saving p run =>
      match a with
      | .go => some (commit p run db, .saved p)
      | .fail error => some (db, raised p error false)
      | _ => none
  | .saved p =>
      match a with
      | .go => some (db, .returned)
      | .fail error => some (db, raised p error true)
      | _ => none
  | .undoing id reason late =>
      match a with
      | .go =>
          some (db, if (db.candidate? id).isSome then .failing id reason late else .returned)
      | .fail _ => some (db, .returned)
      | _ => none
  | .failing id reason _ =>
      match a with
      | .go => some (db.modify id (activationFailed reason), .returned)
      | .fail _ => some (db, .returned)
      | _ => none
  | .rescuing created late error =>
      match a with
      | .go =>
          some (db, .failingRun created late ((Held.fresh db.run).assign fun run =>
            { run with status := .failed, errorMessage := some error }))
      | .fail _ => some (db, .returned)
      | _ => none
  | .failingRun _ _ run =>
      match a with
      | .go => some (db.saveRun run, .returned)
      | .fail _ => some (db, .returned)
      | _ => none
  | .returned => none

end

end Odirag.Discovery
