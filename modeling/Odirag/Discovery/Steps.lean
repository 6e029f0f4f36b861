import Odirag.Discovery.Service

/-!
# What a step of a session can do

Reference: `SourceDiscoveryService` of `backend/app/services/source_discovery.py`, with
`backend/app/repositories/source_discovery.py`.

The step function taken apart once: an exception changes nothing that is stored (`Session.raising`),
and everything else is one of the moves of `Moves`. What holds after a step is proved by cases on its
move.
-/

namespace Odirag.Discovery

open Crawler (NetTools)

/-- Where an exception leads. -/
def Session.raising (error : String) : Session → Session
  | .searching _ _ => .rescuing false false error
  | .looping L | .storing L _ _ _ | .listing L _ => .rescuing L.created false error
  | .processing L id stage =>
      match stage with
      | .trial index => .processing L id (.trialFailing index error)
      | .failing _ => .rescuing L.created false error
      | _ => .processing L id (.failing error)
  | .inspecting id => .undoing id error false
  | .flushing source => .undoing source.candidateId error false
  | .recounting p | .counting p _ | .saving p _ => raised p error false
  | .saved p => raised p error true
  | _ => .returned

/-- The first statement of a call. -/
inductive Begins (db : Db) : Call → Db → Session → Prop
  /-- There is nothing to do. -/
  | refused (c : Call) : Begins db c db .returned
  | retry (hfailed : db.run.status = .failed) :
      Begins db .retry db (.requeueing ((Held.fresh db.run).assign fun run =>
        { run with status := .pending, errorMessage := none }))
  | execute (hpending : db.run.status = .pending) :
      Begins db .execute
        { db with run := { db.run with
            status := .running
            errorMessage := none
            attemptCount := db.run.attemptCount + 1 } } .claimedRun
  | queueFailure (errorType : String) (hpending : db.run.status = .pending) :
      Begins db (.queueFailure errorType) db (.marking ((Held.fresh db.run).assign fun run =>
        { run with
          status := .failed
          errorMessage := some ("QUEUE_UNAVAILABLE:" ++ errorType) }))
  | approve (id : ℕ) (reviewer : String) {c : SourceCandidate} (hc : db.candidate? id = some c)
      (hstatus : c.status = .pendingApproval) :
      Begins db (.approve id reviewer) db (.deciding (.approve id reviewer) c.status)
  | reject (id : ℕ) (reviewer reason : String) {c : SourceCandidate}
      (hc : db.candidate? id = some c) (hstatus : c.status ≠ .activated) :
      Begins db (.reject id reviewer reason) db (.deciding (.reject id reviewer reason) c.status)
  | activate (id : ℕ) {c : SourceCandidate} (hc : db.candidate? id = some c)
      (hstatus : c.status ≠ .activated) : Begins db (.activate id) db (.claiming id)

/-- The next result of the search. -/
inductive Takes (db : Db) (L : Loop) : Session → Prop
  | finished : Takes db L (.recounting (.execution L))
  | skip (L' : Loop) (hcreated : L'.created = L.created) : Takes db L (.looping L')
  | new (L' : Loop) (hcreated : L'.created = L.created) (hit : Hit) (url : Text)
      (hnone : db.candidateByUrl url = none) : Takes db L (.storing L' hit url none)
  | again (L' : Loop) (hcreated : L'.created = L.created) (hit : Hit) (url : Text)
      {c : SourceCandidate} (hc : db.candidateByUrl url = some c)
      (hstatus : c.status ∈ [CandidateStatus.validationFailed, .rejected, .failed]) :
      Takes db L (.storing L' hit url (some c.id))

section

variable (N : NetTools) (settings : Settings)

/-- A step of the processing that does not raise. -/
inductive Processes (db : Db) (L : Loop) (id : ℕ) : Act → Stage → Db → Session → Prop
  | offline (error : String) :
      Processes db L id (.homepage (.error error)) .validate (db.modify id (homepageFailed error))
        (.looping L)
  | unread (response : Homepage) {c : SourceCandidate} (hc : db.candidate? id = some c)
      (hcheck : officialCheck N settings c.canonicalHomepageUrl response = none) :
      Processes db L id (.homepage (.ok response)) .validate db
        (.processing L id (.failing "ValueError"))
  | validate (response : Homepage) {c : SourceCandidate} (hc : db.candidate? id = some c)
      {check : OfficialCheck}
      (hcheck : officialCheck N settings c.canonicalHomepageUrl response = some check) :
      Processes db L id (.homepage (.ok response)) .validate
        (db.modify id (validated response check))
        (if check.verified then .processing L id .discover else .looping L)
  | discover (hits : List ColumnHit) :
      Processes db L id (.columns hits) .discover
        (db.modify id (withColumns (discoveredColumns settings hits)))
        (if discoveredColumns settings hits = [] then .looping L else .processing L id (.trial 0))
  | trial (index : ℕ) (found : Trial) :
      Processes db L id (.trial found) (.trial index)
        (db.modify id fun c =>
          { c with columns := c.columns.modify index (trialCrawled settings found) })
        (.processing L id (nextTrial db id index))
  | trialFailing (index : ℕ) (error : String) :
      Processes db L id .go (.trialFailing index error)
        (db.modify id fun c => { c with columns := c.columns.modify index (trialFailed error) })
        (.processing L id (nextTrial db id index))
  | score : Processes db L id .go .score (db.modify id (scored settings)) (.looping L)
  | failing (error : String) :
      Processes db L id .go (.failing error) (db.modify id (processingFailed error)) (.looping L)

/-- A step of a session. -/
inductive Moves (db : Db) : Act → Session → Db → Session → Prop
  | raises (error : String) (l : Session) : Moves db (.fail error) l db (l.raising error)
  | begin {c : Call} {db' : Db} {l' : Session} (h : Begins db c db' l') :
      Moves db .go (.call c) db' l'
  | requeue (run : Held SourceDiscoveryRun) :
      Moves db .go (.requeueing run) (db.saveRun run) .requeued
  | requeued : Moves db .go .requeued db .returned
  | mark (run : Held SourceDiscoveryRun) : Moves db .go (.marking run) (db.saveRun run) .returned
  | execute :
      Moves db .go .claimedRun db (.searching db.run.attemptCount db.run.maxCandidates)
  | search (attempt maxCandidates : ℕ) (hits : List Hit) :
      Moves db (.search hits) (.searching attempt maxCandidates) db
        (.looping { hits := hits, attempt := attempt, maxCandidates := maxCandidates })
  | take {L : Loop} {l' : Session} (h : Takes db L l') : Moves db .go (.looping L) db l'
  | duplicate (L : Loop) (hit : Hit) (url : Text) (id : ℕ) :
      Moves db (.store id) (.storing L hit url none) db (.looping L)
  | create (L : Loop) (hit : Hit) (url : Text) (id : ℕ) (hfresh : db.candidate? id = none) :
      Moves db (.store id) (.storing L hit url none)
        { db with candidates := db.candidates ++
            [{ id := id
               canonicalHomepageUrl := url
               domain := hit.domain
               name := hit.name }] }
        (.processing { L with processed := L.processed + 1, created := true } id .validate)
  | reset (L : Loop) (hit : Hit) (url : Text) (id : ℕ) :
      Moves db .go (.storing L hit url (some id)) (db.modify id resetForRetry)
        (.processing { L with processed := L.processed + 1 } id .validate)
  | process {a : Act} {L : Loop} {id : ℕ} {stage : Stage} {db' : Db} {l' : Session}
      (h : Processes N settings db L id a stage db' l') :
      Moves db a (.processing L id stage) db' l'
  | decide (d : Decision) (previous : CandidateStatus) :
      Moves db .go (.deciding d previous) (db.update d.applies d.change)
        (if db.rowcount d.applies = 1 then .recounting (.decision d previous) else .returned)
  | claim (id : ℕ) :
      Moves db .go (.claiming id) (db.update (claimable id) activating)
        (if db.rowcount (claimable id) = 1 then .claimed id else .returned)
  | claimed (id : ℕ) : Moves db .go (.claimed id) db (.inspecting id)
  | noColumns (id : ℕ) :
      Moves db .go (.inspecting id) db (.undoing id "SOURCE_ACTIVATION_FAILED" false)
  | columns (id : ℕ) {c : SourceCandidate} (hc : db.candidate? id = some c)
      (hcolumns : (sourceOf c).columns ≠ []) :
      Moves db .go (.inspecting id) db (.flushing (sourceOf c))
  | conflict (source : Source) :
      Moves db .go (.flushing source) db
        (.undoing source.candidateId "SOURCE_KEY_CONFLICT" false)
  | flush (source : Source) (hfresh : ∀ s ∈ db.sources, s.candidateId ≠ source.candidateId) :
      Moves db .go (.flushing source) db (.recounting (.activation source))
  | recount (p : Purpose) : Moves db .go (.recounting p) db (.counting p (.fresh db.run))
  | countDecision (d : Decision) (previous : CandidateStatus) (run : Held SourceDiscoveryRun) :
      Moves db .go (.counting (.decision d previous) run) db
        (.saving (.decision d previous) (run.assign db.counts))
  | countActivation (source : Source) (run : Held SourceDiscoveryRun) :
      Moves db .go (.counting (.activation source) run) db
        (.saving (.activation source)
          ((run.assign db.counts).assign fun run => { run with status := .activated }))
  | countExecution (L : Loop) (run : Held SourceDiscoveryRun) :
      Moves db .go (.counting (.execution L) run) db (.listing L (run.assign db.counts))
  | conclude (L : Loop) (run : Held SourceDiscoveryRun) :
      Moves db .go (.listing L run) db
        (.saving (.execution L) (run.assign (concluded db L.processed)))
  | save (p : Purpose) (run : Held SourceDiscoveryRun) :
      Moves db .go (.saving p run) (commit p run db) (.saved p)
  | finish (p : Purpose) : Moves db .go (.saved p) db .returned
  | undo (id : ℕ) (reason : String) (late : Bool) :
      Moves db .go (.undoing id reason late) db
        (if (db.candidate? id).isSome then .failing id reason late else .returned)
  | fail (id : ℕ) (reason : String) (late : Bool) :
      Moves db .go (.failing id reason late) (db.modify id (activationFailed reason)) .returned
  | rescue (created late : Bool) (error : String) :
      Moves db .go (.rescuing created late error) db
        (.failingRun created late ((Held.fresh db.run).assign fun run =>
          { run with status := .failed, errorMessage := some error }))
  | failRun (created late : Bool) (run : Held SourceDiscoveryRun) :
      Moves db .go (.failingRun created late run) (db.saveRun run) .returned

end

variable {N : NetTools} {settings : Settings} {a : Act} {db db' : Db} {l l' : Session}

/-- The first statement of a call is one of these. -/
theorem begins (db : Db) (c : Call) : Begins db c (begin db c).1 (begin db c).2 := by
  -- Every call reads its row first and refuses it in the wrong status.
  cases c with
  | retry =>
      simp only [begin]
      split
      · next hfailed => exact .retry hfailed
      · exact .refused _
  | execute =>
      simp only [begin]
      split
      · next hpending => exact .execute hpending
      · exact .refused _
  | queueFailure errorType =>
      simp only [begin]
      split
      · next hpending => exact .queueFailure errorType hpending
      · exact .refused _
  | approve id reviewer =>
      simp only [begin]
      split
      · exact .refused _
      · next c hc =>
          split
          · next hstatus => exact .approve id reviewer hc hstatus
          · exact .refused _
  | reject id reviewer reason =>
      simp only [begin]
      split
      · exact .refused _
      · split
        · exact .refused _
        · next c hc =>
            split
            · exact .refused _
            · next hstatus => exact .reject id reviewer reason hc hstatus
  | activate id =>
      simp only [begin]
      split
      · exact .refused _
      · next c hc =>
          split
          · exact .refused _
          · next hstatus => exact .activate id hc hstatus

/-- The next result of the search is one of these. -/
theorem takes_nextHit (db : Db) (L : Loop) : Takes db L (nextHit db L) := by
  unfold nextHit
  split
  · exact .finished
  · next hit rest _ =>
      split
      · exact .finished
      · split
        · exact .skip _ rfl
        · next url _ =>
            split
            · exact .skip _ rfl
            · dsimp only
              split
              · next hnone =>
                  exact .new (L := L) { L with hits := rest, seen := url :: L.seen } rfl hit url hnone
              · next c hc =>
                  split
                  · next hretry =>
                      exact .again (L := L) { L with hits := rest, seen := url :: L.seen } rfl hit url
                        hc hretry.2
                  · exact .skip _ rfl

/-- An exception changes nothing that is stored. -/
theorem next_fail {error : String} (h : next N settings (.fail error) db l = some (db', l')) :
    db' = db ∧ l' = l.raising error := by
  cases l with
  | storing L hit url found =>
      cases found with
      | none | some id =>
          cases h
          exact ⟨rfl, rfl⟩
  | processing L id stage =>
      cases stage with
      | validate | discover | trial | trialFailing | score | failing =>
          cases h
          exact ⟨rfl, rfl⟩
  | returned => cases h
  | _ =>
      cases h
      exact ⟨rfl, rfl⟩

/-- A step of the processing that does not raise is one of these. -/
theorem processes_of_process {L : Loop} {id : ℕ} {stage : Stage}
    (hfail : ∀ error, a ≠ .fail error)
    (h : process N settings a db L id stage = some (db', l')) :
    Processes N settings db L id a stage db' l' := by
  -- The stages with a request are the first three; the rest take no answer.
  cases stage with
  | validate =>
      simp only [process] at h
      split at h
      · next error =>
          cases h
          exact .offline error
      · next response =>
          split at h
          · cases h
          · next c hc =>
              split at h
              · next hcheck =>
                  cases h
                  exact .unread response hc hcheck
              · next check hcheck =>
                  cases h
                  exact .validate response hc hcheck
      · exact absurd rfl (hfail _)
      · cases h
  | discover =>
      simp only [process] at h
      split at h
      · next hits =>
          cases h
          exact .discover hits
      · exact absurd rfl (hfail _)
      · cases h
  | trial index =>
      simp only [process] at h
      split at h
      · next found =>
          cases h
          exact .trial index found
      · exact absurd rfl (hfail _)
      · cases h
  | trialFailing index error =>
      simp only [process] at h
      split at h
      · cases h
        exact .trialFailing index error
      · exact absurd rfl (hfail _)
      · cases h
  | score =>
      simp only [process] at h
      split at h
      · cases h
        exact .score
      · exact absurd rfl (hfail _)
      · cases h
  | failing error =>
      simp only [process] at h
      split at h
      · cases h
        exact .failing error
      · exact absurd rfl (hfail _)
      · cases h

/-- A statement that goes through. -/
theorem moves_of_go (h : next N settings .go db l = some (db', l')) :
    Moves N settings db .go l db' l' := by
  cases l with
  | call c =>
      have hbegins := begins db c
      rw [show begin db c = (db', l') from Option.some.inj h] at hbegins
      exact .begin hbegins
  | requeueing run =>
      cases h
      exact .requeue run
  | requeued =>
      cases h
      exact .requeued
  | marking run =>
      cases h
      exact .mark run
  | claimedRun =>
      cases h
      exact .execute
  | searching => cases h
  | looping L =>
      cases h
      exact .take (takes_nextHit db L)
  | storing L hit url found =>
      cases found with
      | none => cases h
      | some id =>
          cases h
          exact .reset L hit url id
  | processing L id stage => exact .process (processes_of_process nofun h)
  | deciding d previous =>
      cases h
      exact .decide d previous
  | claiming id =>
      cases h
      exact .claim id
  | claimed id =>
      cases h
      exact .claimed id
  | inspecting id =>
      simp only [next] at h
      split at h
      · cases h
      · next c hc =>
          split at h
          · cases h
            exact .noColumns id
          · next hcolumns =>
              cases h
              exact .columns id hc hcolumns
  | flushing source =>
      simp only [next] at h
      split at h
      · cases h
        exact .conflict source
      · next hnone =>
          cases h
          exact .flush source (by simpa using hnone)
  | recounting p =>
      cases h
      exact .recount p
  | counting p run =>
      cases p with
      | decision d previous =>
          cases h
          exact .countDecision d previous run
      | activation source =>
          cases h
          exact .countActivation source run
      | execution L =>
          cases h
          exact .countExecution L run
  | listing L run =>
      cases h
      exact .conclude L run
  | saving p run =>
      cases h
      exact .save p run
  | saved p =>
      cases h
      exact .finish p
  | undoing id reason late =>
      cases h
      exact .undo id reason late
  | failing id reason late =>
      cases h
      exact .fail id reason late
  | rescuing created late error =>
      cases h
      exact .rescue created late error
  | failingRun created late run =>
      cases h
      exact .failRun created late run
  | returned => cases h

/-- **Every step is one of the moves.** -/
theorem moves_of_next (h : next N settings a db l = some (db', l')) :
    Moves N settings db a l db' l' := by
  cases a with
  | go => exact moves_of_go h
  | fail error =>
      obtain ⟨rfl, rfl⟩ := next_fail h
      exact .raises error l
  | search hits =>
      cases l with
      | searching attempt maxCandidates =>
          cases h
          exact .search attempt maxCandidates hits
      | processing L id stage => exact .process (processes_of_process nofun h)
      | storing L hit url found => cases found <;> cases h
      | _ => cases h
  | store id =>
      cases l with
      | storing L hit url found =>
          cases found with
          | none =>
              simp only [next] at h
              split at h
              · cases h
              · next hfresh =>
                  split at h
                  · cases h
                    exact .duplicate L hit url id
                  · cases h
                    exact .create L hit url id (Option.not_isSome_iff_eq_none.mp hfresh)
          | some id => cases h
      | processing L id stage => exact .process (processes_of_process nofun h)
      | _ => cases h
  | homepage | columns | trial =>
      cases l with
      | processing L id stage => exact .process (processes_of_process nofun h)
      | storing L hit url found => cases found <;> cases h
      | _ => cases h

end Odirag.Discovery
