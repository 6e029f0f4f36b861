import Odirag.Discovery.Claim

/-!
# Approval safety

Reference: `SourceDiscoveryService` of `backend/app/services/source_discovery.py`, with
`backend/app/repositories/source_discovery.py`.

Executions, retries and decisions on the candidates of a run, interleaved at their reads and commits
and raising anywhere, except that an execution does not work on a candidate while another call does.
Every row keeps the gate (`SourceCandidate.Gate`): only an official candidate that scores high enough
gets as far as an approval, and only an approved one any further. What makes the two halves of an
activation safe is that the claim gives the row to one session: until that session is over, nobody
else changes the status, so that it becomes a source once.
-/

namespace Odirag.Discovery

open Crawler (NetTools plainTools)

/-- The candidate that an execution works on. -/
def Session.executes : Session → Option ℕ
  | .storing _ _ _ found => found
  | .processing _ id _ => some id
  | _ => none

/-- The candidate that a session has claimed for an activation. -/
def Session.owns : Session → Option ℕ
  | .claimed id | .inspecting id => some id
  | .flushing source => some source.candidateId
  | .recounting (.activation source) | .counting (.activation source) _ => some source.candidateId
  | .saving (.activation source) _ | .saved (.activation source) => some source.candidateId
  | .undoing id _ _ | .failing id _ _ => some id
  | _ => none

/-- The candidate that an approval, a rejection or an activation works on. -/
def Session.decides : Session → Option ℕ
  | .deciding (.approve id _) _ | .deciding (.reject id _ _) _ | .claiming id => some id
  | l => l.owns

section

variable {ι : Type}

/-- No execution works on a candidate that another call works on. -/
def Separate (s : Parties.State ι Db Session) : Prop :=
  ∀ i j, i ≠ j → ∀ id ∈ (s.loc i).executes,
    id ∉ (s.loc j).executes ∧ id ∉ (s.loc j).decides

/-- Every step leads to a state in which the executions keep to themselves. -/
def Apart (_ : List (Parties.State ι Db Session × (ι × Act))) (_ : Parties.State ι Db Session)
    (_ : ι × Act) (s' : Parties.State ι Db Session) : Prop :=
  Separate s'

/-- A run without candidates, and calls that have not begun. -/
def NoCandidates (s : Parties.State ι Db Session) : Prop :=
  s.shared.candidates = [] ∧ s.shared.sources = [] ∧ ∀ i, ∃ c, s.loc i = .call c

end

/-! ## What a session knows -/

/-- The status of a candidate. -/
def Db.HasStatus (db : Db) (id : ℕ) (status : CandidateStatus) : Prop :=
  ∀ c ∈ db.candidates, c.id = id → c.status = status

/-- The candidate is official. -/
def Db.Official (db : Db) (id : ℕ) : Prop :=
  ∀ c ∈ db.candidates, c.id = id → c.officialStatus = .official

/-- There is no source of the candidate. -/
def Db.NoSource (db : Db) (id : ℕ) : Prop := ∀ source ∈ db.sources, source.candidateId ≠ id

/-- What a stage of the processing relies on. -/
def Stage.Knows (db : Db) (id : ℕ) : Stage → Prop
  | .discover | .trial _ | .trialFailing _ _ | .score => db.Official id
  | _ => True

/-- What a session relies on. -/
def Session.Knows (db : Db) : Session → Prop
  | .processing _ id stage => stage.Knows db id
  | .claimed id | .inspecting id => db.HasStatus id .activating
  | .flushing source => db.HasStatus source.candidateId .activating ∧ source.Sound
  | .recounting (.activation source) | .counting (.activation source) _
  | .saving (.activation source) _ =>
      db.HasStatus source.candidateId .activating ∧ source.Sound ∧ db.NoSource source.candidateId
  | .saved (.activation source) => db.HasStatus source.candidateId .activated
  | .undoing id _ late | .failing id _ late =>
      db.HasStatus id (if late then .activated else .activating)
  | _ => True

/-! ## What a step does to the candidates -/

/-- Who may change a row: the execution that works on it, a decision while it waits for one, and the
activation that claimed it. Only an execution changes the official status. -/
def Session.mayChange (l : Session) (c c' : SourceCandidate) : Prop :=
  l.executes = some c.id ∨
    (c'.officialStatus = c.officialStatus ∧
      (c.status = .pendingApproval ∨ c.status = .approved ∨ l.owns = some c.id))

/-- What a step does to the rows of the candidates. -/
inductive Rows (settings : Settings) (db db' : Db) (l l' : Session) : Prop
  | keep (hrows : db'.candidates = db.candidates)
  | update (p : SourceCandidate → Bool) (f : SourceCandidate → SourceCandidate)
      (hrows : db'.candidates = (db.update p f).candidates) (hid : ∀ c, (f c).id = c.id)
      (hgate : ∀ c ∈ db.candidates, p c → c.Gate settings → (f c).Gate settings)
      (hmay : ∀ c ∈ db.candidates, p c → l.mayChange c (f c))
  | create (c : SourceCandidate) (hrows : db'.candidates = db.candidates ++ [c])
      (hfresh : ∀ c' ∈ db.candidates, c'.id ≠ c.id) (hgate : c.Gate settings)
      (hl' : l'.executes = some c.id)

variable {N : NetTools} {settings : Settings} {a : Act} {db db' : Db} {l l' : Session}

theorem id_homepageFailed (error : String) (c : SourceCandidate) :
    (homepageFailed error c).id = c.id := rfl

theorem id_validated (response : Homepage) (check : OfficialCheck) (c : SourceCandidate) :
    (validated response check c).id = c.id := by
  unfold validated
  split <;> rfl

theorem id_withColumns (columns : List SourceCandidateColumn) (c : SourceCandidate) :
    (withColumns columns c).id = c.id := by
  unfold withColumns
  split <;> rfl

theorem id_scored (c : SourceCandidate) : (scored settings c).id = c.id := by
  unfold scored
  dsimp only
  split <;> rfl

theorem id_change (d : Decision) (c : SourceCandidate) : (d.change c).id = c.id := by
  cases d <;> rfl

/-- The change of one row by the execution that works on it. -/
theorem Rows.of_executes {id : ℕ} {f : SourceCandidate → SourceCandidate}
    (hl : l.executes = some id) (hid : ∀ c, (f c).id = c.id)
    (hgate : ∀ c ∈ db.candidates, c.id = id → c.Gate settings → (f c).Gate settings) :
    Rows settings db (db.modify id f) l l' :=
  .update _ _ rfl hid (fun c hc hp => hgate c hc (by simpa using hp))
    fun c _ hp => .inl (by rw [hl, show c.id = id by simpa using hp])

/-- The change of one row by the activation that claimed it. -/
theorem Rows.of_owns {id : ℕ} {f : SourceCandidate → SourceCandidate}
    (hl : l.owns = some id) (hrows : db'.candidates = (db.modify id f).candidates)
    (hid : ∀ c, (f c).id = c.id) (hofficial : ∀ c, (f c).officialStatus = c.officialStatus)
    (hgate : ∀ c ∈ db.candidates, c.id = id → c.Gate settings → (f c).Gate settings) :
    Rows settings db db' l l' :=
  .update _ _ hrows hid (fun c hc hp => hgate c hc (by simpa using hp))
    fun c _ hp => .inr ⟨hofficial c, .inr (.inr (by rw [hl, show c.id = id by simpa using hp]))⟩

/-- Processing changes the row of its candidate only. -/
theorem rows_process {L : Loop} {id : ℕ} {stage : Stage} (hk : stage.Knows db id)
    (h : Processes N settings db L id a stage db' l') :
    Rows settings db db' (.processing L id stage) l' := by
  cases h with
  | offline error =>
      exact .of_executes rfl (id_homepageFailed _) fun c _ _ hc => hc.homepageFailed _
  | unread => exact .keep rfl
  | validate => exact .of_executes rfl (id_validated _ _) fun c _ _ hc => hc.validated _ _
  | discover => exact .of_executes rfl (id_withColumns _) fun c _ _ hc => hc.withColumns _
  | trial =>
      exact .of_executes rfl (fun _ => rfl)
        fun c _ _ hc => hc.modifyColumn _ (sound_trialCrawled _ _)
  | trialFailing =>
      exact .of_executes rfl (fun _ => rfl)
        fun c _ _ hc => hc.modifyColumn _ (sound_trialFailed _)
  | score => exact .of_executes rfl id_scored fun c hmem hid hc => hc.scored (hk c hmem hid)
  | failing => exact .of_executes rfl (fun _ => rfl) fun c _ _ hc => hc.processingFailed _

theorem applies_approve_iff {id : ℕ} {reviewer : String} {c : SourceCandidate} :
    (Decision.approve id reviewer).applies c = true ↔ c.id = id ∧ c.status = .pendingApproval := by
  simp [Decision.applies]

theorem applies_reject_iff {id : ℕ} {reviewer reason : String} {c : SourceCandidate} :
    (Decision.reject id reviewer reason).applies c = true ↔
      c.id = id ∧ (c.status = .pendingApproval ∨ c.status = .approved) := by
  simp [Decision.applies]

/-- A decision finds its candidate waiting, and keeps the gate. -/
theorem Rows.of_decision (d : Decision) (previous : CandidateStatus) :
    Rows settings db (db.update d.applies d.change) (.deciding d previous) l' := by
  refine .update _ _ rfl (id_change d) ?_ ?_
  · intro c _ hp hc
    cases d with
    | approve id reviewer => exact hc.approved (applies_approve_iff.mp hp).2 reviewer
    | reject id reviewer reason => exact hc.rejected reviewer reason
  · intro c _ hp
    cases d with
    | approve id reviewer => exact .inr ⟨rfl, .inl (applies_approve_iff.mp hp).2⟩
    | reject id reviewer reason =>
        exact .inr ⟨rfl, (applies_reject_iff.mp hp).2.imp_right .inl⟩

theorem claimable_iff {id : ℕ} {c : SourceCandidate} :
    claimable id c = true ↔ c.id = id ∧ c.status = .approved := by
  simp [claimable]

/-- The first statement of a call leaves the candidates and the sources alone. -/
theorem Begins.same {c : Call} (h : Begins db c db' l') :
    db'.candidates = db.candidates ∧ db'.sources = db.sources := by
  cases h with
  | refused | retry | execute | queueFailure | approve | reject | activate => exact ⟨rfl, rfl⟩

/-- What a step does to the rows. -/
theorem rows_step (hk : l.Knows db) (h : next N settings a db l = some (db', l')) :
    Rows settings db db' l l' := by
  cases moves_of_next h with
  | begin hbegins => exact .keep hbegins.same.1
  | process hstep => exact rows_process hk hstep
  | create L hit url id hfresh =>
      refine .create _ rfl ?_ (.of_not_gated rfl nofun) rfl
      intro c' hc' hid
      exact absurd hid (by simpa using List.find?_eq_none.mp hfresh c' hc')
  | reset L hit url id => exact .of_executes rfl (fun _ => rfl) fun c _ _ _ => .resetForRetry c
  | decide d previous => exact .of_decision d previous
  | claim id =>
      exact .update _ _ rfl (fun _ => rfl)
        (fun c _ hp hc => hc.activating (claimable_iff.mp hp).2)
        fun c _ hp => .inr ⟨rfl, .inr (.inl (claimable_iff.mp hp).2)⟩
  | save p run =>
      cases p with
      | activation source =>
          exact .of_owns rfl rfl (fun _ => rfl) (fun _ => rfl)
            fun c hmem hid hc => hc.activated (hk.1 c hmem hid) _
      | decision | execution => exact .keep rfl
  | fail id reason late =>
      exact .of_owns rfl rfl (fun _ => rfl) (fun _ => rfl) fun c _ _ hc => hc.activationFailed _
  | raises | requeue | requeued | mark | execute | search | take | duplicate | claimed | noColumns
  | columns | conflict | flush | recount | countDecision | countActivation | countExecution
  | conclude | finish | undo | rescue | failRun => exact .keep rfl

/-- Processing a candidate makes no source. -/
theorem Processes.sources {L : Loop} {id : ℕ} {stage : Stage}
    (h : Processes N settings db L id a stage db' l') : db'.sources = db.sources := by
  cases h with
  | offline | unread | validate | discover | trial | trialFailing | score | failing => rfl

/-- What a step does to the sources. -/
theorem sources_step (h : next N settings a db l = some (db', l')) :
    db'.sources = db.sources ∨
      ∃ source run, l = .saving (.activation source) run ∧
        db'.sources = db.sources ++ [source] := by
  cases moves_of_next h with
  | begin hbegins => exact .inl hbegins.same.2
  | process hstep => exact .inl hstep.sources
  | save p run =>
      cases p with
      | activation source => exact .inr ⟨source, run, rfl, rfl⟩
      | decision | execution => exact .inl rfl
  | raises | requeue | requeued | mark | execute | search | take | duplicate | create | reset
  | decide | claim | claimed | noColumns | columns | conflict | flush | recount | countDecision
  | countActivation | countExecution | conclude | finish | undo | fail | rescue | failRun =>
      exact .inl rfl

/-! ## What a session knows stays true -/

theorem hasStatus_modify {id : ℕ} {f : SourceCandidate → SourceCandidate}
    {status : CandidateStatus} (hf : ∀ c, (f c).status = status) :
    (db.modify id f).HasStatus id status := by
  intro c' hc' hid'
  obtain ⟨c, -, -, rfl⟩ := Db.mem_modify hc' hid'
  exact hf c

theorem official_modify {id : ℕ} {f : SourceCandidate → SourceCandidate}
    (hf : ∀ c ∈ db.candidates, c.id = id → (f c).officialStatus = .official) :
    (db.modify id f).Official id := by
  intro c' hc' hid'
  obtain ⟨c, hc, hid, rfl⟩ := Db.mem_modify hc' hid'
  exact hf c hc hid

/-- The claim gives the row to the session: no other row has its id. -/
theorem hasStatus_claim {id : ℕ} (hids : (db.candidates.map (·.id)).Nodup)
    (h : db.rowcount (claimable id) = 1) :
    (db.update (claimable id) activating).HasStatus id .activating := by
  have hpos : 0 < db.candidates.countP (claimable id) := by
    rw [Db.rowcount] at h
    omega
  obtain ⟨c₀, hc₀, hclaim⟩ := List.countP_pos_iff.mp hpos
  intro c' hc' hid'
  obtain ⟨c, hc, rfl⟩ := Db.mem_update.mp hc'
  have hcid : c.id = id := by
    split at hid'
    · exact hid'
    · exact hid'
  have heq : c = c₀ :=
    List.inj_on_of_nodup_map hids hc hc₀ (hcid.trans (claimable_iff.mp hclaim).1.symm)
  rw [if_pos (heq ▸ hclaim)]
  rfl

theorem knows_nextTrial (db₀ : Db) {id : ℕ} (h : db.Official id) (index : ℕ) :
    (nextTrial db₀ id index).Knows db id := by
  unfold nextTrial
  repeat' split
  all_goals exact h

theorem officialStatus_withColumns (columns : List SourceCandidateColumn) (c : SourceCandidate) :
    (withColumns columns c).officialStatus = c.officialStatus := by
  unfold withColumns
  split <;> rfl

theorem officialStatus_validated {check : OfficialCheck} (h : check.verified = true)
    (response : Homepage) (c : SourceCandidate) :
    (validated response check c).officialStatus = .official := by
  simp [validated, h]

theorem knows_process {L : Loop} {id : ℕ} {stage : Stage} (hk : stage.Knows db id)
    (h : Processes N settings db L id a stage db' l') : l'.Knows db' := by
  cases h with
  | offline | unread | score | failing => trivial
  | validate response hc hcheck =>
      split
      · next hverified =>
          exact official_modify fun c _ _ => officialStatus_validated hverified response c
      · trivial
  | discover hits =>
      split
      · trivial
      · exact official_modify fun c hc hid =>
          (officialStatus_withColumns _ c).trans (hk c hc hid)
  | trial index found =>
      show (nextTrial db id index).Knows (db.modify id _) id
      refine knows_nextTrial db (official_modify ?_) index
      exact fun c hc hid => hk c hc hid
  | trialFailing index error =>
      show (nextTrial db id index).Knows (db.modify id _) id
      refine knows_nextTrial db (official_modify ?_) index
      exact fun c hc hid => hk c hc hid

/-- An exception keeps what the clean-up after it relies on. -/
theorem Session.Knows.raising (error : String) (hk : l.Knows db) : (l.raising error).Knows db := by
  cases l with
  | processing L id stage =>
      cases stage with
      | trial index => exact hk
      | validate | discover | trialFailing | score | failing => trivial
  | inspecting id => exact hk
  | flushing source => exact hk.1
  | recounting p | counting p run | saving p run =>
      cases p with
      | activation source => exact hk.1
      | decision | execution => trivial
  | saved p =>
      cases p with
      | activation source => exact hk
      | decision | execution => trivial
  | _ => trivial

/-- What a session knows after its own step. -/
theorem knows_step (hids : (db.candidates.map (·.id)).Nodup)
    (hgate : ∀ c ∈ db.candidates, c.Gate settings) (hk : l.Knows db)
    (h : next N settings a db l = some (db', l')) : l'.Knows db' := by
  cases moves_of_next h with
  | raises error => exact hk.raising error
  | begin hbegins =>
      cases hbegins with
      | refused | retry | execute | queueFailure | approve | reject | activate => trivial
  | take htakes =>
      cases htakes with
      | finished | skip | new | again => trivial
  | process hstep => exact knows_process hk hstep
  | decide d previous => split <;> trivial
  | claim id =>
      split
      · next hone => exact hasStatus_claim hids hone
      · trivial
  | claimed id | noColumns id => exact hk
  -- The columns are read off the candidate itself, which is past the gate.
  | columns id hfind hcolumns =>
      obtain ⟨hc, hid⟩ := Db.candidate?_some hfind
      exact ⟨fun c' hc' hid' => hk c' hc' (hid'.trans hid), sound_sourceOf (hgate _ hc) hcolumns⟩
  | conflict source => exact hk.1
  | flush source hfresh => exact ⟨hk.1, hk.2, hfresh⟩
  | recount p =>
      cases p with
      | activation source => exact hk
      | decision | execution => trivial
  | countActivation source run => exact hk
  | save p run =>
      cases p with
      | activation source => exact hasStatus_modify fun _ => rfl
      | decision | execution => trivial
  | undo id reason late =>
      split
      · exact hk
      · trivial
  | requeue | requeued | mark | execute | search | duplicate | create | reset | countDecision
  | countExecution | conclude | finish | fail | rescue | failRun => trivial

/-- An exception gives nobody a candidate. -/
theorem owns_of_raising {error : String} {id : ℕ} (h : (l.raising error).owns = some id) :
    l.owns = some id := by
  cases l with
  | processing L id stage =>
      cases stage with
      | validate | discover | trial | trialFailing | score | failing => cases h
  | inspecting | flushing => exact h
  | recounting p | counting p run | saving p run | saved p =>
      cases p with
      | activation source => exact h
      | decision | execution => cases h
  | _ => cases h

theorem Processes.owns {L : Loop} {id : ℕ} {stage : Stage}
    (h : Processes N settings db L id a stage db' l') : l'.owns = none := by
  cases h with
  | offline | unread | trial | trialFailing | score | failing => rfl
  | validate | discover => split <;> rfl

/-- A session that owns a candidate after its step owned it before or has just claimed it. -/
theorem owns_step {id : ℕ} (h : next N settings a db l = some (db', l'))
    (howns : l'.owns = some id) :
    l.owns = some id ∨ ∃ c ∈ db.candidates, c.id = id ∧ c.status = .approved := by
  cases moves_of_next h with
  | raises error => exact .inl (owns_of_raising howns)
  | begin hbegins =>
      cases hbegins with
      | refused | retry | execute | queueFailure | approve | reject | activate => cases howns
  | take htakes =>
      cases htakes with
      | finished | skip | new | again => cases howns
  | process hstep =>
      rw [hstep.owns] at howns
      cases howns
  | decide d previous => split at howns <;> cases howns
  -- One row was changed, so there was one to claim.
  | claim id' =>
      split at howns
      · next hone =>
          obtain rfl : id' = id := Option.some.inj howns
          obtain ⟨c, hc, hclaim⟩ := List.countP_pos_iff.mp (hone ▸ Nat.one_pos)
          exact .inr ⟨c, hc, claimable_iff.mp hclaim⟩
      · cases howns
  | columns id' hfind hcolumns => exact .inl ((Db.candidate?_some hfind).2 ▸ howns)
  | recount p =>
      cases p with
      | activation source => exact .inl howns
      | decision | execution => cases howns
  | save p run =>
      cases p with
      | activation source => exact .inl howns
      | decision | execution => cases howns
  | undo id' reason late =>
      split at howns
      · exact .inl howns
      · cases howns
  | claimed | noColumns | conflict | flush | countActivation => exact .inl howns
  | requeue | requeued | mark | execute | search | duplicate | create | reset | countDecision
  | countExecution | conclude | finish | fail | rescue | failRun => cases howns

/-! ## What the others do -/

section

variable {id : ℕ} (hrows : Rows settings db db' l l') (hl : l.executes ≠ some id)
  (hl' : l'.executes ≠ some id)

include hrows hl hl'

/-- A row that no execution works on is what it was, or its status was changed by who may. -/
theorem Rows.of_mem {c' : SourceCandidate} (hc' : c' ∈ db'.candidates) (hid' : c'.id = id) :
    ∃ c ∈ db.candidates, c.id = id ∧ (c' = c ∨ c'.officialStatus = c.officialStatus ∧
      (c.status = .pendingApproval ∨ c.status = .approved ∨ l.owns = some id)) := by
  cases hrows with
  | keep hrows => exact ⟨c', hrows ▸ hc', hid', .inl rfl⟩
  | update p f hrows hid hgate hmay =>
      obtain ⟨c, hc, rfl⟩ := Db.mem_update.mp (hrows ▸ hc')
      by_cases hp : p c
      · rw [if_pos hp, hid c] at hid'
        subst hid'
        refine ⟨c, hc, rfl, .inr ?_⟩
        rw [if_pos hp]
        exact (hmay c hc hp).resolve_left hl
      · rw [if_neg hp] at hid' ⊢
        exact ⟨c, hc, hid', .inl rfl⟩
  | create c hrows hfresh hgate hcreated =>
      rw [hrows] at hc'
      rcases List.mem_append.mp hc' with hold | hnew
      · exact ⟨c', hold, hid', .inl rfl⟩
      · rw [List.mem_singleton.mp hnew] at hid'
        exact absurd hcreated (hid' ▸ hl')

/-- The status of a candidate that does not wait for a decision stays what it is while neither an
execution nor an activation of somebody else works on it. -/
theorem HasStatus.other {status : CandidateStatus} (howns : l.owns ≠ some id)
    (hpending : status ≠ .pendingApproval) (happroved : status ≠ .approved)
    (h : db.HasStatus id status) : db'.HasStatus id status := by
  intro c' hc' hid'
  obtain ⟨c, hc, hid, rfl | ⟨-, hchanged⟩⟩ := hrows.of_mem hl hl' hc' hid'
  · exact h c' hc hid
  · have hstatus := h c hc hid
    rcases hchanged with hwaits | hwaits | howner
    · exact absurd (hstatus ▸ hwaits) hpending
    · exact absurd (hstatus ▸ hwaits) happroved
    · exact absurd howner howns

theorem Official.other (h : db.Official id) : db'.Official id := by
  intro c' hc' hid'
  obtain ⟨c, hc, hid, rfl | ⟨hofficial, -⟩⟩ := hrows.of_mem hl hl' hc' hid'
  · exact h c' hc hid
  · exact hofficial.trans (h c hc hid)

end

theorem NoSource.other {id : ℕ} (h : next N settings a db l = some (db', l'))
    (howns : l.owns ≠ some id) (hno : db.NoSource id) : db'.NoSource id := by
  rcases sources_step h with hsources | ⟨source, run, rfl, hsources⟩
  · rwa [Db.NoSource, hsources]
  · intro source' hsource'
    rw [hsources] at hsource'
    rcases List.mem_append.mp hsource' with hold | hnew
    · exact hno source' hold
    · rw [List.mem_singleton.mp hnew]
      exact fun heq => howns (congrArg some heq)

/-- What a session knows survives a step of another one that keeps away from its candidate. -/
theorem knows_other {k : Session} (hk : k.Knows db) (hknows : l.Knows db)
    (h : next N settings a db l = some (db', l'))
    (hexecutes : ∀ id, k.executes = some id ∨ k.owns = some id →
      l.executes ≠ some id ∧ l'.executes ≠ some id)
    (howns : ∀ id, k.owns = some id → l.owns ≠ some id) : k.Knows db' := by
  have hrows := rows_step hknows h
  have hstatus : ∀ {id status}, k.owns = some id → status ≠ .pendingApproval →
      status ≠ .approved → db.HasStatus id status → db'.HasStatus id status :=
    fun hid hp ha hs => HasStatus.other hrows (hexecutes _ (.inr hid)).1 (hexecutes _ (.inr hid)).2
      (howns _ hid) hp ha hs
  cases k with
  | processing L id stage =>
      have hofficial : db.Official id → db'.Official id :=
        Official.other hrows (hexecutes id (.inl rfl)).1 (hexecutes id (.inl rfl)).2
      cases stage with
      | discover | trial | trialFailing | score => exact hofficial hk
      | validate | failing => trivial
  | claimed id | inspecting id => exact hstatus rfl nofun nofun hk
  | flushing source => exact ⟨hstatus rfl nofun nofun hk.1, hk.2⟩
  | recounting p | counting p run | saving p run =>
      cases p with
      | activation source =>
          exact ⟨hstatus rfl nofun nofun hk.1, hk.2.1, NoSource.other h (howns _ rfl) hk.2.2⟩
      | decision | execution => trivial
  | saved p =>
      cases p with
      | activation source => exact hstatus rfl nofun nofun hk
      | decision | execution => trivial
  | undoing id reason late | failing id reason late =>
      cases late
      · exact hstatus rfl nofun nofun hk
      · exact hstatus rfl nofun nofun hk
  | call | requeueing | requeued | marking | claimedRun | searching | looping | storing | deciding
  | claiming | listing | rescuing | failingRun | returned => trivial

/-! ## Runs -/

section

variable {ι : Type} [DecidableEq ι]

/-- The invariant: the rows keep the gate, the sources are sound and one for each candidate, every
session is right in what it knows, and no candidate has two owners. -/
structure Safe (settings : Settings) (s : Parties.State ι Db Session) : Prop where
  separate : Separate s
  ids : (s.shared.candidates.map (·.id)).Nodup
  gate : ∀ c ∈ s.shared.candidates, c.Gate settings
  sources : ∀ source ∈ s.shared.sources, source.Sound
  once : (s.shared.sources.map (·.candidateId)).Nodup
  knows : ∀ i, (s.loc i).Knows s.shared
  owner : ∀ i j id, (s.loc i).owns = some id → (s.loc j).owns = some id → i = j

theorem ids_rows (hrows : Rows settings db db' l l')
    (hids : (db.candidates.map (·.id)).Nodup) : (db'.candidates.map (·.id)).Nodup := by
  cases hrows with
  | keep hrows => rwa [hrows]
  | update p f hrows hid hgate hmay =>
      have hmap : (db.update p f).candidates.map (·.id) = db.candidates.map (·.id) := by
        unfold Db.update
        rw [List.map_map]
        refine List.map_congr_left fun c _ => ?_
        simp only [Function.comp_apply]
        split
        · exact hid c
        · rfl
      rwa [hrows, hmap]
  | create c hrows hfresh hgate hcreated =>
      rw [hrows, List.map_append]
      refine List.nodup_append.mpr ⟨hids, List.nodup_singleton _, ?_⟩
      intro id hid id' hid'
      obtain ⟨c', hc', rfl⟩ := List.mem_map.mp hid
      rw [List.map_singleton, List.mem_singleton] at hid'
      exact hid' ▸ hfresh c' hc'

theorem gate_rows (hrows : Rows settings db db' l l')
    (hgates : ∀ c ∈ db.candidates, c.Gate settings) : ∀ c ∈ db'.candidates, c.Gate settings := by
  intro c' hc'
  cases hrows with
  | keep hrows => exact hgates c' (hrows ▸ hc')
  | update p f hrows hid hgate hmay =>
      obtain ⟨c, hc, rfl⟩ := Db.mem_update.mp (hrows ▸ hc')
      split
      · next hp => exact hgate c hc hp (hgates c hc)
      · exact hgates c hc
  | create c hrows hfresh hgate hcreated =>
      rw [hrows] at hc'
      rcases List.mem_append.mp hc' with hold | hnew
      · exact hgates c' hold
      · exact List.mem_singleton.mp hnew ▸ hgate

/-- The owner of a candidate works on it. -/
theorem decides_of_owns {l : Session} {id : ℕ} (h : l.owns = some id) : l.decides = some id := by
  unfold Session.decides
  split
  all_goals first | exact h | cases h

/-- A candidate that has an owner is not approved, so that nobody claims it. -/
theorem not_approved_of_owns (hk : l.Knows db) {id : ℕ} (h : l.owns = some id)
    {c : SourceCandidate} (hc : c ∈ db.candidates) (hid : c.id = id) : c.status ≠ .approved := by
  have hne : ∀ {status}, db.HasStatus id status → status ≠ .approved → c.status ≠ .approved :=
    fun hs hne => hs c hc hid ▸ hne
  cases l with
  | claimed | inspecting =>
      cases h
      exact hne hk nofun
  | flushing source =>
      cases h
      exact hne hk.1 nofun
  | recounting p | counting p run | saving p run =>
      cases p with
      | activation source =>
          cases h
          exact hne hk.1 nofun
      | decision | execution => cases h
  | saved p =>
      cases p with
      | activation source =>
          cases h
          exact hne hk nofun
      | decision | execution => cases h
  | undoing id reason late | failing id reason late =>
      cases h
      cases late
      · exact hne hk nofun
      · exact hne hk nofun
  | call | requeueing | requeued | marking | claimedRun | searching | looping | storing | processing
  | deciding | claiming | listing | rescuing | failingRun | returned => cases h

/-- A step that leaves the executions apart keeps the invariant. -/
theorem Safe.step {init : Parties.State ι Db Session → Prop}
    {s s' : Parties.State ι Db Session} {l : ι × Act} (hs : Safe settings s) (hapart : Separate s')
    (h : ((sessions ι N settings).system init).step s l s') : Safe settings s' := by
  obtain ⟨i, a⟩ := l
  have hloc : ∀ j, j ≠ i → s'.loc j = s.loc j := fun j hj => Parties.loc_of_ne h hj
  have hnext : next N settings a s.shared (s.loc i) = some (s'.shared, s'.loc i) :=
    Parties.next_of_step h
  have hrows := rows_step (hs.knows i) hnext
  -- What a session comes to own was approved before, and what another one owns is not.
  have howner : ∀ j, j ≠ i → ∀ id, (s'.loc i).owns = some id → (s.loc j).owns = some id → False := by
    intro j hj id hi hjowns
    rcases owns_step hnext hi with hbefore | ⟨c, hc, hid, hstatus⟩
    · exact hj (hs.owner j i id hjowns hbefore)
    · exact not_approved_of_owns (hs.knows j) hjowns hc hid hstatus
  refine ⟨hapart, ids_rows hrows hs.ids, gate_rows hrows hs.gate, ?_, ?_, ?_, ?_⟩
  · rcases sources_step hnext with hsources | ⟨source, run, hl, hsources⟩
    · rw [hsources]
      exact hs.sources
    · intro source' hsource'
      rw [hsources] at hsource'
      rcases List.mem_append.mp hsource' with hold | hnew
      · exact hs.sources source' hold
      · have hk := hs.knows i
        rw [hl] at hk
        exact List.mem_singleton.mp hnew ▸ hk.2.1
  -- A source is added by an activation only, for a candidate that has none.
  · rcases sources_step hnext with hsources | ⟨source, run, hl, hsources⟩
    · rw [hsources]
      exact hs.once
    · have hk := hs.knows i
      rw [hl] at hk
      rw [hsources, List.map_append]
      refine List.nodup_append.mpr ⟨hs.once, List.nodup_singleton _, ?_⟩
      intro id hid id' hid'
      obtain ⟨source', hsource', rfl⟩ := List.mem_map.mp hid
      rw [List.map_singleton, List.mem_singleton] at hid'
      exact hid' ▸ hk.2.2 source' hsource'
  · intro j
    by_cases hj : j = i
    · subst hj
      exact knows_step hs.ids hs.gate (hs.knows j) hnext
    · rw [hloc j hj]
      refine knows_other (hs.knows j) (hs.knows i) hnext ?_ ?_
      · intro id hid
        -- `Separate` is asked before and after the step, since the step may begin the execution.
        have hworks : ∀ t : Parties.State ι Db Session, t.loc j = s.loc j → Separate t →
            (t.loc i).executes ≠ some id := by
          intro t ht hsep hi
          obtain ⟨hnot, hnot'⟩ := hsep i j (Ne.symm hj) id hi
          rcases hid with hid | hid
          · exact hnot (ht ▸ hid)
          · exact hnot' (ht ▸ decides_of_owns hid)
        exact ⟨hworks s rfl hs.separate, hworks s' (hloc j hj) hapart⟩
      · intro id hid hi
        exact hj (hs.owner j i id hid hi)
  · intro j k id hj hk
    by_cases hji : j = i
    · subst hji
      by_cases hki : k = j
      · exact hki.symm
      · exact (howner k hki id hj (hloc k hki ▸ hk)).elim
    · by_cases hki : k = i
      · subst hki
        exact (howner j hji id hk (hloc j hji ▸ hj)).elim
      · exact hs.owner j k id (hloc j hji ▸ hj) (hloc k hki ▸ hk)

theorem safe_of_run {tr : List (Parties.State ι Db Session × (ι × Act))}
    {s : Parties.State ι Db Session}
    (h : ((sessions ι N settings).system NoCandidates).Run Apart tr s) : Safe settings s := by
  refine h.invariant (I := fun _ s => Safe settings s) ?_ ?_
  · rintro s ⟨hcandidates, hsources, hcalls⟩
    have hexecutes : ∀ i, (s.loc i).executes = none := by
      intro i
      obtain ⟨c, hc⟩ := hcalls i
      rw [hc]
      rfl
    refine ⟨?_, by simp [hcandidates], by simp [hcandidates], by simp [hsources],
      by simp [hsources], ?_, ?_⟩
    · intro i j _ id hid
      rw [hexecutes i] at hid
      cases hid
    · intro i
      obtain ⟨c, hc⟩ := hcalls i
      rw [hc]
      trivial
    · intro i j id hi
      obtain ⟨c, hc⟩ := hcalls i
      rw [hc] at hi
      cases hi
  · intro tr s l s' _ hs hok hstep
    exact hs.step hok hstep

/-- **Approval safety.** Whatever executions, retries, approvals, rejections and activations do in
any order, raising anywhere, as long as no execution works on a candidate together with another
call: a candidate that waits for an approval or is past it is official and scored high enough, from
the approval on somebody has approved it, and it becomes a source at most once, with columns, all of
which were tried with success. -/
theorem discovery_approval_safe {tr : List (Parties.State ι Db Session × (ι × Act))}
    {s : Parties.State ι Db Session}
    (h : ((sessions ι N settings).system NoCandidates).Run Apart tr s) :
    (∀ c ∈ s.shared.candidates,
      c.status ∈ [CandidateStatus.pendingApproval, .approved, .activating, .activated] →
      c.officialStatus = .official ∧
        ∃ q, c.qualityScore = some q ∧ settings.qualityThreshold ≤ q) ∧
    (∀ c ∈ s.shared.candidates,
      c.status ∈ [CandidateStatus.approved, .activating, .activated] → c.approvedBy ≠ none) ∧
    (∀ id, (s.shared.sources.countP fun source => source.candidateId = id) ≤ 1) ∧
    ∀ source ∈ s.shared.sources, source.columns ≠ [] ∧
      ∀ column ∈ source.columns, column.status = .trialCrawled ∧ 0 < column.trialSuccessCount := by
  have hs := safe_of_run h
  refine ⟨fun c hc hstatus => ?_, fun c hc hstatus => ?_, fun id => ?_, fun source hsource => ?_⟩
  · have hgated : c.status.gated = true := by
      revert hstatus
      cases c.status <;> simp [CandidateStatus.gated]
    exact ⟨(hs.gate c hc).official hgated, (hs.gate c hc).quality hgated⟩
  · have hneeds : c.status.needsApproval = true := by
      revert hstatus
      cases c.status <;> simp [CandidateStatus.needsApproval]
    exact Option.isSome_iff_ne_none.mp ((hs.gate c hc).approvedBy hneeds)
  · have hcount : (s.shared.sources.countP fun source => source.candidateId = id)
        = (s.shared.sources.map (·.candidateId)).count id := by
      rw [List.count, List.countP_map]
      exact List.countP_congr fun source _ => by simp
    rw [hcount]
    exact List.nodup_iff_count_le_one.mp hs.once id
  · exact ⟨(hs.sources source hsource).nonempty, (hs.sources source hsource).tried⟩

end

instance {ι : Type} [Fintype ι] [DecidableEq ι] (s : Parties.State ι Db Session) :
    Decidable (Separate s) :=
  inferInstanceAs (Decidable (∀ i j, i ≠ j → ∀ id ∈ (s.loc i).executes,
    id ∉ (s.loc j).executes ∧ id ∉ (s.loc j).decides))

/-- An execution that finds one official site, the approval of the candidate and its activation. -/
def findApproveActivate : List (Fin 3 × Act) :=
  let site := str "https://www.city.gov.cn/"
  [(0, .go), (0, .go),
    (0, .search [{ homepage := some site, domain := str "www.city.gov.cn", name := str "City" }]),
    (0, .go), (0, .store 1),
    (0, .homepage (.ok { url := site, statusCode := 200, text := str "official" })),
    (0, .columns [{ key := str "notices", label := str "Notices", url := site }]),
    (0, .trial [some 400]),
    (0, .go), (0, .go), (0, .go), (0, .go), (0, .go), (0, .go), (0, .go),
    (1, .go), (1, .go), (1, .go), (1, .go), (1, .go), (1, .go),
    (2, .go), (2, .go), (2, .go), (2, .go), (2, .go), (2, .go), (2, .go), (2, .go), (2, .go)]

theorem discovery_approval_safe_activated :
    ∃ s : Parties.State (Fin 3) Db Session,
      (∃ c ∈ s.shared.candidates, c.status = .activated ∧ c.officialStatus = .official ∧
        c.approvedBy ≠ none) ∧
      (∃ source ∈ s.shared.sources, source.columns ≠ []) := by
  let P := sessions (Fin 3) plainTools {}
  let s₀ : Parties.State (Fin 3) Db Session :=
    ⟨{ run := { maxCandidates := 10 } },
      fun i => .call (match i with | 0 => .execute | 1 => .approve 1 "admin" | 2 => .activate 1)⟩
  have hend : ((P.exec s₀ findApproveActivate).map fun s =>
      (s.shared.candidates.any fun c => c.status = .activated) &&
        s.shared.sources.length = 1) = some true := by
    decide +kernel
  obtain ⟨s, hs, hend⟩ := Option.map_eq_some_iff.mp hend
  have hapart : ∀ e ∈ P.traceOf s₀ findApproveActivate,
      ∀ s' ∈ P.move e.1 e.2.1 e.2.2, Separate s' := by
    decide +kernel
  have hpath : (P.system NoCandidates).Path
      (fun _ s l _ => ∀ s' ∈ P.move s l.1 l.2, Separate s') s₀ (P.traceOf s₀ findApproveActivate) s :=
    System.exec_path_of
      (C := fun s (l : Fin 3 × Act) => ∀ s' ∈ P.move s l.1 l.2, Separate s') hs hapart
  have hrun : (P.system NoCandidates).Run Apart (P.traceOf s₀ findApproveActivate) s :=
    ⟨s₀, ⟨rfl, rfl, fun i => ⟨_, rfl⟩⟩,
      hpath.mono_step fun _ _ _ s' hstep hok => hok s' hstep⟩
  obtain ⟨hgate, happroved, -, hsources⟩ := discovery_approval_safe hrun
  obtain ⟨hactivated, hone⟩ := Bool.and_eq_true_iff.mp hend
  obtain ⟨c, hc, hstatus⟩ := List.any_eq_true.mp hactivated
  have hstatus : c.status = .activated := by simpa using hstatus
  obtain ⟨source, hsource⟩ : ∃ source, source ∈ s.shared.sources :=
    List.exists_mem_of_length_pos (by simp at hone; omega)
  exact ⟨s, ⟨c, hc, hstatus, (hgate c hc (by simp [hstatus])).1, happroved c hc (by simp [hstatus])⟩,
    source, hsource, (hsources source hsource).1⟩

end Odirag.Discovery
