import Odirag.Discovery.Candidate
import Odirag.Foundations.Distinct
import Odirag.Foundations.Ink
import Odirag.Foundations.Run

/-!
# The unattended scan for content gaps

Reference: `_scan_gaps` of `backend/app/tasks/source_discovery.py`, `auto_run_is_due` of
`backend/app/repositories/source_discovery.py`, `create` and `mark_queue_failure` of
`backend/app/services/source_discovery.py` and the validator of the topics in
`backend/app/config.py`.

The scan takes one topic after the other and creates a discovery run for each one that is due. It
takes a step for each read, commit and message, and any of them may raise; meanwhile others create
runs of their own and serve the ones that are there. When the scan ends, its result accounts for
every topic and for every run it has stored, if no other scan stores runs meanwhile (`scan_accounts`).
Nothing keeps two scans apart. What a scan makes sure of among others is that the runs of a topic that
it has found are old enough, not those that another scan adds afterwards (`scan_paced`).

The gap is computed from the two counts of `content_gap`; how documents are counted, and the columns
of a run that the scan writes and does not read, are left out.
-/

namespace Odirag.Discovery.GapScan

open Crawler (strip)
open Documents (isSpace)

/-! ## Topics -/

/-- How Python folds the case of a text and how the database does. -/
structure Casing where
  /-- `str.casefold`. -/
  casefold : Text → Text
  /-- `lower` of SQL. -/
  lower : Text → Text

/-- `normalize_source_discovery_auto_topics`; `none` is a `ValueError`. -/
def normalizeAutoTopics (C : Casing) (value : List Text) : Option (List Text) :=
  let topics := (value.map strip).filter fun topic => topic ≠ []
  if topics.all fun topic => topic.length ≤ 255 then some (firstsBy C.casefold topics) else none

/-- A topic that the settings and `SourceDiscoveryRunCreate` accept as it is. -/
structure IsTopic (topic : Text) : Prop where
  stripped : strip topic = topic
  nonempty : topic ≠ []
  length_le : topic.length ≤ 255

/-- The settings of the scan. -/
structure AutoSettings (C : Casing) where
  enabled : Bool
  topics : List Text
  intervalSeconds : ℕ
  requiredSourceCount : ℕ
  requiredDocumentCount : ℕ
  isTopic : ∀ topic ∈ topics, IsTopic topic
  distinct : (topics.map C.casefold).Nodup

theorem strip_strip (text : Text) : strip (strip text) = strip text := by
  by_cases h : strip text = []
  · rw [h]
    rfl
  · exact (Text.tight_stripBy h).stripBy_eq

variable {C : Casing}

/-- What the validator returns are topics, no two of which differ in case only. -/
theorem normalizeAutoTopics_spec {value topics : List Text}
    (h : normalizeAutoTopics C value = some topics) :
    (∀ topic ∈ topics, IsTopic topic) ∧ (topics.map C.casefold).Nodup := by
  simp only [normalizeAutoTopics, Option.ite_none_right_eq_some, Option.some.injEq] at h
  obtain ⟨hlength, rfl⟩ := h
  refine ⟨fun topic htopic => ?_, nodup_firstsBy _ _⟩
  have hmem := mem_of_mem_firstsBy htopic
  have hle := List.all_eq_true.mp hlength topic hmem
  obtain ⟨hstripped, hne⟩ := List.mem_filter.mp hmem
  obtain ⟨item, -, rfl⟩ := List.mem_map.mp hstripped
  exact ⟨strip_strip item, by simpa using hne, by simpa using hle⟩

/-- The settings with the topics of a value that the validator accepts. -/
def AutoSettings.ofValue (C : Casing) (enabled : Bool) (value : List Text)
    (intervalSeconds requiredSourceCount requiredDocumentCount : ℕ) : Option (AutoSettings C) :=
  match h : normalizeAutoTopics C value with
  | none => none
  | some topics =>
      some ⟨enabled, topics, intervalSeconds, requiredSourceCount, requiredDocumentCount,
        (normalizeAutoTopics_spec h).1, (normalizeAutoTopics_spec h).2⟩

/-! ## The database -/

/-- The columns of `SourceDiscoveryRun` that the scan reads. Times are in microseconds. -/
structure Run where
  id : ℕ
  topic : Text
  status : RunStatus
  createdAt : ℤ
  createdBy : Text
deriving DecidableEq

/-- The runs, and the ids for which a message was sent. -/
structure Db where
  runs : List Run := []
  queue : List ℕ := []
  /-- The primary key. -/
  nodup : (runs.map (·.id)).Nodup := by simp
deriving DecidableEq

/-- The `created_by` of the scan. -/
def scheduler : Text := str "source-discovery-scheduler"

/-- `func.lower(func.trim(SourceDiscoveryRun.topic))`; `trim` removes spaces only. -/
def topicExpression (C : Casing) (run : Run) : Text :=
  C.lower (Text.stripBy (· == ' ') run.topic)

/-- The statuses of a run that is at work. -/
def isActive (status : RunStatus) : Bool :=
  decide (status ∈ [RunStatus.pending, .running, .awaitingApproval])

namespace Db

/-- The first statement of `auto_run_is_due`: is there an active run of the topic? -/
def activeRun (C : Casing) (db : Db) (normalizedTopic : Text) : Bool :=
  db.runs.any fun run => topicExpression C run = normalizedTopic && isActive run.status

/-- The second statement: when was the latest run of the topic created? -/
def latestCreatedAt (C : Casing) (db : Db) (normalizedTopic : Text) : Option ℤ :=
  ((db.runs.filter fun run => topicExpression C run = normalizedTopic).map (·.createdAt)).max?

/-- `get_run`. -/
def run? (db : Db) (id : ℕ) : Option Run := db.runs.find? fun run => run.id = id

/-- `create_run`. -/
def insert (db : Db) (run : Run) (h : run.id ∉ db.runs.map (·.id)) : Db where
  runs := db.runs ++ [run]
  queue := db.queue
  nodup := by
    rw [List.map_append, List.map_singleton]
    exact List.nodup_append.mpr ⟨db.nodup, List.nodup_singleton _, fun a ha b hb heq =>
      h ((heq.trans (List.mem_singleton.mp hb)) ▸ ha)⟩

/-- Write the status of a run. -/
def setStatus (db : Db) (id : ℕ) (status : RunStatus) : Db where
  runs := db.runs.map fun run => if run.id = id then { run with status := status } else run
  queue := db.queue
  nodup := by
    have hids : (db.runs.map fun run => if run.id = id then { run with status := status }
        else run).map (·.id) = db.runs.map (·.id) := by
      rw [List.map_map]
      refine List.map_congr_left fun run _ => ?_
      simp only [Function.comp_apply]
      split <;> rfl
    rw [hids]
    exact db.nodup

/-- A message for a run. -/
def send (db : Db) (id : ℕ) : Db := { db with queue := db.queue ++ [id] }

end Db

/-! ## The scan -/

/-- The counters of the scan. -/
structure Counters where
  created : ℕ := 0
  queued : ℕ := 0
  skipped : ℕ := 0
  noGap : ℕ := 0
  failed : ℕ := 0
deriving DecidableEq

namespace Counters

def skip (c : Counters) : Counters := { c with skipped := c.skipped + 1 }
def create (c : Counters) : Counters := { c with created := c.created + 1 }
def coverWithoutGap (c : Counters) : Counters := { c with noGap := c.noGap + 1 }
def enqueue (c : Counters) : Counters := { c with queued := c.queued + 1 }
def fail (c : Counters) : Counters := { c with failed := c.failed + 1 }

end Counters

/-- What the task returns. -/
structure Result where
  status : Text
  topics : ℕ
  counters : Counters
deriving DecidableEq

/-- How far the scan has come. `rest` are the topics after the one at hand; a topic is due at the
moment `now` that the scan has read from the clock. -/
inductive Scan
  | topics (rest : List Text) (c : Counters)
  | latest (topic : Text) (rest : List Text) (c : Counters)
  | gap (topic : Text) (now : ℤ) (rest : List Text) (c : Counters)
  | inserting (topic : Text) (now : ℤ) (gapDetected : Bool) (rest : List Text) (c : Counters)
  | refreshing (topic : Text) (id : ℕ) (rest : List Text) (c : Counters)
  | recording (topic : Text) (id : ℕ) (status : RunStatus) (rest : List Text) (c : Counters)
  | sending (topic : Text) (id : ℕ) (rest : List Text) (c : Counters)
  | marking (id : ℕ) (rest : List Text) (c : Counters)
  | saving (id : ℕ) (rest : List Text) (c : Counters)
  | saved (rest : List Text) (c : Counters)
  | rollback (rest : List Text) (c : Counters)
  | finished (result : Result)
  | aborted

/-- What happens at a step: the scan goes on, possibly with something from outside, or its statement
raises, or somebody else leaves another database. -/
inductive Act
  | go
  | fail
  | now (time : ℤ)
  | counted (sources documents : ℕ)
  | insert (id : ℕ) (createdAt : ℤ)
  | other (db : Db)

section

variable (A : AutoSettings C)

/-- `gap_detected` of `content_gap`. -/
def gapDetected (sources documents : ℕ) : Bool :=
  sources < A.requiredSourceCount || documents < A.requiredDocumentCount

/-- The task before its first read. -/
def start : Scan :=
  if !A.enabled || A.topics.isEmpty then .finished ⟨str "disabled", A.topics.length, {}⟩
  else .topics A.topics {}

/-- The end of the loop. -/
def conclude (c : Counters) : Result where
  status := if c.failed = 0 then str "completed" else str "partial_failed"
  topics := A.topics.length
  counters := c

/-- One step. -/
def next : Db × Scan → Act → Option (Db × Scan)
  | (_, s), .other db' => some (db', s)
  | (db, .topics [] c), .go => some (db, .finished (conclude A c))
  | (db, .topics (topic :: rest) c), .go =>
      let normalizedTopic := C.casefold (strip (strip topic))
      if normalizedTopic = [] ∨ db.activeRun C normalizedTopic then some (db, .topics rest c.skip)
      else some (db, .latest (strip topic) rest c)
  | (db, .topics (_ :: rest) c), .fail => some (db, .rollback rest c)
  | (db, .latest topic rest c), .now now =>
      match db.latestCreatedAt C (C.casefold (strip topic)) with
      | none => some (db, .gap topic now rest c)
      | some createdAt =>
          if createdAt > now - A.intervalSeconds * 1000000 then some (db, .topics rest c.skip)
          else some (db, .gap topic now rest c)
  | (db, .latest _ rest c), .fail => some (db, .rollback rest c)
  | (db, .gap topic now rest c), .counted sources documents =>
      -- the model of the request rejects a long topic
      if 255 < topic.length then some (db, .rollback rest c)
      else some (db, .inserting topic now (gapDetected A sources documents) rest c)
  | (db, .gap _ _ rest c), .fail => some (db, .rollback rest c)
  | (db, .inserting topic _ gapDetected rest c), .insert id createdAt =>
      if h : id ∈ db.runs.map (·.id) then none
      else
        let status := if gapDetected then RunStatus.pending else .noGap
        some (db.insert ⟨id, strip topic, status, createdAt, scheduler⟩ h,
          .refreshing topic id rest c)
  | (db, .inserting _ _ _ rest c), .fail => some (db, .rollback rest c)
  | (db, .refreshing topic id rest c), .go =>
      match db.run? id with
      | none => some (db, .rollback rest c)
      | some run => some (db, .recording topic id run.status rest c)
  | (db, .refreshing _ _ rest c), .fail => some (db, .rollback rest c)
  | (db, .recording topic id status rest c), .go =>
      if status = .pending then some (db, .sending topic id rest c.create)
      else some (db, .topics rest c.create.coverWithoutGap)
  -- the run stays pending without a message, and its topic active
  | (db, .recording _ _ _ rest c), .fail => some (db, .rollback rest c)
  | (db, .sending _ id rest c), .go =>
      some (db.send id, .topics rest c.enqueue)
  | (db, .sending _ id rest c), .fail => some (db, .marking id rest c)
  | (db, .marking id rest c), .go =>
      match db.run? id with
      | none => some (db, .rollback rest c)
      | some run =>
          if run.status = .pending then some (db, .saving id rest c)
          else some (db, .topics rest c.fail)
  | (db, .marking _ rest c), .fail => some (db, .rollback rest c)
  | (db, .saving id rest c), .go => some (db.setStatus id .failed, .saved rest c)
  | (db, .saving _ rest c), .fail => some (db, .rollback rest c)
  | (db, .saved rest c), .go => some (db, .topics rest c.fail)
  | (db, .saved rest c), .fail => some (db, .rollback rest c)
  | (db, .rollback rest c), .go => some (db, .topics rest c.fail)
  -- the rollback itself raises
  | (db, .rollback _ _), .fail => some (db, .aborted)
  | _, _ => none

end

/-! ## The others -/

/-- The run that the scan has stored and not yet counted. -/
def Scan.current : Scan → Option ℕ
  | .refreshing _ id _ _ | .recording _ id _ _ _ => some id
  | _ => none

/-- What others make of a run: its topic, its age and its author stay, nobody resumes a run without
a gap, and nobody takes up the run that the scan is about to queue. -/
structure Served (current : Option ℕ) (run run' : Run) : Prop where
  id : run'.id = run.id
  topic : run'.topic = run.topic
  createdAt : run'.createdAt = run.createdAt
  createdBy : run'.createdBy = run.createdBy
  noGap : run.status = .noGap → run'.status = .noGap
  pending : current = some run.id → run.status = .pending → run'.status = .pending

/-- What others make of the database: they serve the runs, add runs that are not the scheduler's,
and send messages. -/
structure Interferes (current : Option ℕ) (db db' : Db) : Prop where
  runs : ∃ (serve : Run → Run) (new : List Run), db'.runs = db.runs.map serve ++ new ∧
    (∀ run ∈ db.runs, Served current run (serve run)) ∧ ∀ run ∈ new, run.createdBy ≠ scheduler
  queue : db.queue ⊆ db'.queue

/-- The steps that are taken into account. -/
def Allowed : Db × Scan → Act → Prop
  | (db, s), .other db' => Interferes s.current db db'
  | _, _ => True

/-- The scan among the others, on a database that somebody has left. -/
def scanSystem (A : AutoSettings C) (db₀ : Db) : System (Db × Scan) Act :=
  .ofNext (next A) (· = (db₀, start A))

/-! ## The books of a scan -/

/-- The runs that the scheduler has added. -/
def added (db₀ db : Db) : List Run :=
  db.runs.filter fun run => run.createdBy = scheduler ∧ run.id ∉ db₀.runs.map (·.id)

/-- The run waits for nobody: there is no gap, or a message is on its way. -/
def Delivered (db : Db) (run : Run) : Prop := run.status = .noGap ∨ run.id ∈ db.queue

/-- Between two topics: every topic that was handled is in one of four counters, and the runs that
were added are those of the topics that were not skipped. -/
structure Books (db₀ db : Db) (handled : List Text) (c : Counters) : Prop where
  counted : c.skipped + c.noGap + c.queued + c.failed = handled.length
  recorded : c.noGap + c.queued ≤ c.created
  created : c.created ≤ (added db₀ db).length
  stored : (added db₀ db).length ≤ c.noGap + c.queued + c.failed
  topics : ((added db₀ db).map (·.topic)).Sublist handled
  known : ∀ run ∈ db₀.runs, run.id ∈ db.runs.map (·.id)
  delivered : c.failed = 0 → ∀ run ∈ added db₀ db, Delivered db run

/-- While the run `id` of `topic` is stored and not yet counted. -/
structure Storing (db₀ db : Db) (handled : List Text) (topic : Text) (id : ℕ) (c : Counters) :
    Prop where
  counted : c.skipped + c.noGap + c.queued + c.failed = handled.length
  recorded : c.noGap + c.queued ≤ c.created
  created : c.created + 1 ≤ (added db₀ db).length
  stored : (added db₀ db).length ≤ c.noGap + c.queued + c.failed + 1
  topics : ((added db₀ db).map (·.topic)).Sublist (handled ++ [topic])
  known : ∀ run ∈ db₀.runs, run.id ∈ db.runs.map (·.id)
  delivered : c.failed = 0 → ∀ run ∈ added db₀ db, run.id = id ∨ Delivered db run

variable {db₀ db db' : Db} {handled : List Text} {topic : Text} {id : ℕ} {c : Counters}
  {current : Option ℕ}

/-- The runs that were added are still there, and those with a message still have one. -/
structure Kept (db₀ db db' : Db) : Prop where
  topics : (added db₀ db').map (·.topic) = (added db₀ db).map (·.topic)
  known : ∀ id ∈ db.runs.map (·.id), id ∈ db'.runs.map (·.id)
  delivered : ∀ run' ∈ added db₀ db', ∃ run ∈ added db₀ db, run'.id = run.id ∧
    (Delivered db run → Delivered db' run')

theorem Kept.length (h : Kept db₀ db db') : (added db₀ db').length = (added db₀ db).length := by
  simpa using congrArg List.length h.topics

/-- Others keep the runs that the scan has added. -/
theorem Interferes.kept (h : Interferes current db db') : Kept db₀ db db' := by
  obtain ⟨serve, new, hruns, hserve, hnew⟩ := h.runs
  have hadded : added db₀ db' = (added db₀ db).map serve := by
    have hothers : new.filter (fun run => run.createdBy = scheduler ∧
        run.id ∉ db₀.runs.map (·.id)) = [] :=
      List.filter_eq_nil_iff.mpr fun run hrun => by simp [hnew run hrun]
    rw [added, hruns, List.filter_append, hothers, List.append_nil, List.filter_map]
    refine congrArg (List.map serve) (List.filter_congr fun run hrun => ?_)
    simp only [Function.comp_apply, (hserve run hrun).createdBy, (hserve run hrun).id]
  have hserved : ∀ run ∈ added db₀ db, Served current run (serve run) := fun run hrun =>
    hserve run (List.mem_of_mem_filter hrun)
  refine ⟨?_, fun id hid => ?_, fun run' hrun' => ?_⟩
  · rw [hadded, List.map_map]
    exact List.map_congr_left fun run hrun => (hserved run hrun).topic
  · obtain ⟨run, hrun, rfl⟩ := List.mem_map.mp hid
    rw [hruns]
    exact List.mem_map.mpr ⟨serve run, List.mem_append_left _ (List.mem_map_of_mem hrun),
      (hserve run hrun).id⟩
  · rw [hadded] at hrun'
    obtain ⟨run, hrun, rfl⟩ := List.mem_map.mp hrun'
    refine ⟨run, hrun, (hserved run hrun).id, fun hdelivered => ?_⟩
    rcases hdelivered with hstatus | hqueue
    · exact .inl ((hserved run hrun).noGap hstatus)
    · exact .inr ((hserved run hrun).id ▸ h.queue hqueue)

theorem Db.send_kept (db : Db) (id : ℕ) : Kept db₀ db (db.send id) := by
  refine ⟨rfl, fun _ hid => hid, fun run hrun => ⟨run, hrun, rfl, fun hdelivered => ?_⟩⟩
  exact hdelivered.imp_right (List.mem_append_left _)

theorem Books.kept (h : Books db₀ db handled c) (hkept : Kept db₀ db db') :
    Books db₀ db' handled c := by
  refine ⟨h.counted, h.recorded, hkept.length ▸ h.created, hkept.length ▸ h.stored,
    hkept.topics ▸ h.topics, fun run hrun => hkept.known _ (h.known run hrun),
    fun hfailed run' hrun' => ?_⟩
  obtain ⟨run, hrun, -, hdelivered⟩ := hkept.delivered run' hrun'
  exact hdelivered (h.delivered hfailed run hrun)

theorem Storing.kept (h : Storing db₀ db handled topic id c) (hkept : Kept db₀ db db') :
    Storing db₀ db' handled topic id c := by
  refine ⟨h.counted, h.recorded, hkept.length ▸ h.created, hkept.length ▸ h.stored,
    hkept.topics ▸ h.topics, fun run hrun => hkept.known _ (h.known run hrun),
    fun hfailed run' hrun' => ?_⟩
  obtain ⟨run, hrun, hid, hdelivered⟩ := hkept.delivered run' hrun'
  exact (h.delivered hfailed run hrun).imp hid.trans hdelivered

/-- A topic that is skipped. -/
theorem Books.skip (h : Books db₀ db handled c) (topic : Text) :
    Books db₀ db (handled ++ [topic]) c.skip := by
  have hcounted := h.counted
  refine ⟨?_, h.recorded, h.created, h.stored,
    h.topics.trans (List.sublist_append_left _ _), h.known, h.delivered⟩
  simp only [Counters.skip, List.length_append, List.length_singleton]
  omega

/-- A topic that fails before its run is stored. -/
theorem Books.fail (h : Books db₀ db handled c) (topic : Text) :
    Books db₀ db (handled ++ [topic]) c.fail := by
  have hcounted := h.counted
  have hstored := h.stored
  refine ⟨?_, h.recorded, h.created, ?_,
    h.topics.trans (List.sublist_append_left _ _), h.known, fun hfailed => ?_⟩
  · simp only [Counters.fail, List.length_append, List.length_singleton]
    omega
  · simp only [Counters.fail]
    omega
  · exact absurd hfailed (Nat.succ_ne_zero _)

/-- Once a failure is on the books, the statuses of the runs do not matter to them. -/
theorem Books.setStatus (h : Books db₀ db handled c.fail) (id : ℕ) (status : RunStatus) :
    Books db₀ (db.setStatus id status) handled c.fail := by
  have hadded : added db₀ (db.setStatus id status) =
      (added db₀ db).map fun run => if run.id = id then { run with status := status } else run := by
    rw [added, Db.setStatus, List.filter_map]
    refine congrArg (List.map _) (List.filter_congr fun run _ => ?_)
    simp only [Function.comp_apply]
    split <;> rfl
  have htopics : (added db₀ (db.setStatus id status)).map (·.topic) =
      (added db₀ db).map (·.topic) := by
    rw [hadded, List.map_map]
    refine List.map_congr_left fun run _ => ?_
    simp only [Function.comp_apply]
    split <;> rfl
  have hlength : (added db₀ (db.setStatus id status)).length = (added db₀ db).length := by
    rw [hadded, List.length_map]
  refine ⟨h.counted, h.recorded, hlength ▸ h.created, hlength ▸ h.stored, htopics ▸ h.topics,
    fun run hrun => ?_, fun hfailed => absurd hfailed (Nat.succ_ne_zero _)⟩
  obtain ⟨run', hrun', hid⟩ := List.mem_map.mp (h.known run hrun)
  refine List.mem_map.mpr ⟨_, List.mem_map_of_mem hrun', ?_⟩
  rw [← hid]
  split <;> rfl

/-- The run of a topic is stored. -/
theorem Books.insert (h : Books db₀ db handled c) {run : Run} (hself : run.createdBy = scheduler)
    (hid : run.id ∉ db.runs.map (·.id)) :
    Storing db₀ (db.insert run hid) handled run.topic run.id c := by
  have hnew : run.id ∉ db₀.runs.map (·.id) := fun hmem => by
    obtain ⟨old, hold, heq⟩ := List.mem_map.mp hmem
    exact hid (heq ▸ h.known old hold)
  have hadded : added db₀ (db.insert run hid) = added db₀ db ++ [run] := by
    rw [added, Db.insert, List.filter_append, List.filter_cons_of_pos (by simp [hself, hnew])]
    rfl
  have hcreated := h.created
  have hstored := h.stored
  refine ⟨h.counted, h.recorded, ?_, ?_, ?_, fun old hold => ?_, fun hfailed old hold => ?_⟩
  · rw [hadded, List.length_append, List.length_singleton]
    omega
  · rw [hadded, List.length_append, List.length_singleton]
    omega
  · rw [hadded, List.map_append, List.map_singleton]
    exact h.topics.append (List.Sublist.refl _)
  · obtain ⟨old', hold', heq⟩ := List.mem_map.mp (h.known old hold)
    exact heq ▸ List.mem_map_of_mem (List.mem_append_left _ hold')
  · rw [hadded] at hold
    rcases List.mem_append.mp hold with hold | hold
    · exact .inr (h.delivered hfailed old hold)
    · exact .inl (congrArg Run.id (List.mem_singleton.mp hold))

/-- The topic of a stored run is done: it was counted once, and no failure is kept quiet unless the
run is delivered. -/
theorem Storing.close (h : Storing db₀ db handled topic id c) {c' : Counters}
    (hcounted : c'.skipped + c'.noGap + c'.queued + c'.failed =
      c.skipped + c.noGap + c.queued + c.failed + 1)
    (hskipped : c'.skipped = c.skipped) (hrecorded : c'.noGap + c'.queued ≤ c'.created)
    (hcreated : c'.created ≤ c.created + 1)
    (hdelivered : c'.failed = 0 →
      c.failed = 0 ∧ ∀ run ∈ added db₀ db, run.id = id → Delivered db run) :
    Books db₀ db (handled ++ [topic]) c' := by
  have hbefore := h.counted
  have hstored := h.stored
  refine ⟨?_, hrecorded, hcreated.trans h.created, by omega, h.topics, h.known,
    fun hfailed run hrun => ?_⟩
  · rw [hcounted, hbefore, List.length_append, List.length_singleton]
  · obtain ⟨hzero, hrow⟩ := hdelivered hfailed
    exact (h.delivered hzero run hrun).elim (hrow run hrun) fun hother => hother

/-- A run that was stored fails before it is queued. -/
theorem Storing.fail (h : Storing db₀ db handled topic id c) :
    Books db₀ db (handled ++ [topic]) c.fail := by
  have hrecorded := h.recorded
  refine h.close ?_ rfl hrecorded (Nat.le_succ _) fun hfailed => absurd hfailed (Nat.succ_ne_zero _)
  simp only [Counters.fail]
  omega

theorem Storing.create_fail (h : Storing db₀ db handled topic id c) :
    Books db₀ db (handled ++ [topic]) c.create.fail := by
  have hrecorded := h.recorded
  refine h.close ?_ rfl (Nat.le_succ_of_le hrecorded) (le_refl _) fun hfailed =>
    absurd hfailed (Nat.succ_ne_zero _)
  simp only [Counters.fail, Counters.create]
  omega

/-- A run without a gap is done when it is stored. -/
theorem Storing.coverWithoutGap (h : Storing db₀ db handled topic id c)
    (hrow : ∃ run ∈ db.runs, run.id = id ∧ run.status = .noGap) :
    Books db₀ db (handled ++ [topic]) c.create.coverWithoutGap := by
  have hrecorded := h.recorded
  refine h.close ?_ rfl ?_ (le_refl _) fun hfailed => ⟨hfailed, fun run hrun hid => ?_⟩
  · simp only [Counters.coverWithoutGap, Counters.create]
    omega
  · simp only [Counters.coverWithoutGap, Counters.create]
    omega
  · obtain ⟨run', hrun', hid', hstatus⟩ := hrow
    have heq : run = run' := List.inj_on_of_nodup_map db.nodup (List.mem_of_mem_filter hrun) hrun'
      (hid.trans hid'.symm)
    exact .inl (heq ▸ hstatus)

/-- A run with a gap is done when its message is sent. -/
theorem Storing.enqueue (h : Storing db₀ db handled topic id c) :
    Books db₀ (db.send id) (handled ++ [topic]) c.create.enqueue := by
  have hrecorded := h.recorded
  refine (h.kept (Db.send_kept db id)).close ?_ rfl ?_ (le_refl _) fun hfailed =>
    ⟨hfailed, fun run _ hid => .inr ?_⟩
  · simp only [Counters.enqueue, Counters.create]
    omega
  · simp only [Counters.enqueue, Counters.create]
    omega
  · rw [hid]
    exact List.mem_append_right _ (List.mem_singleton_self id)

/-! ## Every step keeps the books -/

/-- The topics that a scan goes through. -/
def taken (A : AutoSettings C) : List Text := if A.enabled then A.topics else []

/-- What is on the books, wherever the scan is. After an exception the failure counts already. -/
def Accounted (A : AutoSettings C) (db₀ db : Db) : Scan → Prop
  | .topics rest c => ∃ handled, taken A = handled ++ rest ∧ Books db₀ db handled c
  | .latest topic rest c | .gap topic _ rest c | .inserting topic _ _ rest c =>
      ∃ handled, taken A = handled ++ topic :: rest ∧ Books db₀ db handled c
  | .refreshing topic id rest c =>
      ∃ handled, taken A = handled ++ topic :: rest ∧ Storing db₀ db handled topic id c ∧
        ∃ run ∈ db.runs, run.id = id ∧ (run.status = .pending ∨ run.status = .noGap)
  | .recording topic id status rest c =>
      ∃ handled, taken A = handled ++ topic :: rest ∧ Storing db₀ db handled topic id c ∧
        (status ≠ .pending → ∃ run ∈ db.runs, run.id = id ∧ run.status = .noGap)
  | .sending topic id rest c =>
      ∃ handled before, taken A = handled ++ topic :: rest ∧ c = before.create ∧
        Storing db₀ db handled topic id before
  | .marking _ rest c | .saving _ rest c | .saved rest c | .rollback rest c =>
      ∃ handled, taken A = handled ++ rest ∧ Books db₀ db handled c.fail
  | .finished result =>
      (result.status = str "partial_failed" ↔ result.counters.failed ≠ 0) ∧
        Books db₀ db (taken A) result.counters
  | .aborted => True

variable {A : AutoSettings C} {s s' : Scan} {a : Act}

/-- Others keep the books. -/
theorem Accounted.other (h : Accounted A db₀ db s) (hother : Interferes s.current db db') :
    Accounted A db₀ db' s := by
  have hkept : Kept db₀ db db' := hother.kept
  obtain ⟨serve, new, hruns, hserve, -⟩ := hother.runs
  have hmem : ∀ run ∈ db.runs, serve run ∈ db'.runs := fun run hrun => by
    rw [hruns]
    exact List.mem_append_left _ (List.mem_map_of_mem hrun)
  cases s with
  | topics | latest | gap | inserting | marking | saving | saved | rollback =>
      obtain ⟨handled, htaken, hbooks⟩ := h
      exact ⟨handled, htaken, hbooks.kept hkept⟩
  | refreshing topic id rest c =>
      obtain ⟨handled, htaken, hstoring, run, hrun, rfl, hstatus⟩ := h
      have hserved := hserve run hrun
      exact ⟨handled, htaken, hstoring.kept hkept, serve run, hmem run hrun, hserved.id,
        hstatus.imp (hserved.pending rfl) hserved.noGap⟩
  | recording topic id status rest c =>
      obtain ⟨handled, htaken, hstoring, hstatus⟩ := h
      refine ⟨handled, htaken, hstoring.kept hkept, fun hne => ?_⟩
      obtain ⟨run, hrun, rfl, hgap⟩ := hstatus hne
      exact ⟨serve run, hmem run hrun, (hserve run hrun).id, (hserve run hrun).noGap hgap⟩
  | sending topic id rest c =>
      obtain ⟨handled, before, htaken, hc, hstoring⟩ := h
      exact ⟨handled, before, htaken, hc, hstoring.kept hkept⟩
  | finished result => exact ⟨h.1, h.2.kept hkept⟩
  | aborted => trivial

theorem taken_snoc {rest : List Text} (h : taken A = handled ++ topic :: rest) :
    taken A = handled ++ [topic] ++ rest := by
  rw [h, List.append_assoc, List.singleton_append]

theorem strip_of_mem {rest : List Text} (h : taken A = handled ++ topic :: rest) :
    strip topic = topic := by
  have hmem : topic ∈ taken A := by
    rw [h]
    exact List.mem_append_right _ List.mem_cons_self
  unfold taken at hmem
  split at hmem
  · exact (A.isTopic topic hmem).stripped
  · cases hmem

/-- An exception keeps the books. -/
theorem Accounted.raised (h : Accounted A db₀ db s)
    (hstep : next A (db, s) .fail = some (db', s')) : Accounted A db₀ db' s' := by
  cases s with
  | topics rest c =>
      cases rest with
      | nil => cases hstep
      | cons topic rest =>
          cases hstep
          obtain ⟨handled, htaken, hbooks⟩ := h
          exact ⟨_, taken_snoc htaken, hbooks.fail topic⟩
  | latest topic rest c | gap topic now rest c | inserting topic now detected rest c =>
      cases hstep
      obtain ⟨handled, htaken, hbooks⟩ := h
      exact ⟨_, taken_snoc htaken, hbooks.fail topic⟩
  | refreshing topic id rest c | recording topic id status rest c =>
      cases hstep
      obtain ⟨handled, htaken, hstoring, -⟩ := h
      exact ⟨_, taken_snoc htaken, hstoring.fail⟩
  | sending topic id rest c =>
      cases hstep
      obtain ⟨handled, before, htaken, rfl, hstoring⟩ := h
      exact ⟨_, taken_snoc htaken, hstoring.create_fail⟩
  | marking | saving | saved =>
      cases hstep
      exact h
  | rollback =>
      cases hstep
      trivial
  | finished | aborted => cases hstep

/-- A statement of the scan keeps the books. -/
theorem Accounted.went (h : Accounted A db₀ db s)
    (hstep : next A (db, s) .go = some (db', s')) : Accounted A db₀ db' s' := by
  cases s with
  | topics rest c =>
      cases rest with
      | nil =>
          cases hstep
          obtain ⟨handled, htaken, hbooks⟩ := h
          rw [List.append_nil] at htaken
          refine ⟨?_, htaken ▸ hbooks⟩
          simp only [conclude]
          split
          · next hzero =>
              simp only [hzero, ne_eq, not_true_eq_false, iff_false]
              decide
          · next hne => simp [hne]
      | cons topic rest =>
          obtain ⟨handled, htaken, hbooks⟩ := h
          simp only [next, strip_of_mem htaken] at hstep
          split at hstep
          · cases hstep
            exact ⟨_, taken_snoc htaken, hbooks.skip topic⟩
          · cases hstep
            exact ⟨handled, htaken, hbooks⟩
  | refreshing topic id rest c =>
      obtain ⟨handled, htaken, hstoring, run, hrun, hid, hstatus⟩ := h
      simp only [next] at hstep
      split at hstep
      · cases hstep
        exact ⟨_, taken_snoc htaken, hstoring.fail⟩
      · next found hfound =>
          cases hstep
          have hfoundId : found.id = id := by simpa using List.find?_some hfound
          have heq : found = run := List.inj_on_of_nodup_map (Db.nodup _)
            (List.mem_of_find?_eq_some hfound) hrun (hfoundId.trans hid.symm)
          exact ⟨handled, htaken, hstoring, fun hne =>
            ⟨run, hrun, hid, hstatus.resolve_left (heq ▸ hne)⟩⟩
  | recording topic id status rest c =>
      obtain ⟨handled, htaken, hstoring, hstatus⟩ := h
      simp only [next] at hstep
      split at hstep
      · cases hstep
        exact ⟨handled, c, htaken, rfl, hstoring⟩
      · next hne =>
          cases hstep
          exact ⟨_, taken_snoc htaken, hstoring.coverWithoutGap (hstatus hne)⟩
  | sending topic id rest c =>
      cases hstep
      obtain ⟨handled, before, htaken, rfl, hstoring⟩ := h
      exact ⟨_, taken_snoc htaken, hstoring.enqueue⟩
  | marking id rest c =>
      simp only [next] at hstep
      split at hstep
      · cases hstep
        exact h
      · split at hstep <;> cases hstep <;> exact h
  | saving id rest c =>
      cases hstep
      obtain ⟨handled, htaken, hbooks⟩ := h
      exact ⟨handled, htaken, hbooks.setStatus id .failed⟩
  | saved | rollback =>
      cases hstep
      exact h
  | latest | gap | inserting | finished | aborted => cases hstep

/-- A step keeps the books. -/
theorem Accounted.step (h : Accounted A db₀ db s) (hallowed : Allowed (db, s) a)
    (hstep : next A (db, s) a = some (db', s')) : Accounted A db₀ db' s' := by
  cases a with
  | go => exact h.went hstep
  | fail => exact h.raised hstep
  | now now =>
      cases s with
      | latest topic rest c =>
          obtain ⟨handled, htaken, hbooks⟩ := h
          simp only [next] at hstep
          split at hstep
          · cases hstep
            exact ⟨handled, htaken, hbooks⟩
          · split at hstep
            · cases hstep
              exact ⟨_, taken_snoc htaken, hbooks.skip topic⟩
            · cases hstep
              exact ⟨handled, htaken, hbooks⟩
      | topics rest c => cases rest <;> cases hstep
      | _ => cases hstep
  | counted sources documents =>
      cases s with
      | gap topic now rest c =>
          obtain ⟨handled, htaken, hbooks⟩ := h
          simp only [next] at hstep
          split at hstep
          · cases hstep
            exact ⟨_, taken_snoc htaken, hbooks.fail topic⟩
          · cases hstep
            exact ⟨handled, htaken, hbooks⟩
      | topics rest c => cases rest <;> cases hstep
      | _ => cases hstep
  | insert id createdAt =>
      cases s with
      | inserting topic now detected rest c =>
          obtain ⟨handled, htaken, hbooks⟩ := h
          simp only [next, strip_of_mem htaken] at hstep
          split at hstep
          · cases hstep
          · next hid =>
              cases hstep
              refine ⟨handled, htaken, hbooks.insert rfl hid, _, List.mem_append_right _
                (List.mem_singleton_self _), rfl, ?_⟩
              cases detected with
              | false => exact .inr rfl
              | true => exact .inl rfl
      | topics rest c => cases rest <;> cases hstep
      | _ => cases hstep
  | other db'' =>
      simp only [next, Option.some.injEq, Prod.mk.injEq] at hstep
      obtain ⟨rfl, rfl⟩ := hstep
      exact h.other hallowed

/-- What holds when the scan starts and is kept by every step. -/
theorem invariant {I : Db → Scan → Prop} {tr : List ((Db × Scan) × Act)}
    (h : (scanSystem A db₀).Run (fun _ s a _ => Allowed s a) tr (db, s)) (hstart : I db₀ (start A))
    (hkeep : ∀ {db db' s s' a}, I db s → Allowed (db, s) a → next A (db, s) a = some (db', s') →
      I db' s') : I db s := by
  refine h.invariant (I := fun _ w => I w.1 w.2) ?_ ?_
  · rintro w rfl
    exact hstart
  · rintro - ⟨db, s⟩ a ⟨db', s'⟩ - hw hallowed hstep
    exact hkeep hw hallowed hstep

/-- The books are in order when the scan starts. -/
theorem accounted_start : Accounted A db₀ db₀ (start A) := by
  have hbooks : Books db₀ db₀ [] {} := by
    have hadded : added db₀ db₀ = [] :=
      List.filter_eq_nil_iff.mpr fun run hrun => by
        simpa using fun _ => ⟨run, hrun, rfl⟩
    refine ⟨rfl, le_refl _, ?_, ?_, ?_, fun run hrun => List.mem_map_of_mem hrun, ?_⟩ <;>
      simp [hadded]
  simp only [start, Bool.or_eq_true, Bool.not_eq_true', List.isEmpty_iff]
  split
  · next hidle =>
      have htaken : taken A = [] := by
        rcases hidle with hdisabled | hempty
        · simp [taken, hdisabled]
        · simp [taken, hempty]
      refine ⟨?_, htaken ▸ hbooks⟩
      simp only [ne_eq, not_true_eq_false, iff_false]
      decide
  · next hbusy =>
      have henabled : A.enabled = true := by simpa using fun h => hbusy (.inl h)
      exact ⟨[], by simp [taken, henabled], hbooks⟩

/-- However the statements of a scan end, as long as no other scan adds runs and nobody takes up the
run that is about to be queued, the result of the scan accounts for every topic: it was skipped, had no
gap, was queued or failed. The runs that the scan has added have different topics. A scan that reports
no failure has counted all of them, and each of them has no gap or was sent to the queue. -/
theorem scan_accounts {tr : List ((Db × Scan) × Act)} {result : Result}
    (h : (scanSystem A db₀).Run (fun _ s a _ => Allowed s a) tr (db, .finished result)) :
    result.counters.skipped + result.counters.noGap + result.counters.queued +
        result.counters.failed = (taken A).length ∧
      result.counters.noGap + result.counters.queued ≤ result.counters.created ∧
      result.counters.created ≤ (added db₀ db).length ∧
      (added db₀ db).length ≤
        result.counters.noGap + result.counters.queued + result.counters.failed ∧
      ((added db₀ db).map fun run => C.casefold run.topic).Nodup ∧
      (result.status = str "partial_failed" ↔ result.counters.failed ≠ 0) ∧
      (result.counters.failed = 0 →
        result.counters.created = (added db₀ db).length ∧
          ∀ run ∈ added db₀ db, run.status = .noGap ∨ run.id ∈ db.queue) := by
  obtain ⟨hstatus, hbooks⟩ : Accounted A db₀ db (.finished result) :=
    invariant h accounted_start Accounted.step
  have hrecorded := hbooks.recorded
  have hcreated := hbooks.created
  have hstored := hbooks.stored
  have hdistinct : ((taken A).map C.casefold).Nodup := by
    unfold taken
    split
    · exact A.distinct
    · exact List.nodup_nil
  have htopics : (((added db₀ db).map (·.topic)).map C.casefold).Nodup :=
    hdistinct.sublist (hbooks.topics.map C.casefold)
  rw [List.map_map] at htopics
  exact ⟨hbooks.counted, hrecorded, hcreated, hstored, htopics, hstatus, fun hfailed =>
    ⟨by omega, hbooks.delivered hfailed⟩⟩

/-! ## Every step keeps the distance -/

/-- What others leave of the runs: their topics and ages. They may add runs, as another scan does. -/
structure KeepsRuns (db db' : Db) : Prop where
  runs : ∃ (serve : Run → Run) (new : List Run), db'.runs = db.runs.map serve ++ new ∧
    ∀ run ∈ db.runs, (serve run).id = run.id ∧ (serve run).topic = run.topic ∧
      (serve run).createdAt = run.createdAt

/-- The steps among other scans. -/
def Among : Db × Scan → Act → Prop
  | (db, _), .other db' => KeepsRuns db db'
  | _, _ => True

/-- The runs of the topic that were there at the check are still there, and old enough. -/
structure Old (A : AutoSettings C) (topic : Text) (now : ℤ) (checked db : Db) : Prop where
  known : ∀ id ∈ checked.runs.map (·.id), id ∈ db.runs.map (·.id)
  old : ∀ run ∈ db.runs, run.id ∈ checked.runs.map (·.id) →
    topicExpression C run = C.casefold topic → run.createdAt + A.intervalSeconds * 1000000 ≤ now

/-- Once a topic is found to be due, the runs of it that were found are old enough. -/
def Paced (A : AutoSettings C) (tr : List ((Db × Scan) × Act)) (db : Db) : Scan → Prop
  | .latest topic _ _ => strip topic = topic
  | .gap topic now _ _ | .inserting topic now _ _ _ =>
      ∃ checked rest c, ((checked, .latest topic rest c), .now now) ∈ tr ∧ Old A topic now checked db
  | _ => True

variable {tr : List ((Db × Scan) × Act)} {checked : Db} {now : ℤ}

/-- What others add was not there at the check. -/
theorem Old.other (h : Old A topic now checked db) (hother : KeepsRuns db db') :
    Old A topic now checked db' := by
  obtain ⟨serve, new, hruns, hserve⟩ := hother.runs
  have hids : (db.runs.map serve).map (·.id) = db.runs.map (·.id) := by
    rw [List.map_map]
    exact List.map_congr_left fun run hrun => (hserve run hrun).1
  have hnodup := db'.nodup
  rw [hruns, List.map_append, hids, List.nodup_append] at hnodup
  refine ⟨fun id hid => ?_, fun run' hrun' hid hkey => ?_⟩
  · rw [hruns, List.map_append, hids]
    exact List.mem_append_left _ (h.known id hid)
  · rw [hruns] at hrun'
    rcases List.mem_append.mp hrun' with hold | hnew
    · obtain ⟨run, hrun, rfl⟩ := List.mem_map.mp hold
      obtain ⟨hsame, htopic, hcreated⟩ := hserve run hrun
      rw [hcreated]
      refine h.old run hrun (hsame ▸ hid) ?_
      rwa [topicExpression, htopic] at hkey
    · exact absurd rfl (hnodup.2.2 _ (h.known _ hid) _ (List.mem_map_of_mem hnew))

/-- What the second statement of `auto_run_is_due` says about the runs of the topic. -/
theorem createdAt_le_of_latest {key : Text} {bound : ℤ}
    (h : ∀ latest, db.latestCreatedAt C key = some latest → latest ≤ bound) {run : Run}
    (hrun : run ∈ db.runs) (hkey : topicExpression C run = key) : run.createdAt ≤ bound := by
  have hmem : run.createdAt ∈
      (db.runs.filter fun run => topicExpression C run = key).map (·.createdAt) :=
    List.mem_map_of_mem (List.mem_filter.mpr ⟨hrun, by simpa using hkey⟩)
  cases hlatest : db.latestCreatedAt C key with
  | none =>
      rw [List.max?_eq_none_iff.mp hlatest] at hmem
      cases hmem
  | some latest => exact ((List.max?_eq_some_iff.mp hlatest).2 _ hmem).trans (h latest hlatest)

/-- A topic that passes the check has old runs only. -/
theorem Old.of_check (htopic : strip topic = topic)
    (h : ∀ latest, db.latestCreatedAt C (C.casefold (strip topic)) = some latest →
      ¬ latest > now - A.intervalSeconds * 1000000) : Old A topic now db db := by
  refine ⟨fun _ hid => hid, fun run hrun _ hkey => ?_⟩
  rw [htopic] at h
  have hle : run.createdAt ≤ now - A.intervalSeconds * 1000000 :=
    createdAt_le_of_latest (fun latest hlatest => not_lt.mp (h latest hlatest)) hrun hkey
  omega

/-- A step keeps the distance. -/
theorem Paced.step (h : Paced A tr db s) (hkept : Among (db, s) a)
    (hstep : next A (db, s) a = some (db', s')) : Paced A (((db, s), a) :: tr) db' s' := by
  cases a with
  | other db'' =>
      simp only [next, Option.some.injEq, Prod.mk.injEq] at hstep
      obtain ⟨rfl, rfl⟩ := hstep
      cases s with
      | gap topic now rest c | inserting topic now detected rest c =>
          obtain ⟨checked, rest', c', hmem, hold⟩ := h
          exact ⟨checked, rest', c', List.mem_cons_of_mem _ hmem, hold.other hkept⟩
      | _ => exact h
  | fail =>
      cases s with
      | topics rest c =>
          cases rest with
          | nil => cases hstep
          | cons topic rest =>
              cases hstep
              trivial
      | finished | aborted => cases hstep
      | _ =>
          cases hstep
          trivial
  | now now =>
      cases s with
      | latest topic rest c =>
          simp only [next] at hstep
          split at hstep
          · next hnone =>
              cases hstep
              refine ⟨db, rest, c, List.mem_cons_self, Old.of_check h fun latest hlatest => ?_⟩
              rw [hnone] at hlatest
              cases hlatest
          · next createdAt hsome =>
              split at hstep
              · cases hstep
                trivial
              · next hold =>
                  cases hstep
                  refine ⟨db, rest, c, List.mem_cons_self, Old.of_check h fun latest hlatest => ?_⟩
                  obtain rfl := Option.some.inj (hsome.symm.trans hlatest)
                  exact hold
      | topics rest c => cases rest <;> cases hstep
      | _ => cases hstep
  | counted sources documents =>
      cases s with
      | gap topic now rest c =>
          obtain ⟨checked, rest', c', hmem, hold⟩ := h
          simp only [next] at hstep
          split at hstep
          · cases hstep
            trivial
          · cases hstep
            exact ⟨checked, rest', c', List.mem_cons_of_mem _ hmem, hold⟩
      | topics rest c => cases rest <;> cases hstep
      | _ => cases hstep
  | insert id createdAt =>
      cases s with
      | inserting topic now detected rest c =>
          simp only [next] at hstep
          split at hstep <;> cases hstep
          trivial
      | topics rest c => cases rest <;> cases hstep
      | _ => cases hstep
  | go =>
      cases s with
      | topics rest c =>
          cases rest with
          | nil =>
              cases hstep
              trivial
          | cons topic rest =>
              simp only [next] at hstep
              split at hstep <;> cases hstep
              · trivial
              · exact strip_strip topic
      | refreshing | recording =>
          simp only [next] at hstep
          split at hstep <;> cases hstep <;> trivial
      | marking =>
          simp only [next] at hstep
          split at hstep
          · cases hstep
            trivial
          · split at hstep <;> cases hstep <;> trivial
      | sending | saving | saved | rollback =>
          cases hstep
          trivial
      | latest | gap | inserting | finished | aborted => cases hstep

/-- When a scan is about to store a run of a topic, it has looked for the latest one and read the clock
before. Whatever the others have done since, the runs of the topic that it found there, by whomever,
were created at least the interval before that moment. The database must fold their topic as Python
does: a topic with a letter that `casefold` changes and `lower` does not is not recognised. -/
theorem scan_paced {detected : Bool} {rest : List Text}
    (h : (scanSystem A db₀).Run (fun _ s a _ => Among s a) tr
      (db, .inserting topic now detected rest c)) :
    ∃ checked rest' c', ((checked, .latest topic rest' c'), .now now) ∈ tr ∧
      ∀ run ∈ db.runs, run.id ∈ checked.runs.map (·.id) →
        C.casefold run.topic = C.casefold topic →
        topicExpression C run = C.casefold run.topic →
        run.createdAt + A.intervalSeconds * 1000000 ≤ now := by
  obtain ⟨checked, rest', c', hmem, hold⟩ : Paced A tr db (.inserting topic now detected rest c) := by
    refine h.invariant (I := fun tr w => Paced A tr w.1 w.2) ?_ ?_
    · rintro w rfl
      simp only [start]
      split <;> trivial
    · rintro tr ⟨db, s⟩ a ⟨db', s'⟩ - hpaced hkept hstep
      exact Paced.step hpaced hkept hstep
  exact ⟨checked, rest', c', hmem, fun run hrun hid htopic hfold =>
    hold.old run hrun hid (hfold.trans htopic)⟩

/-! ## One topic -/

def asciiCasing : Casing := ⟨List.map Char.toLower, List.map Char.toLower⟩

def oneTopic : AutoSettings asciiCasing where
  enabled := true
  topics := [str "AI"]
  intervalSeconds := 300
  requiredSourceCount := 1
  requiredDocumentCount := 3
  isTopic := by
    simp only [List.mem_singleton, forall_eq]
    exact ⟨by decide, by decide, by decide⟩
  distinct := List.nodup_singleton _

/-- The scheduler has had the topic before, and the run has failed. -/
def failedRun : Run := ⟨1, str "ai", .failed, 0, scheduler⟩

def afterFailure : Db where
  runs := [failedRun]

/-- The topic is due, its run is stored, and the queue takes the message. -/
def queuedTopic : List Act :=
  [.go, .now 300000000, .counted 0 0, .insert 2 300000000, .go, .go, .go, .go]

/-- Nobody interferes. -/
theorem allowed_of_mem {acts : List Act} (h : ∀ db, .other db ∉ acts) {w : Db × Scan} {a : Act}
    (ha : a ∈ acts) : Allowed w a := by
  cases a with
  | other db => exact absurd ha (h db)
  | _ => trivial

theorem run_of_exec (acts : List Act) (w : Db × Scan)
    (h : System.exec (next oneTopic) (afterFailure, start oneTopic) acts = some w)
    (hacts : ∀ db, .other db ∉ acts) :
    ∃ tr, (scanSystem oneTopic afterFailure).Run (fun _ s a _ => Allowed s a) tr w :=
  ⟨_, _, rfl, System.exec_path_of (C := Allowed) h fun _ he =>
    allowed_of_mem hacts (System.mem_traceOf he)⟩

theorem scan_accounts_queuedTopic :
    ∃ tr db result, (scanSystem oneTopic afterFailure).Run (fun _ s a _ => Allowed s a) tr
        (db, .finished result) ∧ result.counters.queued = 1 ∧
      ∀ run ∈ added afterFailure db, run.status = .noGap ∨ run.id ∈ db.queue := by
  obtain ⟨tr, hrun⟩ := run_of_exec queuedTopic
    (⟨[failedRun, ⟨2, str "AI", .pending, 300000000, scheduler⟩], [2], by decide⟩,
      .finished ⟨str "completed", 1, { created := 1, queued := 1 }⟩) rfl
    (by simp [queuedTopic])
  exact ⟨tr, _, _, hrun, rfl, ((scan_accounts hrun).2.2.2.2.2.2 rfl).2⟩

/-- The run that another scan stores meanwhile. -/
def otherRun : Run := ⟨2, str "AI", .pending, 299000000, scheduler⟩

/-- The database with it. -/
def withOther : Db where
  runs := [failedRun, otherRun]
  nodup := by decide

/-- The topic is found to be due, and then another scan is faster. -/
def overtaken : List Act := [.go, .now 300000000, .other withOther, .counted 0 0]

/-- The run of the other scan is young, the one that was found is not. -/
theorem scan_paced_overtaken :
    ∃ tr now, (scanSystem oneTopic afterFailure).Run (fun _ s a _ => Among s a) tr
        (withOther, .inserting (str "AI") now true [] {}) ∧
      now < otherRun.createdAt + oneTopic.intervalSeconds * 1000000 ∧
      ∃ checked rest c, ((checked, .latest (str "AI") rest c), .now now) ∈ tr ∧
        ∀ run ∈ withOther.runs, run.id ∈ checked.runs.map (·.id) →
          asciiCasing.casefold run.topic = asciiCasing.casefold (str "AI") →
          topicExpression asciiCasing run = asciiCasing.casefold run.topic →
          run.createdAt + oneTopic.intervalSeconds * 1000000 ≤ now := by
  have hadds : KeepsRuns afterFailure withOther :=
    ⟨id, [otherRun], rfl, fun run _ => ⟨rfl, rfl, rfl⟩⟩
  have htrace : System.traceOf (next oneTopic) (afterFailure, start oneTopic) overtaken =
      [((withOther, .gap (str "AI") 300000000 [] {}), .counted 0 0),
        ((afterFailure, .gap (str "AI") 300000000 [] {}), .other withOther),
        ((afterFailure, .latest (str "AI") [] {}), .now 300000000),
        ((afterFailure, .topics [str "AI"] {}), .go)] := rfl
  have hrun : (scanSystem oneTopic afterFailure).Run (fun _ s a _ => Among s a)
      (System.traceOf (next oneTopic) (afterFailure, start oneTopic) overtaken)
      (withOther, .inserting (str "AI") 300000000 true [] {}) := by
    refine ⟨_, rfl, @System.exec_path_of _ _ _ _ Among _ _ overtaken rfl ?_⟩
    rw [htrace]
    simp only [List.forall_mem_cons]
    exact ⟨trivial, hadds, trivial, trivial, fun _ h => absurd h List.not_mem_nil⟩
  exact ⟨_, _, hrun, by decide, scan_paced hrun⟩

end Odirag.Discovery.GapScan
