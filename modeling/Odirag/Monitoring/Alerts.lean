import Odirag.Foundations.Orm
import Odirag.Foundations.Except
import Odirag.Foundations.Run
import Odirag.Monitoring.Candidates
import Mathlib.Data.Rat.Defs

/-!
# Alerts

Reference: `MonitoringService` of `backend/app/services/observability.py`, with the alert queries
of `backend/app/repositories/observability.py`.

Every call works in a session of its own, which flushes nothing before a query: a query selects by
the stored values, and what it returns are the objects of the session with the values assigned to
them. After a refresh the monitor's alerts that are not resolved are those of the active
conditions (`MonitoringService.alerts_mirror`).
-/

namespace Odirag.Monitoring

/-- `Alert.status`. -/
inductive AlertStatus
  | opened
  | acknowledged
  | resolved
deriving DecidableEq, Repr

/-- `Alert`. -/
structure Alert (F D : Type*) where
  id : ℕ
  alertKey : Text
  alertType : Text
  severity : Severity
  status : AlertStatus
  component : Text
  message : Text
  observedValue : D
  thresholdValue : D
  details : Details F
  occurrenceCount : ℕ
  firstSeenAt : ℕ
  lastSeenAt : ℕ
  acknowledgedAt : Option ℕ := none
  resolvedAt : Option ℕ := none

/-- How a call fails: `NotFoundError`, `MultipleResultsFound`, or a statement that the database
refuses. -/
inductive AlertError
  | notFound (resource : String) (identifier : ℕ)
  | multipleResults
  | database
deriving DecidableEq, Repr

section

variable (F D : Type*)

/-- The table of alerts. -/
structure Db where
  alerts : List (Alert F D) := []
  nextId : ℕ := 1

/-- The table as a session sees it. -/
structure Session where
  rows : List (Held (Alert F D))
  nextId : ℕ

end

variable {F D : Type*}

/-! ## The session -/

/-- A new session. -/
def Db.begin (db : Db F D) : Session F D := ⟨db.alerts.map Held.fresh, db.nextId⟩

namespace Session

/-- `flush`: the rows are written if their keys are unique and the columns take the values. -/
def flush (accepts : Alert F D → Bool) (s : Session F D) : Except AlertError (Session F D) :=
  if (s.rows.map fun h => h.current.alertKey).Nodup ∧ s.rows.all (fun h => accepts h.current) then
    .ok { s with rows := s.rows.map Held.flush }
  else .error .database

/-- `commit`. -/
def commit (accepts : Alert F D → Bool) (s : Session F D) : Except AlertError (Db F D) :=
  (s.flush accepts).map fun s => ⟨s.rows.map Held.current, s.nextId⟩

/-- `get_alert`. -/
def getAlert (s : Session F D) (id : ℕ) : Option (Alert F D) :=
  (s.rows.map Held.current).find? fun a => a.id = id

/-- `get_alert_by_key`. -/
def getAlertByKey (s : Session F D) (key : Text) : Except AlertError (Option (Alert F D)) :=
  match s.rows.filter fun h => h.loaded.alertKey = key with
  | [] => .ok none
  | [h] => .ok (some h.current)
  | _ => .error .multipleResults

/-- `add_alert`: the object is stored with the next id, and everything is flushed. -/
def addAlert (accepts : Alert F D → Bool) (s : Session F D) (alert : ℕ → Alert F D) :
    Except AlertError (Session F D) :=
  flush accepts ⟨s.rows ++ [Held.fresh (alert s.nextId)], s.nextId + 1⟩

/-- Assign attributes of the object with an id. -/
def modify (s : Session F D) (id : ℕ) (f : Alert F D → Alert F D) : Session F D :=
  { s with rows := s.rows.map fun h => if h.current.id = id then h.assign f else h }

end Session

/-- `list_alerts`. -/
def listAlerts (db : Db F D) (status : Option AlertStatus) (severity : Option Severity)
    (limit : ℕ) : List (Alert F D) :=
  let selected := db.alerts.filter fun a =>
    status.all (a.status = ·) && severity.all (a.severity = ·)
  (selected.insertionSort fun a b =>
    b.lastSeenAt < a.lastSeenAt ∨ b.lastSeenAt = a.lastSeenAt ∧ b.id ≤ a.id).take limit

/-! ## The service -/

section

variable (A : Arithmetic F D)

/-- The alert of a condition that was not active before. -/
def newAlert (now : ℕ) (candidate : AlertCandidate F) (id : ℕ) : Alert F D where
  id := id
  alertKey := candidate.alertKey
  alertType := candidate.alertType
  severity := candidate.severity
  status := .opened
  component := candidate.component
  message := candidate.message
  observedValue := A.toDecimal candidate.observedValue
  thresholdValue := A.toDecimal candidate.thresholdValue
  details := candidate.details
  occurrenceCount := 1
  firstSeenAt := now
  lastSeenAt := now

/-- What an active condition assigns to its alert. -/
def updateAlert (now : ℕ) (candidate : AlertCandidate F) (alert : Alert F D) : Alert F D :=
  let alert := { alert with
    severity := candidate.severity
    component := candidate.component
    message := candidate.message
    observedValue := A.toDecimal candidate.observedValue
    thresholdValue := A.toDecimal candidate.thresholdValue
    details := candidate.details
    occurrenceCount := alert.occurrenceCount + 1
    lastSeenAt := now }
  if alert.status = .resolved then
    { alert with status := .opened, resolvedAt := none, acknowledgedAt := none }
  else alert

/-- One turn of the loop over the candidates. -/
def applyCandidate (accepts : Alert F D → Bool) (now : ℕ) (s : Session F D)
    (candidate : AlertCandidate F) : Except AlertError (Session F D) := do
  match ← s.getAlertByKey candidate.alertKey with
  | none => s.addAlert accepts (newAlert A now candidate)
  | some alert => return s.modify alert.id (updateAlert A now candidate)

/-- The loop over `open_alerts`: what is stored as open belongs to an active condition or is
resolved. -/
def closeInactive (now : ℕ) (activeKeys : List Text) (s : Session F D) : Session F D :=
  { s with rows := s.rows.map fun h =>
      if (h.loaded.status = .opened ∨ h.loaded.status = .acknowledged) ∧
          isMonitor h.current.alertKey ∧ h.current.alertKey ∉ activeKeys then
        h.assign fun a => { a with status := .resolved, resolvedAt := some now }
      else h }

/-- `refresh_alerts` up to the commit. -/
def refreshSession (accepts : Alert F D → Bool) (now : ℕ) (candidates : List (AlertCandidate F))
    (s : Session F D) : Except AlertError (Db F D) := do
  let s ← candidates.foldlM (applyCandidate A accepts now) s
  (closeInactive now (candidates.map AlertCandidate.alertKey) s).commit accepts

end

/-- `MonitoringService`, and the values that the columns of the table take. -/
structure MonitoringService (F D : Type*) where
  arithmetic : Arithmetic F D
  settings : Settings F
  accepts : Alert F D → Bool

namespace MonitoringService

variable (M : MonitoringService F D)

/-- `refresh_alerts`: what it returns, and the table after it. -/
def refreshAlerts (db : Db F D) (metrics : OperationalMetrics F D)
    (dependencies : Dict (DependencyHealth F)) (now : ℕ) :
    Except AlertError (List (Alert F D)) × Db F D :=
  let candidates := alertCandidates M.arithmetic metrics dependencies M.settings
  match refreshSession M.arithmetic M.accepts now candidates db.begin with
  | .error e => (.error e, db)
  | .ok db' => (.ok (listAlerts db' none none 500), db')

/-- Commit what was assigned to an alert, and read it again. -/
def save (db : Db F D) (id : ℕ) (f : Alert F D → Alert F D) :
    Except AlertError (Alert F D) × Db F D :=
  match (db.begin.modify id f).commit M.accepts with
  | .error e => (.error e, db)
  | .ok db' => (((db'.begin.getAlert id).map .ok).getD (.error .database), db')

/-- `acknowledge`. -/
def acknowledge (db : Db F D) (id now : ℕ) : Except AlertError (Alert F D) × Db F D :=
  match db.begin.getAlert id with
  | none => (.error (.notFound "Alert" id), db)
  | some alert =>
      if alert.status ≠ .resolved then
        M.save db id fun a => { a with status := .acknowledged, acknowledgedAt := some now }
      else (.ok alert, db)

/-- `resolve`. -/
def resolve (db : Db F D) (id now : ℕ) : Except AlertError (Alert F D) × Db F D :=
  match db.begin.getAlert id with
  | none => (.error (.notFound "Alert" id), db)
  | some _ => M.save db id fun a => { a with status := .resolved, resolvedAt := some now }

/-- A call of the service. -/
inductive Call (F D : Type*)
  | refresh (metrics : OperationalMetrics F D) (dependencies : Dict (DependencyHealth F)) (now : ℕ)
  | acknowledge (id now : ℕ)
  | resolve (id now : ℕ)

/-- The table after a call. -/
def after (db : Db F D) : Call F D → Db F D
  | .refresh metrics dependencies now => (M.refreshAlerts db metrics dependencies now).2
  | .acknowledge id now => (M.acknowledge db id now).2
  | .resolve id now => (M.resolve db id now).2

/-- Calls one after the other, from the empty table on. -/
def system : System (Db F D) (Call F D) where
  init db := db = {}
  step db call db' := db' = M.after db call

end MonitoringService

/-! ## What a session keeps -/

/-- The rows of a session or of the table: keys and ids are unique, and an alert is resolved exactly
if it has the time at which it was. -/
structure Consistent (rows : List (Alert F D)) (nextId : ℕ) : Prop where
  keys : (rows.map Alert.alertKey).Nodup
  ids : (rows.map Alert.id).Nodup
  fresh : ∀ a ∈ rows, a.id < nextId
  resolved : ∀ a ∈ rows, a.status = .resolved ↔ a.resolvedAt ≠ none

theorem consistent_nil (nextId : ℕ) : Consistent ([] : List (Alert F D)) nextId := by
  constructor <;> simp

/-- A row that follows another one: it has the same id and key, and is resolved exactly if it has the
time, provided that the other one is. -/
structure Follows (a b : Alert F D) : Prop where
  id : b.id = a.id
  alertKey : b.alertKey = a.alertKey
  resolved : (a.status = .resolved ↔ a.resolvedAt ≠ none) →
    (b.status = .resolved ↔ b.resolvedAt ≠ none)

theorem Follows.refl (a : Alert F D) : Follows a a := ⟨rfl, rfl, fun h => h⟩

/-- Rows that are followed stay consistent. -/
theorem Consistent.map {rows : List (Alert F D)} {nextId : ℕ} (h : Consistent rows nextId)
    {f : Alert F D → Alert F D} (hf : ∀ a ∈ rows, Follows a (f a)) :
    Consistent (rows.map f) nextId := by
  have hkeys : (rows.map f).map Alert.alertKey = rows.map Alert.alertKey := by
    rw [List.map_map]
    exact List.map_congr_left fun a ha => (hf a ha).alertKey
  have hids : (rows.map f).map Alert.id = rows.map Alert.id := by
    rw [List.map_map]
    exact List.map_congr_left fun a ha => (hf a ha).id
  refine ⟨hkeys ▸ h.keys, hids ▸ h.ids, fun a ha => ?_, fun a ha => ?_⟩
  · obtain ⟨b, hb, rfl⟩ := List.mem_map.mp ha
    rw [(hf b hb).id]
    exact h.fresh b hb
  · obtain ⟨b, hb, rfl⟩ := List.mem_map.mp ha
    exact (hf b hb).resolved (h.resolved b hb)

/-- A row that is found by its key is the only one with it. -/
theorem Consistent.eq_of_key {rows : List (Alert F D)} {nextId : ℕ} (h : Consistent rows nextId)
    {a b : Alert F D} (ha : a ∈ rows) (hb : b ∈ rows) (heq : a.alertKey = b.alertKey) : a = b :=
  List.inj_on_of_nodup_map h.keys ha hb heq

theorem Consistent.eq_of_id {rows : List (Alert F D)} {nextId : ℕ} (h : Consistent rows nextId)
    {a b : Alert F D} (ha : a ∈ rows) (hb : b ∈ rows) (heq : a.id = b.id) : a = b :=
  List.inj_on_of_nodup_map h.ids ha hb heq

section

variable (A : Arithmetic F D) (now : ℕ)

/-- An active condition does not leave its alert resolved. -/
theorem updateAlert_status (candidate : AlertCandidate F) (a : Alert F D) :
    (updateAlert A now candidate a).status ≠ .resolved := by
  unfold updateAlert
  dsimp only
  split_ifs with h
  · simp
  · exact h

theorem follows_updateAlert (candidate : AlertCandidate F) (a : Alert F D) :
    Follows a (updateAlert A now candidate a) := by
  unfold updateAlert
  dsimp only
  split_ifs with h
  · exact ⟨rfl, rfl, fun _ => by simp⟩
  · exact ⟨rfl, rfl, fun ha => ha⟩

theorem follows_resolve (a : Alert F D) :
    Follows a { a with status := .resolved, resolvedAt := some now } :=
  ⟨rfl, rfl, fun _ => by simp⟩

/-- An alert that is not resolved can be acknowledged. -/
theorem follows_acknowledge {a : Alert F D} (h : a.status ≠ .resolved) :
    Follows a { a with status := .acknowledged, acknowledgedAt := some now } := by
  refine ⟨rfl, rfl, fun ha => ?_⟩
  have hnone : a.resolvedAt = none := not_not.mp (mt ha.mpr h)
  simp [hnone]

end

/-! ## The loop over the candidates -/

/-- The session after the conditions with some keys: their alerts are there and not resolved, and the
others are as they are stored. -/
structure Processed (done : List Text) (s : Session F D) : Prop where
  consistent : Consistent (s.rows.map Held.current) s.nextId
  loaded_key : ∀ h ∈ s.rows, h.loaded.alertKey = h.current.alertKey
  active : ∀ h ∈ s.rows, h.current.alertKey ∈ done → h.current.status ≠ .resolved
  others : ∀ h ∈ s.rows, h.current.alertKey ∉ done → h.loaded.status = h.current.status
  present : ∀ key ∈ done, ∃ h ∈ s.rows, h.current.alertKey = key

/-- A session begins with the rows of the table. -/
theorem processed_begin {db : Db F D} (h : Consistent db.alerts db.nextId) :
    Processed [] db.begin where
  consistent := by simpa [Db.begin, Function.comp_def] using h
  loaded_key h hmem := by
    obtain ⟨a, -, rfl⟩ := List.mem_map.mp hmem
    rfl
  active _ _ hdone := by cases hdone
  others h hmem _ := by
    obtain ⟨a, -, rfl⟩ := List.mem_map.mp hmem
    rfl
  present _ hdone := by cases hdone

/-- A flush changes no object. -/
theorem Session.flush_ok {accepts : Alert F D → Bool} {s s' : Session F D}
    (h : s.flush accepts = .ok s') : s' = { s with rows := s.rows.map Held.flush } := by
  unfold Session.flush at h
  split_ifs at h
  exact (Except.ok.inj h).symm

theorem Processed.flush {done : List Text} {s s' : Session F D} {accepts : Alert F D → Bool}
    (hs : Processed done s) (h : s.flush accepts = .ok s') : Processed done s' := by
  obtain rfl := Session.flush_ok h
  have hrows : ∀ {p : Held (Alert F D) → Prop}, (∀ h ∈ s.rows, p h.flush) →
      ∀ h ∈ s.rows.map Held.flush, p h := by
    intro p hp h hmem
    obtain ⟨row, hrow, rfl⟩ := List.mem_map.mp hmem
    exact hp row hrow
  refine ⟨?_, hrows fun _ _ => rfl, hrows hs.active, hrows fun _ _ _ => rfl, fun key hkey => ?_⟩
  · have hcurrent : (s.rows.map Held.flush).map Held.current = s.rows.map Held.current := by
      rw [List.map_map]
      exact List.map_congr_left fun _ _ => rfl
    exact hcurrent ▸ hs.consistent
  · obtain ⟨h, hmem, heq⟩ := hs.present key hkey
    exact ⟨h.flush, List.mem_map_of_mem hmem, heq⟩

/-- Where a session finds an alert by its key. -/
theorem Session.getAlertByKey_ok {s : Session F D} {key : Text} {found : Option (Alert F D)}
    (h : s.getAlertByKey key = .ok found) :
    (found = none ∧ ∀ h ∈ s.rows, h.loaded.alertKey ≠ key) ∨
      ∃ h ∈ s.rows, h.loaded.alertKey = key ∧ found = some h.current := by
  unfold Session.getAlertByKey at h
  split at h
  · next hnone =>
      refine .inl ⟨(Except.ok.inj h).symm, fun row hmem => ?_⟩
      simpa using List.filter_eq_nil_iff.mp hnone row hmem
  · next row hone =>
      have hmem : row ∈ s.rows.filter fun h => h.loaded.alertKey = key := by simp [hone]
      obtain ⟨hrow, hkey⟩ := List.mem_filter.mp hmem
      exact .inr ⟨row, hrow, by simpa using hkey, (Except.ok.inj h).symm⟩
  · cases h

section

variable {A : Arithmetic F D} {accepts : Alert F D → Bool} {now : ℕ} {done : List Text}
  {s s' : Session F D} {candidate : AlertCandidate F}

/-- A new alert. -/
theorem Processed.insert (A : Arithmetic F D) (now : ℕ) (hs : Processed done s)
    (habsent : ∀ h ∈ s.rows, h.loaded.alertKey ≠ candidate.alertKey) :
    Processed (candidate.alertKey :: done)
      ⟨s.rows ++ [Held.fresh (newAlert A now candidate s.nextId)], s.nextId + 1⟩ := by
  have habsent' : ∀ h ∈ s.rows, h.current.alertKey ≠ candidate.alertKey := fun h hmem =>
    hs.loaded_key h hmem ▸ habsent h hmem
  -- Every field of the invariant is about the old rows and the new one.
  have hrows : ∀ {p : Held (Alert F D) → Prop}, (∀ h ∈ s.rows, p h) →
      p (Held.fresh (newAlert A now candidate s.nextId)) →
      ∀ h ∈ s.rows ++ [Held.fresh (newAlert A now candidate s.nextId)], p h := by
    intro p hold hnew h hmem
    rcases List.mem_append.mp hmem with hmem | hmem
    · exact hold h hmem
    · exact List.mem_singleton.mp hmem ▸ hnew
  constructor
  · have hold := hs.consistent
    rw [List.map_append, List.map_singleton, Held.fresh_current]
    refine ⟨?_, ?_, ?_, ?_⟩
    · rw [List.map_append, List.map_singleton, List.nodup_append]
      refine ⟨hold.keys, List.nodup_singleton _, fun key hkey other hother => ?_⟩
      obtain ⟨a, ha, rfl⟩ := List.mem_map.mp hkey
      obtain ⟨row, hrow, rfl⟩ := List.mem_map.mp ha
      rw [List.mem_singleton.mp hother]
      exact habsent' row hrow
    · rw [List.map_append, List.map_singleton, List.nodup_append]
      refine ⟨hold.ids, List.nodup_singleton _, fun id hid other hother => ?_⟩
      obtain ⟨a, ha, rfl⟩ := List.mem_map.mp hid
      rw [List.mem_singleton.mp hother]
      -- The new id is above all that were given out.
      exact Nat.ne_of_lt (hold.fresh a ha)
    · intro a ha
      rcases List.mem_append.mp ha with ha | ha
      · exact Nat.lt_succ_of_lt (hold.fresh a ha)
      · rw [List.mem_singleton.mp ha]
        exact Nat.lt_succ_self _
    · intro a ha
      rcases List.mem_append.mp ha with ha | ha
      · exact hold.resolved a ha
      · rw [List.mem_singleton.mp ha]
        simp [newAlert]
  · exact hrows hs.loaded_key rfl
  · refine hrows (fun h hmem hdone => ?_) fun _ => by simp [newAlert]
    exact hs.active h hmem ((List.mem_cons.mp hdone).resolve_left (habsent' h hmem))
  · refine hrows (fun h hmem hdone => ?_) fun _ => rfl
    exact hs.others h hmem fun hmem' => hdone (List.mem_cons_of_mem _ hmem')
  · intro key hkey
    rcases List.mem_cons.mp hkey with rfl | hkey
    · exact ⟨_, List.mem_append_right _ List.mem_cons_self, rfl⟩
    · obtain ⟨h, hmem, heq⟩ := hs.present key hkey
      exact ⟨h, List.mem_append_left _ hmem, heq⟩

/-- An alert that is there. -/
theorem Processed.update (hs : Processed done s) {row : Held (Alert F D)} (hrow : row ∈ s.rows)
    (hkey : row.loaded.alertKey = candidate.alertKey) :
    Processed (candidate.alertKey :: done)
      (s.modify row.current.id (updateAlert A now candidate)) := by
  have hkeep := follows_updateAlert A now candidate
  have hcurrent : row.current.alertKey = candidate.alertKey := hs.loaded_key row hrow ▸ hkey
  -- The row with this id is the one with this key.
  have hsame : ∀ h ∈ s.rows, h.current.id = row.current.id →
      h.current.alertKey = candidate.alertKey := by
    intro h hmem hid
    have heq := hs.consistent.eq_of_id (List.mem_map_of_mem hmem) (List.mem_map_of_mem hrow) hid
    rw [heq, hcurrent]
  have hother : ∀ h ∈ s.rows, h.current.id ≠ row.current.id →
      h.current.alertKey ≠ candidate.alertKey := by
    intro h hmem hid heq
    have hrows := hs.consistent.eq_of_key (List.mem_map_of_mem hmem) (List.mem_map_of_mem hrow)
      (heq.trans hcurrent.symm)
    exact hid (congrArg Alert.id hrows)
  have hrows : ∀ {p : Held (Alert F D) → Prop},
      (∀ h ∈ s.rows, h.current.id = row.current.id → p (h.assign (updateAlert A now candidate))) →
      (∀ h ∈ s.rows, h.current.id ≠ row.current.id → p h) →
      ∀ h ∈ (s.modify row.current.id (updateAlert A now candidate)).rows, p h := by
    intro p hthis hothers h' hmem'
    obtain ⟨h, hmem, rfl⟩ := List.mem_map.mp hmem'
    by_cases hid : h.current.id = row.current.id
    · rw [if_pos hid]
      exact hthis h hmem hid
    · rw [if_neg hid]
      exact hothers h hmem hid
  constructor
  · have hmap : (s.modify row.current.id (updateAlert A now candidate)).rows.map Held.current =
        (s.rows.map Held.current).map fun a =>
          if a.id = row.current.id then updateAlert A now candidate a else a := by
      simp only [Session.modify, List.map_map]
      refine List.map_congr_left fun h _ => ?_
      simp only [Function.comp_apply]
      split_ifs <;> rfl
    rw [hmap]
    refine hs.consistent.map fun a _ => ?_
    split_ifs
    · exact hkeep a
    · exact .refl a
  · refine hrows (fun h hmem _ => ?_) fun h hmem _ => hs.loaded_key h hmem
    rw [Held.assign_loaded, Held.assign_current, (hkeep _).alertKey]
    exact hs.loaded_key h hmem
  · refine hrows (fun h _ _ _ => updateAlert_status A now candidate h.current)
      fun h hmem hid hdone => ?_
    exact hs.active h hmem ((List.mem_cons.mp hdone).resolve_left (hother h hmem hid))
  · refine hrows (fun h hmem hid hdone => ?_) fun h hmem _ hdone => ?_
    · rw [Held.assign_current, (hkeep _).alertKey, hsame h hmem hid] at hdone
      exact absurd List.mem_cons_self hdone
    · exact hs.others h hmem fun hmem' => hdone (List.mem_cons_of_mem _ hmem')
  · intro key hdone
    obtain ⟨h, hmem, heq⟩ : ∃ h ∈ s.rows, h.current.alertKey = key := by
      rcases List.mem_cons.mp hdone with rfl | hdone
      · exact ⟨row, hrow, hcurrent⟩
      · exact hs.present key hdone
    refine ⟨_, List.mem_map_of_mem hmem, ?_⟩
    split_ifs
    · rw [Held.assign_current, (hkeep _).alertKey, heq]
    · exact heq

/-- One turn of the loop. -/
theorem Processed.step (hs : Processed done s)
    (h : applyCandidate A accepts now s candidate = .ok s') :
    Processed (candidate.alertKey :: done) s' := by
  obtain ⟨found, hfound, h⟩ := bind_eq_ok.mp h
  rcases Session.getAlertByKey_ok hfound with ⟨rfl, habsent⟩ | ⟨row, hrow, hkey, rfl⟩
  · exact (hs.insert A now habsent).flush h
  · obtain rfl := Except.ok.inj h
    exact hs.update hrow hkey

/-- A flush of values that the columns take. -/
theorem Session.flush_returns (hs : Consistent (s.rows.map Held.current) s.nextId)
    (haccepts : ∀ a, accepts a = true) : ∃ s', s.flush accepts = .ok s' := by
  have hkeys := hs.keys
  rw [List.map_map] at hkeys
  exact ⟨_, if_pos ⟨hkeys, List.all_eq_true.mpr fun h _ => haccepts h.current⟩⟩

/-- No key is found twice. -/
theorem Processed.getAlertByKey_returns (hs : Processed done s) (key : Text) :
    ∃ found, s.getAlertByKey key = .ok found := by
  have hloaded : s.rows.map (fun h => h.loaded.alertKey) =
      (s.rows.map Held.current).map Alert.alertKey := by
    rw [List.map_map]
    exact List.map_congr_left hs.loaded_key
  have hkeys : ((s.rows.filter fun h => h.loaded.alertKey = key).map
      fun h => h.loaded.alertKey).Nodup :=
    (hloaded ▸ hs.consistent.keys).sublist (List.filter_sublist.map _)
  unfold Session.getAlertByKey
  split
  · exact ⟨_, rfl⟩
  · exact ⟨_, rfl⟩
  · next hnone hone =>
      cases hrows : s.rows.filter fun h => h.loaded.alertKey = key with
      | nil => exact absurd hrows hnone
      | cons first rest =>
          cases rest with
          | nil => exact absurd hrows (hone first)
          | cons second rest =>
              -- Both have the key.
              have hkey : ∀ h ∈ s.rows.filter fun h => h.loaded.alertKey = key,
                  h.loaded.alertKey = key := fun h hmem => by
                simpa using (List.mem_filter.mp hmem).2
              rw [hrows] at hkeys hkey
              rw [List.map_cons, List.map_cons, hkey first (by simp), hkey second (by simp)] at hkeys
              exact absurd List.mem_cons_self (List.nodup_cons.mp hkeys).1

theorem Processed.step_returns (hs : Processed done s) (haccepts : ∀ a, accepts a = true)
    (candidate : AlertCandidate F) : ∃ s', applyCandidate A accepts now s candidate = .ok s' := by
  obtain ⟨found, hfound⟩ := hs.getAlertByKey_returns candidate.alertKey
  rcases Session.getAlertByKey_ok hfound with ⟨rfl, habsent⟩ | ⟨row, -, -, rfl⟩
  · obtain ⟨s', hflush⟩ := Session.flush_returns (hs.insert A now habsent).consistent haccepts
    exact ⟨s', bind_eq_ok.mpr ⟨none, hfound, hflush⟩⟩
  · exact ⟨_, bind_eq_ok.mpr ⟨some row.current, hfound, rfl⟩⟩

theorem Processed.loop_returns {candidates : List (AlertCandidate F)} (hs : Processed done s)
    (haccepts : ∀ a, accepts a = true) :
    ∃ s', candidates.foldlM (applyCandidate A accepts now) s = .ok s' := by
  induction candidates generalizing done s with
  | nil => exact ⟨s, rfl⟩
  | cons candidate candidates ih =>
      obtain ⟨s₁, hstep⟩ : ∃ s₁, applyCandidate A accepts now s candidate = .ok s₁ :=
        hs.step_returns haccepts candidate
      obtain ⟨s', hloop⟩ := ih (hs.step hstep)
      exact ⟨s', by rw [List.foldlM_cons]; exact bind_eq_ok.mpr ⟨s₁, hstep, hloop⟩⟩

/-- The loop. -/
theorem Processed.loop {candidates : List (AlertCandidate F)} (hs : Processed done s)
    (h : candidates.foldlM (applyCandidate A accepts now) s = .ok s') :
    ∃ done', Processed done' s' ∧
      ∀ key, key ∈ done' ↔ key ∈ done ∨ key ∈ candidates.map AlertCandidate.alertKey := by
  induction candidates generalizing done s with
  | nil =>
      obtain rfl := Except.ok.inj h
      exact ⟨done, hs, by simp⟩
  | cons candidate candidates ih =>
      rw [List.foldlM_cons] at h
      obtain ⟨s₁, hstep, h⟩ := bind_eq_ok.mp h
      obtain ⟨done', hdone', hkeys⟩ := ih (hs.step hstep) h
      refine ⟨done', hdone', fun key => ?_⟩
      rw [hkeys, List.mem_cons, List.map_cons, List.mem_cons]
      tauto

/-! ## A refresh -/

/-- The alerts of the monitor that are not resolved are those of the keys. -/
def Mirrors (keys : List Text) (rows : List (Alert F D)) : Prop :=
  ∀ key, (∃ a ∈ rows, a.alertKey = key ∧ isMonitor a.alertKey = true ∧ a.status ≠ .resolved) ↔
    key ∈ keys

/-- Closing the alerts of the other keys. -/
theorem Processed.closed {keys : List Text} (hs : Processed done s)
    (hdone : ∀ key, key ∈ done ↔ key ∈ keys) (hmonitor : ∀ key ∈ keys, isMonitor key = true) :
    Consistent ((closeInactive now keys s).rows.map Held.current) (closeInactive now keys s).nextId ∧
      Mirrors keys ((closeInactive now keys s).rows.map Held.current) := by
  have hrows : (closeInactive now keys s).rows.map Held.current =
      (s.rows.map Held.current).map fun a =>
        if (a.status = .opened ∨ a.status = .acknowledged) ∧ isMonitor a.alertKey ∧
            a.alertKey ∉ keys then
          { a with status := .resolved, resolvedAt := some now } else a := by
    simp only [closeInactive, List.map_map]
    refine List.map_congr_left fun h hmem => ?_
    simp only [Function.comp_apply]
    by_cases hkey : h.current.alertKey ∈ keys
    · simp [hkey]
    · -- What is not active has its stored status.
      rw [hs.others h hmem (mt (hdone _).mp hkey)]
      split_ifs <;> rfl
  rw [hrows]
  refine ⟨hs.consistent.map fun a _ => ?_, fun key => ⟨?_, fun hkey => ?_⟩⟩
  · split_ifs
    · exact follows_resolve now a
    · exact .refl a
  · rintro ⟨b, hb, rfl, hmon, hstatus⟩
    obtain ⟨a, -, rfl⟩ := List.mem_map.mp hb
    split_ifs at hmon hstatus ⊢ with hclosed
    · exact absurd rfl hstatus
    · by_contra hkey
      refine hclosed ⟨?_, hmon, hkey⟩
      cases hcase : a.status with
      | opened => exact .inl rfl
      | acknowledged => exact .inr rfl
      | resolved => exact absurd hcase hstatus
  · obtain ⟨h, hmem, heq⟩ := hs.present key ((hdone key).mpr hkey)
    have hstatus := hs.active h hmem (heq ▸ (hdone key).mpr hkey)
    refine ⟨h.current, List.mem_map.mpr ⟨h.current, List.mem_map_of_mem hmem, ?_⟩, heq,
      heq ▸ hmonitor key hkey, hstatus⟩
    rw [if_neg]
    rintro ⟨-, -, hnot⟩
    exact hnot (heq ▸ hkey)

/-- A commit writes the objects. -/
theorem Session.commit_ok {db : Db F D} (h : s.commit accepts = .ok db) :
    db = ⟨s.rows.map Held.current, s.nextId⟩ := by
  obtain ⟨s', hflush, rfl⟩ := map_eq_ok.mp h
  rw [Session.flush_ok hflush, List.map_map]
  rfl

/-- A refresh goes through if the columns take all values. -/
theorem refreshSession_returns {db : Db F D} (hdb : Consistent db.alerts db.nextId)
    (haccepts : ∀ a, accepts a = true) (candidates : List (AlertCandidate F))
    (hmonitor : ∀ c ∈ candidates, isMonitor c.alertKey = true) :
    ∃ db', refreshSession A accepts now candidates db.begin = .ok db' := by
  obtain ⟨s, hloop⟩ : ∃ s, candidates.foldlM (applyCandidate A accepts now) db.begin = .ok s :=
    (processed_begin hdb).loop_returns haccepts
  obtain ⟨done, hs, hdone⟩ := (processed_begin hdb).loop hloop
  have hkeys : ∀ key ∈ candidates.map AlertCandidate.alertKey, isMonitor key = true := by
    intro key hkey
    obtain ⟨c, hc, rfl⟩ := List.mem_map.mp hkey
    exact hmonitor c hc
  have hclosed : Consistent
      ((closeInactive now (candidates.map AlertCandidate.alertKey) s).rows.map Held.current)
      (closeInactive now (candidates.map AlertCandidate.alertKey) s).nextId :=
    (hs.closed (fun key => by simp [hdone]) hkeys).1
  obtain ⟨s', hflush⟩ := Session.flush_returns hclosed haccepts
  exact ⟨_, bind_eq_ok.mpr ⟨s, hloop, map_eq_ok.mpr ⟨s', hflush, rfl⟩⟩⟩

/-- What a refresh leaves. -/
theorem refreshSession_ok {db db' : Db F D} {candidates : List (AlertCandidate F)}
    (hdb : Consistent db.alerts db.nextId)
    (hmonitor : ∀ c ∈ candidates, isMonitor c.alertKey = true)
    (h : refreshSession A accepts now candidates db.begin = .ok db') :
    Consistent db'.alerts db'.nextId ∧
      Mirrors (candidates.map AlertCandidate.alertKey) db'.alerts := by
  obtain ⟨s, hloop, hcommit⟩ := bind_eq_ok.mp h
  obtain ⟨done, hs, hdone⟩ := (processed_begin hdb).loop hloop
  obtain rfl := Session.commit_ok hcommit
  refine hs.closed (fun key => by simp [hdone]) fun key hkey => ?_
  obtain ⟨c, hc, rfl⟩ := List.mem_map.mp hkey
  exact hmonitor c hc

end

/-! ## Runs -/

namespace MonitoringService

variable {M : MonitoringService F D}

/-- What is assigned to one alert is kept consistent. -/
theorem consistent_save {db : Db F D} (hdb : Consistent db.alerts db.nextId) {id : ℕ}
    {f : Alert F D → Alert F D} (hf : ∀ a ∈ db.alerts, a.id = id → Follows a (f a)) :
    Consistent (M.save db id f).2.alerts (M.save db id f).2.nextId := by
  unfold save
  split
  · exact hdb
  · next db' hcommit =>
      obtain rfl := Session.commit_ok hcommit
      have hrows : (db.begin.modify id f).rows.map Held.current =
          db.alerts.map fun a => if a.id = id then f a else a := by
        simp only [Session.modify, Db.begin, List.map_map]
        refine List.map_congr_left fun a _ => ?_
        by_cases hid : a.id = id <;> simp [hid]
      dsimp only
      rw [hrows]
      refine hdb.map fun a ha => ?_
      split_ifs with hid
      · exact hf a ha hid
      · exact .refl a

theorem getAlert_begin {db : Db F D} {id : ℕ} {alert : Alert F D}
    (h : db.begin.getAlert id = some alert) : alert ∈ db.alerts ∧ alert.id = id := by
  have hrows : db.begin.rows.map Held.current = db.alerts := by
    simp [Db.begin, Function.comp_def]
  rw [Session.getAlert, hrows] at h
  exact ⟨List.mem_of_find?_eq_some h, by simpa using List.find?_some h⟩

/-- What a refresh that returns leaves. -/
theorem refreshAlerts_ok {db db' : Db F D} {metrics : OperationalMetrics F D}
    {dependencies : Dict (DependencyHealth F)} {now : ℕ} {alerts : List (Alert F D)}
    (hdb : Consistent db.alerts db.nextId)
    (h : M.refreshAlerts db metrics dependencies now = (.ok alerts, db')) :
    Consistent db'.alerts db'.nextId ∧
      Mirrors ((alertCandidates M.arithmetic metrics dependencies M.settings).map
        AlertCandidate.alertKey) db'.alerts := by
  unfold refreshAlerts at h
  dsimp only at h
  split at h
  · cases h
  · next hsession =>
      cases h
      exact refreshSession_ok hdb (fun c hc => isMonitor_alertCandidates M.arithmetic hc) hsession

/-- A refresh returns unless the database refuses a value. -/
theorem refreshAlerts_returns {db : Db F D} (hdb : Consistent db.alerts db.nextId)
    (haccepts : ∀ a, M.accepts a = true) (metrics : OperationalMetrics F D)
    (dependencies : Dict (DependencyHealth F)) (now : ℕ) :
    ∃ alerts db', M.refreshAlerts db metrics dependencies now = (.ok alerts, db') := by
  obtain ⟨db', hsession⟩ : ∃ db', refreshSession M.arithmetic M.accepts now
      (alertCandidates M.arithmetic metrics dependencies M.settings) db.begin = .ok db' :=
    refreshSession_returns hdb haccepts _ fun c hc => isMonitor_alertCandidates M.arithmetic hc
  exact ⟨listAlerts db' none none 500, db', by simp only [refreshAlerts, hsession]⟩

/-- Every call keeps the table consistent. -/
theorem consistent_after {db : Db F D} (hdb : Consistent db.alerts db.nextId) (call : Call F D) :
    Consistent (M.after db call).alerts (M.after db call).nextId := by
  cases call with
  | refresh metrics dependencies now =>
      simp only [after, refreshAlerts]
      split
      · -- A refresh that raises is rolled back.
        exact hdb
      · next hsession =>
          exact (refreshSession_ok hdb (fun c hc => isMonitor_alertCandidates M.arithmetic hc)
            hsession).1
  | acknowledge id now =>
      simp only [after, acknowledge]
      cases hfound : db.begin.getAlert id with
      | none => exact hdb
      | some alert =>
          obtain ⟨hmem, hid⟩ := getAlert_begin hfound
          by_cases hstatus : alert.status ≠ .resolved
          · dsimp only
            rw [if_pos hstatus]
            refine consistent_save hdb fun a ha heq => ?_
            rw [hdb.eq_of_id ha hmem (heq.trans hid.symm)]
            exact follows_acknowledge now hstatus
          · dsimp only
            rw [if_neg hstatus]
            exact hdb
  | resolve id now =>
      simp only [after, resolve]
      cases hfound : db.begin.getAlert id with
      | none => exact hdb
      | some alert => exact consistent_save hdb fun a _ _ => follows_resolve now a

theorem consistent_run {tr : List (Db F D × Call F D)} {db : Db F D}
    (h : M.system.Run System.always tr db) : Consistent db.alerts db.nextId := by
  refine h.invariant (I := fun _ db => Consistent db.alerts db.nextId) ?_ ?_
  · rintro db rfl
    exact consistent_nil 1
  · rintro tr db call db' - hdb - rfl
    exact consistent_after hdb call

/-- **Alerts mirror the conditions.** In every run no key has two alerts and an alert is resolved
exactly if it has the time at which it was; and after a refresh the alerts of the monitor that are not
resolved are those of the conditions that it found. -/
theorem alerts_mirror {tr : List (Db F D × Call F D)} {db : Db F D}
    (h : M.system.Run System.always tr db) :
    (db.alerts.map Alert.alertKey).Nodup ∧
      (∀ a ∈ db.alerts, a.status = .resolved ↔ a.resolvedAt ≠ none) ∧
      ∀ metrics dependencies now alerts db',
        M.refreshAlerts db metrics dependencies now = (.ok alerts, db') →
        ∀ key, (∃ a ∈ db'.alerts, a.alertKey = key ∧ isMonitor a.alertKey = true ∧
            a.status ≠ .resolved) ↔
          ∃ c ∈ alertCandidates M.arithmetic metrics dependencies M.settings, c.alertKey = key := by
  have hdb := consistent_run h
  refine ⟨hdb.keys, hdb.resolved, fun metrics dependencies now alerts db' hrefresh key => ?_⟩
  rw [(refreshAlerts_ok hdb hrefresh).2 key, List.mem_map]

/-- Numbers without rounding, and columns that take every value. -/
def plain (settings : Settings ℚ) : MonitoringService ℚ ℚ where
  arithmetic :=
    { ge := fun x y => decide (y ≤ x)
      ofInt := fun n => n
      ofDecimal := id
      toDecimal := id
      showDecimal := fun q => (Nat.repr q.num.natAbs).toList }
  settings := settings
  accepts _ := true

/-- Metrics without a condition. -/
def quiet : OperationalMetrics ℚ ℚ where
  crawler := ⟨0, [], 0⟩
  knowledge := ⟨[], 0⟩
  rag := ⟨24, 0, 0, 0, 0, 0⟩

/-- A database that cannot be reached. -/
def databaseDown : Dict (DependencyHealth ℚ) :=
  ⟨[(str "redis", ⟨.healthy, some 3, none⟩), (str "database", ⟨.unavailable, none, none⟩)],
    by decide⟩

/-- An alert that was resolved while its condition lasts is open after the next refresh. -/
theorem alerts_mirror_reopened :
    let M := plain ⟨5, 1 / 5, 1, 5000, 1, 1⟩
    let db := M.after (M.after {} (.refresh quiet databaseDown 1)) (.resolve 1 2)
    (∃ a ∈ db.alerts, a.alertKey = str "monitor:dependency:database" ∧ a.status = .resolved) ∧
      ∃ a ∈ (M.refreshAlerts db quiet databaseDown 3).2.alerts,
        a.alertKey = str "monitor:dependency:database" ∧ a.status ≠ .resolved := by
  intro M db
  have hrun : M.system.Run System.always
      [(M.after {} (.refresh quiet databaseDown 1), .resolve 1 2),
        ({}, .refresh quiet databaseDown 1)] db :=
    ⟨{}, rfl, .cons (.cons .nil trivial rfl) trivial rfl⟩
  have hresolved : ∃ a ∈ db.alerts,
      a.alertKey = str "monitor:dependency:database" ∧ a.status = .resolved := by
    decide +kernel
  have hactive : ∃ c ∈ alertCandidates M.arithmetic quiet databaseDown M.settings,
      c.alertKey = str "monitor:dependency:database" := by
    decide +kernel
  obtain ⟨alerts, db', hrefresh⟩ := refreshAlerts_returns (M := M) (consistent_run hrun)
    (fun _ => rfl) quiet databaseDown 3
  obtain ⟨a, ha, hkey, -, hopen⟩ :=
    ((alerts_mirror hrun).2.2 quiet databaseDown 3 alerts db' hrefresh _).mpr hactive
  rw [hrefresh]
  exact ⟨hresolved, a, ha, hkey, hopen⟩

end MonitoringService

end Odirag.Monitoring
