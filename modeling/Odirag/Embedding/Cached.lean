import Mathlib.Algebra.GroupWithZero.Nat
import Mathlib.Data.List.Basic
import Mathlib.Logic.Function.Basic
import Odirag.Foundations.Run
import Odirag.Foundations.Text

/-!
# One load at a time

Reference: `backend/app/embedding/cached.py`.

Calls of `embed_query`, the loads that they start, the callbacks of loads that are done and the clean-up
tasks take turns on the event loop; a task runs from one suspension to the next. A call joins the load
that the table of loads in flight has for its key, and starts one where there is none. A clean-up task
removes the load that it was made for and no other, so a load that runs stays in the table, and there is
one for each key (`Inv.running_unique`). Where nothing is left to do, every call that was not cancelled
has the outcome of a load of its key (`Inv.settled`), and from any state so many steps lead there at the
most (`work_next`).
-/

namespace Odirag.Embedding

/-- The part of the provider that a call uses. `sha256` is the digest of a text. -/
structure CachedQueryEmbeddingProvider (F : Type) where
  providerName : Text
  modelName : Text
  endpointFingerprint : Text
  version : Text
  dimensions : Option ℤ
  sha256 : Text → Text
  isfinite : F → Bool

namespace CachedQueryEmbeddingProvider

variable {F ε : Type} (provider : CachedQueryEmbeddingProvider F)

/-- `_key`. -/
def key (normalizedQuery : Text) : Text :=
  str "query-embedding:" ++ provider.providerName ++ str ":" ++ provider.modelName ++ str ":" ++
    provider.endpointFingerprint ++ str ":" ++ provider.version ++ str ":" ++
    provider.sha256 normalizedQuery

/-- `_valid`. -/
def valid (vector : List F) : Bool :=
  if vector.isEmpty || !vector.all provider.isfinite then false
  else
    match provider.dimensions with
    | none => true
    | some expected => expected ≤ 0 || (vector.length : ℤ) == expected

/-- What a load is told: the vector that the cache has, if it could be read, and what the provider
answers. Whether the cache can be written makes no difference. -/
structure Answers (F ε : Type) where
  cached : Option (List F)
  embedded : Except ε (List F)

/-- `_load_or_embed`. -/
def loadOrEmbed (answers : Answers F ε) : Except ε (List F) :=
  match answers.cached.filter provider.valid with
  | some cached => .ok cached
  | none => answers.embedded

/-! ## The event loop -/

/-- Where a call of `embed_query` is. It holds the lock from `entered` until it awaits. -/
inductive CallPhase (F ε : Type) where
  | waiting
  | entered
  | joined (task : ℕ)
  | awaiting (task : ℕ)
  | received (outcome : Except ε (List F))
  | cancelled

structure Call (F ε : Type) where
  text : Text
  phase : CallPhase F ε

/-- A task of `_load_or_embed`: its outcome, none while it runs, and whether `_schedule_clear` was
called. -/
structure Load (F ε : Type) where
  key : Text
  text : Text
  outcome : Option (Except ε (List F))
  calledBack : Bool

/-- Where a task of `_clear_inflight` is. It holds the lock between `waiting` and `finished`. -/
inductive ClearPhase where
  | waiting
  | entered
  | cleared
  | finished
  deriving DecidableEq, Repr

/-- A task of `_clear_inflight`. -/
structure Cleanup where
  key : Text
  task : ℕ
  phase : ClearPhase

/-- Who holds `_inflight_lock`. -/
inductive Holder where
  | call (c : ℕ)
  | cleanup (i : ℕ)
  deriving DecidableEq, Repr

/-- All calls and tasks so far, the table of loads in flight and its lock. -/
structure State (F ε : Type) where
  calls : List (Call F ε)
  loads : List (Load F ε)
  cleanups : List Cleanup
  inflight : Text → Option ℕ
  lock : Option Holder

inductive Label (F ε : Type) where
  | call (text : Text)
  | cancel (c : ℕ)
  | enter (c : ℕ)
  | join (c : ℕ)
  | leave (c : ℕ)
  | receive (c : ℕ)
  | complete (t : ℕ) (answers : Answers F ε)
  | callback (t : ℕ)
  | enterClear (i : ℕ)
  | clear (i : ℕ)
  | leaveClear (i : ℕ)

namespace State

variable (s : State F ε)

/-- The call goes on. -/
def setCall (c : ℕ) (call : Call F ε) (phase : CallPhase F ε) : State F ε :=
  { s with calls := s.calls.set c { call with phase } }

/-- The clean-up task goes on. -/
def setCleanup (i : ℕ) (cleanup : Cleanup) (phase : ClearPhase) : State F ε :=
  { s with cleanups := s.cleanups.set i { cleanup with phase } }

/-- A load for a text, in the table. -/
def start (key text : Text) : State F ε :=
  { s with
    loads := s.loads ++ [⟨key, text, none, false⟩]
    inflight := Function.update s.inflight key (some s.loads.length) }

end State

/-- The step of a call that is not cancelled. -/
def nextCall (s : State F ε) (c : ℕ) (call : Call F ε) : Label F ε → Option (State F ε)
  | .enter _ =>
      match call.phase, s.lock with
      | .waiting, none => some { s.setCall c call .entered with lock := some (.call c) }
      | _, _ => none
  | .join _ =>
      match call.phase with
      | .entered =>
          match s.inflight (provider.key call.text) with
          | some task => some (s.setCall c call (.joined task))
          | none =>
              some ((s.setCall c call (.joined s.loads.length)).start (provider.key call.text)
                call.text)
      | _ => none
  | .leave _ =>
      match call.phase with
      | .joined task => some { s.setCall c call (.awaiting task) with lock := none }
      | _ => none
  | .receive _ =>
      match call.phase with
      | .awaiting task =>
          match s.loads[task]? with
          | some load => load.outcome.map fun outcome => s.setCall c call (.received outcome)
          | none => none
      | _ => none
  | .cancel _ =>
      match call.phase with
      | .waiting | .awaiting _ => some (s.setCall c call .cancelled)
      | _ => none
  | _ => none

/-- The step of a load, or of its callback. -/
def nextLoad (s : State F ε) (t : ℕ) (load : Load F ε) : Label F ε → Option (State F ε)
  | .complete _ answers =>
      match load.outcome with
      | none =>
          some { s with
            loads := s.loads.set t { load with outcome := some (provider.loadOrEmbed answers) } }
      | some _ => none
  | .callback _ =>
      match load.outcome, load.calledBack with
      | some _, false =>
          some { s with
            loads := s.loads.set t { load with calledBack := true }
            cleanups := s.cleanups ++ [⟨load.key, t, .waiting⟩] }
      | _, _ => none
  | _ => none

/-- The step of a clean-up task. -/
def nextCleanup (s : State F ε) (i : ℕ) (cleanup : Cleanup) : Label F ε → Option (State F ε)
  | .enterClear _ =>
      match cleanup.phase, s.lock with
      | .waiting, none => some { s.setCleanup i cleanup .entered with lock := some (.cleanup i) }
      | _, _ => none
  | .clear _ =>
      match cleanup.phase with
      | .entered =>
          if s.inflight cleanup.key = some cleanup.task then
            some { s.setCleanup i cleanup .cleared with
              inflight := Function.update s.inflight cleanup.key none }
          else some (s.setCleanup i cleanup .cleared)
      | _ => none
  | .leaveClear _ =>
      match cleanup.phase with
      | .cleared => some { s.setCleanup i cleanup .finished with lock := none }
      | _ => none
  | _ => none

/-- One step on the event loop. -/
def next (s : State F ε) (l : Label F ε) : Option (State F ε) :=
  match l with
  | .call text => some { s with calls := s.calls ++ [⟨text, .waiting⟩] }
  | .cancel c | .enter c | .join c | .leave c | .receive c =>
      s.calls[c]?.bind fun call => provider.nextCall s c call l
  | .complete t _ | .callback t => s.loads[t]?.bind fun load => provider.nextLoad s t load l
  | .enterClear i | .clear i | .leaveClear i =>
      s.cleanups[i]?.bind fun cleanup => nextCleanup s i cleanup l

/-- Nothing was called yet. -/
def initial : State F ε where
  calls := []
  loads := []
  cleanups := []
  inflight := fun _ => none
  lock := none

/-- The runs of the event loop. -/
def system : System (State F ε) (Label F ε) := .ofNext provider.next fun s => s = initial

variable {provider} {s s' : State F ε}

/-- What a step is, with the condition under which it is taken. -/
inductive Moves (provider : CachedQueryEmbeddingProvider F) (s : State F ε) :
    Label F ε → State F ε → Prop
  | call (text : Text) : Moves provider s (.call text) { s with calls := s.calls ++ [⟨text, .waiting⟩] }
  | cancel {c : ℕ} {call : Call F ε} (hcall : s.calls[c]? = some call)
      (hphase : call.phase = .waiting ∨ ∃ task, call.phase = .awaiting task) :
      Moves provider s (.cancel c) (s.setCall c call .cancelled)
  | enter {c : ℕ} {call : Call F ε} (hcall : s.calls[c]? = some call)
      (hphase : call.phase = .waiting) (hlock : s.lock = none) :
      Moves provider s (.enter c) { s.setCall c call .entered with lock := some (.call c) }
  | found {c task : ℕ} {call : Call F ε} (hcall : s.calls[c]? = some call)
      (hphase : call.phase = .entered) (htable : s.inflight (provider.key call.text) = some task) :
      Moves provider s (.join c) (s.setCall c call (.joined task))
  | started {c : ℕ} {call : Call F ε} (hcall : s.calls[c]? = some call)
      (hphase : call.phase = .entered) (htable : s.inflight (provider.key call.text) = none) :
      Moves provider s (.join c) ((s.setCall c call (.joined s.loads.length)).start
        (provider.key call.text) call.text)
  | leave {c task : ℕ} {call : Call F ε} (hcall : s.calls[c]? = some call)
      (hphase : call.phase = .joined task) :
      Moves provider s (.leave c) { s.setCall c call (.awaiting task) with lock := none }
  | receive {c task : ℕ} {call : Call F ε} {load : Load F ε} {outcome : Except ε (List F)}
      (hcall : s.calls[c]? = some call) (hphase : call.phase = .awaiting task)
      (hload : s.loads[task]? = some load) (houtcome : load.outcome = some outcome) :
      Moves provider s (.receive c) (s.setCall c call (.received outcome))
  | complete {t : ℕ} {load : Load F ε} (answers : Answers F ε) (hload : s.loads[t]? = some load)
      (houtcome : load.outcome = none) :
      Moves provider s (.complete t answers) { s with
        loads := s.loads.set t { load with outcome := some (provider.loadOrEmbed answers) } }
  | callback {t : ℕ} {load : Load F ε} {outcome : Except ε (List F)}
      (hload : s.loads[t]? = some load) (houtcome : load.outcome = some outcome)
      (hcalled : load.calledBack = false) :
      Moves provider s (.callback t) { s with
        loads := s.loads.set t { load with calledBack := true }
        cleanups := s.cleanups ++ [⟨load.key, t, .waiting⟩] }
  | enterClear {i : ℕ} {cleanup : Cleanup} (hcleanup : s.cleanups[i]? = some cleanup)
      (hphase : cleanup.phase = .waiting) (hlock : s.lock = none) :
      Moves provider s (.enterClear i)
        { s.setCleanup i cleanup .entered with lock := some (.cleanup i) }
  | clear {i : ℕ} {cleanup : Cleanup} (hcleanup : s.cleanups[i]? = some cleanup)
      (hphase : cleanup.phase = .entered) (htable : s.inflight cleanup.key = some cleanup.task) :
      Moves provider s (.clear i) { s.setCleanup i cleanup .cleared with
        inflight := Function.update s.inflight cleanup.key none }
  | keep {i : ℕ} {cleanup : Cleanup} (hcleanup : s.cleanups[i]? = some cleanup)
      (hphase : cleanup.phase = .entered) (htable : s.inflight cleanup.key ≠ some cleanup.task) :
      Moves provider s (.clear i) (s.setCleanup i cleanup .cleared)
  | leaveClear {i : ℕ} {cleanup : Cleanup} (hcleanup : s.cleanups[i]? = some cleanup)
      (hphase : cleanup.phase = .cleared) :
      Moves provider s (.leaveClear i) { s.setCleanup i cleanup .finished with lock := none }

theorem moves_of_nextCall {c : ℕ} {call : Call F ε} (hcall : s.calls[c]? = some call) {l : Label F ε}
    (hl : l = .cancel c ∨ l = .enter c ∨ l = .join c ∨ l = .leave c ∨ l = .receive c)
    (h : provider.nextCall s c call l = some s') : Moves provider s l s' := by
  -- The branches of `nextCall`, label by label.
  rcases hl with rfl | rfl | rfl | rfl | rfl
  all_goals
    dsimp only [nextCall] at h
    split at h
  · next hphase =>
      cases h
      exact .cancel hcall (.inl hphase)
  · next task hphase =>
      cases h
      exact .cancel hcall (.inr ⟨task, hphase⟩)
  · cases h
  · next hphase hlock =>
      cases h
      exact .enter hcall hphase hlock
  · cases h
  · next hphase =>
      split at h
      · next task htable =>
          cases h
          exact .found hcall hphase htable
      · next htable =>
          cases h
          exact .started hcall hphase htable
  · cases h
  · next task hphase =>
      cases h
      exact .leave hcall hphase
  · cases h
  · next task hphase =>
      split at h
      · next load hload =>
          obtain ⟨outcome, houtcome, rfl⟩ := Option.map_eq_some_iff.mp h
          exact .receive hcall hphase hload houtcome
      · cases h
  · cases h

theorem moves_of_next {l : Label F ε} (h : provider.next s l = some s') : Moves provider s l s' := by
  cases l with
  | call text =>
      cases h
      exact .call text
  | cancel c =>
      obtain ⟨call, hcall, h⟩ := Option.bind_eq_some_iff.mp h
      exact moves_of_nextCall hcall (by simp) h
  | enter c =>
      obtain ⟨call, hcall, h⟩ := Option.bind_eq_some_iff.mp h
      exact moves_of_nextCall hcall (by simp) h
  | join c =>
      obtain ⟨call, hcall, h⟩ := Option.bind_eq_some_iff.mp h
      exact moves_of_nextCall hcall (by simp) h
  | leave c =>
      obtain ⟨call, hcall, h⟩ := Option.bind_eq_some_iff.mp h
      exact moves_of_nextCall hcall (by simp) h
  | receive c =>
      obtain ⟨call, hcall, h⟩ := Option.bind_eq_some_iff.mp h
      exact moves_of_nextCall hcall (by simp) h
  | complete t answers =>
      obtain ⟨load, hload, h⟩ := Option.bind_eq_some_iff.mp h
      dsimp only [nextLoad] at h
      split at h
      · next houtcome =>
          cases h
          exact .complete answers hload houtcome
      · cases h
  | callback t =>
      obtain ⟨load, hload, h⟩ := Option.bind_eq_some_iff.mp h
      dsimp only [nextLoad] at h
      split at h
      · next outcome houtcome hcalled =>
          cases h
          exact .callback hload houtcome hcalled
      · cases h
  | enterClear i =>
      obtain ⟨cleanup, hcleanup, h⟩ := Option.bind_eq_some_iff.mp h
      dsimp only [nextCleanup] at h
      split at h
      · next hphase hlock =>
          cases h
          exact .enterClear hcleanup hphase hlock
      · cases h
  | clear i =>
      obtain ⟨cleanup, hcleanup, h⟩ := Option.bind_eq_some_iff.mp h
      dsimp only [nextCleanup] at h
      split at h
      · next hphase =>
          split at h
          · next htable =>
              cases h
              exact .clear hcleanup hphase htable
          · next htable =>
              cases h
              exact .keep hcleanup hphase htable
      · cases h
  | leaveClear i =>
      obtain ⟨cleanup, hcleanup, h⟩ := Option.bind_eq_some_iff.mp h
      dsimp only [nextCleanup] at h
      split at h
      · next hphase =>
          cases h
          exact .leaveClear hcleanup hphase
      · cases h

/-! ## The invariant -/

/-- There is a load with this key at this place. -/
def IsLoad (loads : List (Load F ε)) (t : ℕ) (key : Text) : Prop :=
  ∃ load : Load F ε, loads[t]? = some load ∧ load.key = key

/-- A load of this key is done with this outcome. -/
def IsDone (loads : List (Load F ε)) (key : Text) (outcome : Except ε (List F)) : Prop :=
  ∃ (t : ℕ) (load : Load F ε), loads[t]? = some load ∧ load.key = key ∧
    load.outcome = some outcome

/-- A call waits for a load of its key, and has received the outcome of one. -/
def CallOk (provider : CachedQueryEmbeddingProvider F) (loads : List (Load F ε))
    (call : Call F ε) : Prop :=
  match call.phase with
  | .joined task | .awaiting task => IsLoad loads task (provider.key call.text)
  | .received outcome => IsDone loads (provider.key call.text) outcome
  | _ => True

/-- A clean-up task is for a load that is done. -/
def CleanupOk (loads : List (Load F ε)) (cleanup : Cleanup) : Prop :=
  ∃ load : Load F ε, loads[cleanup.task]? = some load ∧ load.key = cleanup.key ∧
    load.outcome.isSome = true

/-- Who holds the lock is about to go on. -/
def Holds (s : State F ε) : Holder → Prop
  | .call c => ∃ call : Call F ε, s.calls[c]? = some call ∧
      (call.phase = .entered ∨ ∃ task, call.phase = .joined task)
  | .cleanup i => ∃ cleanup : Cleanup, s.cleanups[i]? = some cleanup ∧
      (cleanup.phase = .entered ∨ cleanup.phase = .cleared)

structure Inv (provider : CachedQueryEmbeddingProvider F) (s : State F ε) : Prop where
  /-- A load that runs is the one that the table has for its key. -/
  running : ∀ (t : ℕ) (load : Load F ε), s.loads[t]? = some load → load.outcome = none →
    s.inflight load.key = some t
  table : ∀ (key : Text) (t : ℕ), s.inflight key = some t → IsLoad s.loads t key
  calls : ∀ call ∈ s.calls, CallOk provider s.loads call
  cleanups : ∀ cleanup ∈ s.cleanups, CleanupOk s.loads cleanup
  holder : ∀ holder, s.lock = some holder → Holds s holder

/-- One load runs for each key at the most. -/
theorem Inv.running_unique (h : Inv provider s) {t t' : ℕ} {load load' : Load F ε}
    (hload : s.loads[t]? = some load) (hload' : s.loads[t']? = some load')
    (hrunning : load.outcome = none) (hrunning' : load'.outcome = none)
    (hkey : load.key = load'.key) : t = t' := by
  have htable := h.running t load hload hrunning
  have htable' := h.running t' load' hload' hrunning'
  rw [hkey, htable'] at htable
  exact (Option.some.inj htable).symm

/-! ### Loads that grow -/

/-- Every load stays, with its key, and its outcome once it has one. -/
def Extends (loads loads' : List (Load F ε)) : Prop :=
  ∀ (t : ℕ) (load : Load F ε), loads[t]? = some load →
    ∃ load' : Load F ε, loads'[t]? = some load' ∧ load'.key = load.key ∧
      ∀ outcome, load.outcome = some outcome → load'.outcome = some outcome

theorem Extends.refl (loads : List (Load F ε)) : Extends loads loads :=
  fun _ load hload => ⟨load, hload, rfl, fun _ h => h⟩

theorem extends_append (loads : List (Load F ε)) (load : Load F ε) :
    Extends loads (loads ++ [load]) := by
  intro t load' hload'
  refine ⟨load', ?_, rfl, fun _ h => h⟩
  rw [List.getElem?_append_left (List.getElem?_eq_some_iff.mp hload').1]
  exact hload'

theorem extends_set {loads : List (Load F ε)} {t : ℕ} {load load' : Load F ε}
    (hload : loads[t]? = some load) (hkey : load'.key = load.key)
    (houtcome : ∀ outcome, load.outcome = some outcome → load'.outcome = some outcome) :
    Extends loads (loads.set t load') := by
  intro i other hother
  by_cases hi : t = i
  · subst hi
    obtain rfl : load = other := Option.some.inj (hload.symm.trans hother)
    exact ⟨load', List.getElem?_set_self (List.getElem?_eq_some_iff.mp hload).1, hkey, houtcome⟩
  · exact ⟨other, by rw [List.getElem?_set_ne hi, hother], rfl, fun _ h => h⟩

variable {loads loads' : List (Load F ε)}

theorem IsLoad.mono {t : ℕ} {key : Text} (h : IsLoad loads t key) (hext : Extends loads loads') :
    IsLoad loads' t key := by
  obtain ⟨load, hload, hkey⟩ := h
  obtain ⟨load', hload', hkey', -⟩ := hext t load hload
  exact ⟨load', hload', hkey'.trans hkey⟩

theorem IsDone.mono {key : Text} {outcome : Except ε (List F)} (h : IsDone loads key outcome)
    (hext : Extends loads loads') : IsDone loads' key outcome := by
  obtain ⟨t, load, hload, hkey, houtcome⟩ := h
  obtain ⟨load', hload', hkey', hsame⟩ := hext t load hload
  exact ⟨t, load', hload', hkey'.trans hkey, hsame outcome houtcome⟩

theorem CallOk.mono {call : Call F ε} (h : CallOk provider loads call)
    (hext : Extends loads loads') : CallOk provider loads' call := by
  unfold CallOk at h ⊢
  cases hphase : call.phase <;> rw [hphase] at h
  case joined | awaiting => exact IsLoad.mono h hext
  case received => exact IsDone.mono h hext
  all_goals trivial

theorem CleanupOk.mono {cleanup : Cleanup} (h : CleanupOk loads cleanup)
    (hext : Extends loads loads') : CleanupOk loads' cleanup := by
  obtain ⟨load, hload, hkey, houtcome⟩ := h
  obtain ⟨load', hload', hkey', hsame⟩ := hext _ load hload
  obtain ⟨outcome, heq⟩ := Option.isSome_iff_exists.mp houtcome
  exact ⟨load', hload', hkey'.trans hkey, by rw [hsame outcome heq]; rfl⟩

/-! ### Steps of calls and of clean-up tasks -/

/-- A call that goes on leaves the other calls where they are. -/
theorem callOk_setCall (h : Inv provider s) {c : ℕ} {call : Call F ε} {phase : CallPhase F ε}
    (hcall : CallOk provider s.loads { call with phase }) :
    ∀ other ∈ (s.setCall c call phase).calls, CallOk provider s.loads other := by
  intro other hother
  rcases List.mem_or_eq_of_mem_set hother with hother | rfl
  · exact h.calls other hother
  · exact hcall

/-- Who holds the lock is another one, or has moved to a place where it still does. -/
theorem holds_setCall {c : ℕ} {call : Call F ε} {phase : CallPhase F ε}
    (hcall : s.calls[c]? = some call)
    (hphase : (call.phase = .entered ∨ ∃ task, call.phase = .joined task) →
      phase = .entered ∨ ∃ task, phase = .joined task) {holder : Holder} (h : Holds s holder) :
    Holds (s.setCall c call phase) holder := by
  cases holder with
  | cleanup i => exact h
  | call d =>
      obtain ⟨other, hother, hat⟩ := h
      by_cases hd : c = d
      · subst hd
        obtain rfl : call = other := Option.some.inj (hcall.symm.trans hother)
        exact ⟨_, List.getElem?_set_self (List.getElem?_eq_some_iff.mp hcall).1, hphase hat⟩
      · refine ⟨other, ?_, hat⟩
        show (s.calls.set c _)[d]? = some other
        rw [List.getElem?_set_ne hd, hother]

theorem cleanupOk_setCleanup (h : Inv provider s) {i : ℕ} {cleanup : Cleanup} {phase : ClearPhase}
    (hcleanup : s.cleanups[i]? = some cleanup) :
    ∀ other ∈ (s.setCleanup i cleanup phase).cleanups, CleanupOk s.loads other := by
  intro other hother
  rcases List.mem_or_eq_of_mem_set hother with hother | rfl
  · exact h.cleanups other hother
  · exact h.cleanups cleanup (List.mem_of_getElem? hcleanup)

theorem holds_setCleanup {i : ℕ} {cleanup : Cleanup} {phase : ClearPhase}
    (hcleanup : s.cleanups[i]? = some cleanup) (hphase : phase = .entered ∨ phase = .cleared)
    {holder : Holder} (h : Holds s holder) : Holds (s.setCleanup i cleanup phase) holder := by
  cases holder with
  | call c => exact h
  | cleanup j =>
      obtain ⟨other, hother, hat⟩ := h
      by_cases hj : i = j
      · subst hj
        exact ⟨_, List.getElem?_set_self (List.getElem?_eq_some_iff.mp hcleanup).1, hphase⟩
      · refine ⟨other, ?_, hat⟩
        show (s.cleanups.set i _)[j]? = some other
        rw [List.getElem?_set_ne hj, hother]

/-! ### Preservation -/

/-- A step that leaves the loads and the table as they are. -/
theorem Inv.of_same (h : Inv provider s) (hloads : s'.loads = s.loads)
    (hinflight : s'.inflight = s.inflight)
    (hcalls : ∀ call ∈ s'.calls, CallOk provider s.loads call)
    (hcleanups : ∀ cleanup ∈ s'.cleanups, CleanupOk s.loads cleanup)
    (hholder : ∀ holder, s'.lock = some holder → Holds s' holder) : Inv provider s' where
  running := by
    rw [hloads, hinflight]
    exact h.running
  table := by
    rw [hloads, hinflight]
    exact h.table
  calls := by
    rw [hloads]
    exact hcalls
  cleanups := by
    rw [hloads]
    exact hcleanups
  holder := hholder

theorem Inv.call (h : Inv provider s) (text : Text) :
    Inv provider { s with calls := s.calls ++ [⟨text, .waiting⟩] } := by
  refine h.of_same rfl rfl (fun call hcall => ?_) h.cleanups fun holder hholder => ?_
  · rcases List.mem_append.mp hcall with hcall | hcall
    · exact h.calls call hcall
    · rw [List.mem_singleton.mp hcall]
      trivial
  · have hholds := h.holder holder hholder
    cases holder with
    | cleanup i => exact hholds
    | call c =>
        obtain ⟨call, hcall, hat⟩ := hholds
        refine ⟨call, ?_, hat⟩
        show (s.calls ++ _)[c]? = some call
        rw [List.getElem?_append_left (List.getElem?_eq_some_iff.mp hcall).1, hcall]

/-- A load is started only where the table has none for its key. -/
theorem Inv.start (h : Inv provider s) {key text : Text} (htable : s.inflight key = none) :
    Inv provider (s.start key text) := by
  have hext := extends_append s.loads ⟨key, text, none, false⟩
  refine ⟨fun t load hload hrunning => ?_, fun other t hother => ?_,
    fun call hcall => (h.calls call hcall).mono hext,
    fun cleanup hcleanup => (h.cleanups cleanup hcleanup).mono hext, h.holder⟩
  -- An old load keeps its place in the table, since that was for another key; the new one is put
  -- there.
  · rcases Nat.lt_trichotomy t s.loads.length with hlt | rfl | hgt
    · have hold : s.loads[t]? = some load := by
        rw [← List.getElem?_append_left hlt]
        exact hload
      have hin := h.running t load hold hrunning
      have hne : load.key ≠ key := by
        rintro rfl
        rw [htable] at hin
        cases hin
      show Function.update s.inflight key _ load.key = some t
      rw [Function.update_of_ne hne, hin]
    · have hnew : load = ⟨key, text, none, false⟩ := by
        have hlast : (s.loads ++ [⟨key, text, none, false⟩])[s.loads.length]? = some load := hload
        rw [List.getElem?_concat_length] at hlast
        exact (Option.some.inj hlast).symm
      rw [hnew]
      exact Function.update_self ..
    · have hnone : (s.loads ++ [⟨key, text, none, false⟩])[t]? = none := by
        rw [List.getElem?_eq_none_iff, List.length_append, List.length_singleton]
        omega
      rw [show (s.loads ++ [⟨key, text, none, false⟩])[t]? = some load from hload] at hnone
      cases hnone
  · have hother : Function.update s.inflight key (some s.loads.length) other = some t := hother
    by_cases hkey : other = key
    · subst hkey
      rw [Function.update_self] at hother
      obtain rfl : s.loads.length = t := Option.some.inj hother
      exact ⟨_, List.getElem?_concat_length, rfl⟩
    · rw [Function.update_of_ne hkey] at hother
      exact (h.table other t hother).mono hext

/-- A load that gets on keeps its place in the table while it runs. -/
theorem Inv.setLoad (h : Inv provider s) {t : ℕ} {load load' : Load F ε}
    (hload : s.loads[t]? = some load) (hkey : load'.key = load.key)
    (houtcome : ∀ outcome, load.outcome = some outcome → load'.outcome = some outcome) :
    Inv provider { s with loads := s.loads.set t load' } := by
  have hext := extends_set hload hkey houtcome
  refine ⟨fun i other hother hrunning => ?_, fun key i hi => (h.table key i hi).mono hext,
    fun call hcall => (h.calls call hcall).mono hext,
    fun cleanup hcleanup => (h.cleanups cleanup hcleanup).mono hext, h.holder⟩
  have hother : (s.loads.set t load')[i]? = some other := hother
  by_cases hi : t = i
  · subst hi
    rw [List.getElem?_set_self (List.getElem?_eq_some_iff.mp hload).1] at hother
    obtain rfl : load' = other := Option.some.inj hother
    have hbefore : load.outcome = none := by
      rw [Option.eq_none_iff_forall_ne_some]
      intro outcome heq
      rw [houtcome outcome heq] at hrunning
      cases hrunning
    rw [hkey]
    exact h.running t load hload hbefore
  · rw [List.getElem?_set_ne hi] at hother
    exact h.running i other hother hrunning

/-- A clean-up task removes a load that is done, so no load that runs. -/
theorem Inv.remove (h : Inv provider s) {cleanup : Cleanup} (hcleanup : CleanupOk s.loads cleanup)
    (htable : s.inflight cleanup.key = some cleanup.task) :
    Inv provider { s with inflight := Function.update s.inflight cleanup.key none } := by
  refine ⟨fun t load hload hrunning => ?_, fun key t ht => ?_, h.calls, h.cleanups, h.holder⟩
  · have hin := h.running t load hload hrunning
    have hne : load.key ≠ cleanup.key := by
      intro hkey
      rw [hkey, htable] at hin
      obtain ⟨done, hdone, -, houtcome⟩ := hcleanup
      rw [Option.some.inj hin, hload] at hdone
      obtain rfl : load = done := Option.some.inj hdone
      rw [hrunning] at houtcome
      cases houtcome
    show Function.update s.inflight cleanup.key none load.key = some t
    rw [Function.update_of_ne hne, hin]
  · have ht : Function.update s.inflight cleanup.key none key = some t := ht
    by_cases hkey : key = cleanup.key
    · rw [hkey, Function.update_self] at ht
      cases ht
    · rw [Function.update_of_ne hkey] at ht
      exact h.table key t ht

/-- A call that goes on, and holds the lock if it did. -/
theorem Inv.setCall (h : Inv provider s) {c : ℕ} {call : Call F ε} {phase : CallPhase F ε}
    (hcall : s.calls[c]? = some call) (hok : CallOk provider s.loads { call with phase })
    (hphase : (call.phase = .entered ∨ ∃ task, call.phase = .joined task) →
      phase = .entered ∨ ∃ task, phase = .joined task) :
    Inv provider (s.setCall c call phase) :=
  h.of_same rfl rfl (callOk_setCall h hok) h.cleanups fun holder hholder =>
    holds_setCall hcall hphase (h.holder holder hholder)

theorem Inv.setCleanup (h : Inv provider s) {i : ℕ} {cleanup : Cleanup} {phase : ClearPhase}
    (hcleanup : s.cleanups[i]? = some cleanup) (hphase : phase = .entered ∨ phase = .cleared) :
    Inv provider (s.setCleanup i cleanup phase) :=
  h.of_same rfl rfl h.calls (cleanupOk_setCleanup h hcleanup) fun holder hholder =>
    holds_setCleanup hcleanup hphase (h.holder holder hholder)

/-- The lock is given back. -/
theorem Inv.release (h : Inv provider s) (hloads : s'.loads = s.loads)
    (hinflight : s'.inflight = s.inflight) (hcalls : ∀ call ∈ s'.calls, CallOk provider s.loads call)
    (hcleanups : ∀ cleanup ∈ s'.cleanups, CleanupOk s.loads cleanup) (hlock : s'.lock = none) :
    Inv provider s' :=
  h.of_same hloads hinflight hcalls hcleanups fun holder hholder => by
    rw [hlock] at hholder
    cases hholder

/-- Every step keeps the invariant. -/
theorem Inv.moves (h : Inv provider s) {l : Label F ε} (hmoves : Moves provider s l s') :
    Inv provider s' := by
  cases hmoves with
  | call text => exact h.call text
  | cancel hcall hphase =>
      refine h.setCall hcall trivial fun hat => ?_
      rcases hphase with hphase | ⟨task, hphase⟩ <;> simp [hphase] at hat
  | @enter c call hcall hphase hlock =>
      -- The lock is free before, so the call that enters is the only holder to check.
      refine h.of_same rfl rfl (callOk_setCall h trivial) h.cleanups fun holder hholder => ?_
      obtain rfl : Holder.call c = holder := Option.some.inj hholder
      exact ⟨_, List.getElem?_set_self (List.getElem?_eq_some_iff.mp hcall).1, .inl rfl⟩
  | @found c task call hcall hphase htable =>
      exact h.setCall hcall (h.table _ _ htable) fun _ => .inr ⟨task, rfl⟩
  | @started c call hcall hphase htable =>
      -- The table gets the new load first, and the call joins it after.
      have hstart : Inv provider (s.start (provider.key call.text) call.text) := h.start htable
      have hcall' : (s.start (provider.key call.text) call.text).calls[c]? = some call := hcall
      have hload : IsLoad (s.start (provider.key call.text) call.text : State F ε).loads
          s.loads.length (provider.key call.text) :=
        ⟨_, List.getElem?_concat_length, rfl⟩
      have hjoined : Inv provider ((s.start (provider.key call.text) call.text).setCall c call
          (.joined s.loads.length)) := hstart.setCall hcall' hload fun _ => .inr ⟨_, rfl⟩
      exact hjoined
  | @leave c task call hcall hphase =>
      have hok := h.calls call (List.mem_of_getElem? hcall)
      rw [CallOk, hphase] at hok
      exact h.release rfl rfl (callOk_setCall h hok) h.cleanups rfl
  | @receive c task call load outcome hcall hphase hload houtcome =>
      have hok := h.calls call (List.mem_of_getElem? hcall)
      rw [CallOk, hphase] at hok
      obtain ⟨load', hload', hkey⟩ := hok
      obtain rfl : load = load' := Option.some.inj (hload.symm.trans hload')
      refine h.setCall hcall ⟨task, load, hload, hkey, houtcome⟩ fun hat => ?_
      simp [hphase] at hat
  | complete answers hload houtcome =>
      refine h.setLoad hload rfl fun outcome heq => ?_
      rw [houtcome] at heq
      cases heq
  | @callback t load outcome hload houtcome hcalled =>
      -- The load is marked as called back, and only then the cleanup that waits for it is appended.
      have hset : Inv provider { s with loads := s.loads.set t { load with calledBack := true } } :=
        h.setLoad hload rfl fun _ heq => heq
      have hdone : CleanupOk (s.loads.set t { load with calledBack := true })
          ⟨load.key, t, .waiting⟩ :=
        ⟨_, List.getElem?_set_self (List.getElem?_eq_some_iff.mp hload).1, rfl, by simp [houtcome]⟩
      refine hset.of_same rfl rfl hset.calls (fun cleanup hcleanup => ?_) fun holder hholder => ?_
      · rcases List.mem_append.mp hcleanup with hcleanup | hcleanup
        · exact hset.cleanups cleanup hcleanup
        · rw [List.mem_singleton.mp hcleanup]
          exact hdone
      · have hholds := h.holder holder hholder
        cases holder with
        | call c => exact hholds
        | cleanup i =>
            obtain ⟨cleanup, hcleanup, hat⟩ := hholds
            refine ⟨cleanup, ?_, hat⟩
            show (s.cleanups ++ _)[i]? = some cleanup
            rw [List.getElem?_append_left (List.getElem?_eq_some_iff.mp hcleanup).1, hcleanup]
  | @enterClear i cleanup hcleanup hphase hlock =>
      refine h.of_same rfl rfl h.calls (cleanupOk_setCleanup h hcleanup) fun holder hholder => ?_
      obtain rfl : Holder.cleanup i = holder := Option.some.inj hholder
      exact ⟨_, List.getElem?_set_self (List.getElem?_eq_some_iff.mp hcleanup).1, .inl rfl⟩
  | @clear i cleanup hcleanup hphase htable =>
      -- Only a load that is done is taken out of the table.
      have hdone := h.cleanups cleanup (List.mem_of_getElem? hcleanup)
      have hcleared : Inv provider
          (({ s with inflight := Function.update s.inflight cleanup.key none } :
            State F ε).setCleanup i cleanup .cleared) :=
        (h.remove hdone htable).setCleanup hcleanup (.inr rfl)
      exact hcleared
  | keep hcleanup hphase htable => exact h.setCleanup hcleanup (.inr rfl)
  | leaveClear hcleanup hphase =>
      exact h.release rfl rfl h.calls (cleanupOk_setCleanup h hcleanup) rfl

theorem inv_initial : Inv provider (initial : State F ε) where
  running := by simp [initial]
  table := by simp [initial]
  calls := by simp [initial]
  cleanups := by simp [initial]
  holder := by simp [initial]

/-- The invariant holds in every state that is reached. -/
theorem inv_of_run {tr : List (State F ε × Label F ε)}
    (h : (system provider).Run System.always tr s) : Inv provider s := by
  refine h.invariant (I := fun _ s => Inv provider s) (fun s hs => ?_) fun _ s l s' _ hinv _ hstep =>
    hinv.moves (moves_of_next hstep)
  rw [hs]
  exact inv_initial

/-! ## Progress -/

/-- A new call and a cancellation come from outside. -/
def Label.isOutside : Label F ε → Bool
  | .call _ | .cancel _ => true
  | _ => false

/-- Nothing goes on unless a call comes in or is cancelled. -/
def Quiescent (provider : CachedQueryEmbeddingProvider F) (s : State F ε) : Prop :=
  ∀ l : Label F ε, l.isOutside = false → provider.next s l = none

/-- A call that has received an outcome or was cancelled. -/
def Settled (call : Call F ε) : Prop :=
  call.phase = .cancelled ∨ ∃ outcome, call.phase = .received outcome

/-- Who holds the lock can go on. -/
theorem Holds.goes_on {holder : Holder} (h : Holds s holder) (hquiet : Quiescent provider s) :
    False := by
  cases holder with
  | call c =>
      obtain ⟨call, hcall, hphase | ⟨task, hphase⟩⟩ := h
      · have hnone := hquiet (.join c) rfl
        simp only [next, hcall, Option.bind_some, nextCall, hphase] at hnone
        split at hnone <;> cases hnone
      · have hnone := hquiet (.leave c) rfl
        simp only [next, hcall, Option.bind_some, nextCall, hphase] at hnone
        cases hnone
  | cleanup i =>
      obtain ⟨cleanup, hcleanup, hphase | hphase⟩ := h
      · have hnone := hquiet (.clear i) rfl
        simp only [next, hcleanup, Option.bind_some, nextCleanup, hphase] at hnone
        split at hnone <;> cases hnone
      · have hnone := hquiet (.leaveClear i) rfl
        simp only [next, hcleanup, Option.bind_some, nextCleanup, hphase] at hnone
        cases hnone

/-- Where nothing goes on, every call has received an outcome or was cancelled. -/
theorem Inv.settled (h : Inv provider s) (hquiet : Quiescent provider s) :
    ∀ call ∈ s.calls, Settled call := by
  intro call hmem
  obtain ⟨c, hcall⟩ := List.mem_iff_getElem?.mp hmem
  have hlock : s.lock = none := by
    cases hlock : s.lock with
    | none => rfl
    | some holder => exact ((h.holder holder hlock).goes_on hquiet).elim
  cases hphase : call.phase with
  | waiting =>
      have hnone := hquiet (.enter c) rfl
      simp only [next, hcall, Option.bind_some, nextCall, hphase, hlock] at hnone
      cases hnone
  | entered =>
      have hholds : Holds s (.call c) := ⟨call, hcall, .inl hphase⟩
      exact (hholds.goes_on hquiet).elim
  | joined task =>
      have hholds : Holds s (.call c) := ⟨call, hcall, .inr ⟨task, hphase⟩⟩
      exact (hholds.goes_on hquiet).elim
  | awaiting task =>
      have hok := h.calls call hmem
      rw [CallOk, hphase] at hok
      obtain ⟨load, hload, -⟩ := hok
      cases houtcome : load.outcome with
      | none =>
          have hnone := hquiet (.complete task ⟨none, .ok []⟩) rfl
          simp only [next, hload, Option.bind_some, nextLoad, houtcome] at hnone
          cases hnone
      | some outcome =>
          have hnone := hquiet (.receive c) rfl
          simp only [next, hcall, Option.bind_some, nextCall, hphase, hload, houtcome,
            Option.map_some] at hnone
          cases hnone
  | received outcome => exact .inr ⟨outcome, hphase⟩
  | cancelled => exact .inl hphase

/-! ### How long it takes -/

/-- The steps that a call, and the load that it may start, can still take. -/
def CallPhase.work : CallPhase F ε → ℕ
  | .waiting => 9
  | .entered => 8
  | .joined _ => 2
  | .awaiting _ => 1
  | _ => 0

/-- The steps of a load, of its callback and of the clean-up task. -/
def Load.work (load : Load F ε) : ℕ :=
  (if load.outcome.isNone then 1 else 0) + (if load.calledBack then 0 else 4)

def ClearPhase.work : ClearPhase → ℕ
  | .waiting => 3
  | .entered => 2
  | .cleared => 1
  | .finished => 0

/-- A bound on the steps that are left. -/
def State.work (s : State F ε) : ℕ :=
  (s.calls.map fun call => call.phase.work).sum + (s.loads.map Load.work).sum +
    (s.cleanups.map fun cleanup => cleanup.phase.work).sum

theorem sum_map_set {α : Type} (w : α → ℕ) {xs : List α} {i : ℕ} {a : α} (h : xs[i]? = some a)
    (b : α) : ((xs.set i b).map w).sum + w a = (xs.map w).sum + w b := by
  induction xs generalizing i with
  | nil => cases h
  | cons x xs ih =>
      cases i with
      | zero =>
          obtain rfl : x = a := by simpa using h
          simp only [List.set_cons_zero, List.map_cons, List.sum_cons]
          omega
      | succ i =>
          have hrest := ih (i := i) (by simpa using h)
          simp only [List.set_cons_succ, List.map_cons, List.sum_cons]
          omega

/-- What a call has left to do changes with its phase only. -/
theorem work_setCall {c : ℕ} {call : Call F ε} (phase : CallPhase F ε)
    (hcall : s.calls[c]? = some call) :
    (s.setCall c call phase).work + call.phase.work = s.work + phase.work := by
  have hsum : ((s.calls.set c { call with phase }).map fun call => call.phase.work).sum +
      call.phase.work = (s.calls.map fun call => call.phase.work).sum + phase.work :=
    sum_map_set (fun call : Call F ε => call.phase.work) hcall { call with phase }
  simp only [State.work, State.setCall]
  omega

theorem work_setCleanup {i : ℕ} {cleanup : Cleanup} (phase : ClearPhase)
    (hcleanup : s.cleanups[i]? = some cleanup) :
    (s.setCleanup i cleanup phase).work + cleanup.phase.work = s.work + phase.work := by
  have hsum : ((s.cleanups.set i { cleanup with phase }).map fun cleanup => cleanup.phase.work).sum +
      cleanup.phase.work = (s.cleanups.map fun cleanup => cleanup.phase.work).sum + phase.work :=
    sum_map_set (fun cleanup : Cleanup => cleanup.phase.work) hcleanup { cleanup with phase }
  simp only [State.work, State.setCleanup]
  omega

theorem Load.work_complete {load : Load F ε} (h : load.outcome = none)
    (outcome : Except ε (List F)) :
    ({ load with outcome := some outcome } : Load F ε).work + 1 = load.work := by
  simp [Load.work, h]
  omega

theorem Load.work_callback {load : Load F ε} (h : load.calledBack = false) :
    ({ load with calledBack := true } : Load F ε).work + 4 = load.work := by
  simp [Load.work, h]

theorem work_start (s : State F ε) (key text : Text) : (s.start key text).work = s.work + 5 := by
  simp only [State.work, State.start, List.map_append, List.sum_append, List.map_singleton,
    List.sum_singleton]
  simp [Load.work]
  omega

/-- Every step but a new call leaves less to do. -/
theorem Moves.work_lt {l : Label F ε} (h : Moves provider s l s') (hl : l.isOutside = false) :
    s'.work < s.work := by
  cases h with
  | call text => cases hl
  | cancel hcall hphase => cases hl
  | enter hcall hphase hlock =>
      have hwork := work_setCall .entered hcall
      rw [hphase] at hwork
      simp only [CallPhase.work, State.work] at hwork ⊢
      omega
  | @found c task call hcall hphase htable =>
      have hwork := work_setCall (.joined task) hcall
      rw [hphase] at hwork
      simp only [CallPhase.work] at hwork
      omega
  | @started c call hcall hphase htable =>
      have hwork := work_setCall (.joined s.loads.length) hcall
      rw [hphase] at hwork
      rw [work_start]
      simp only [CallPhase.work] at hwork
      omega
  | @leave c task call hcall hphase =>
      have hwork := work_setCall (.awaiting task) hcall
      rw [hphase] at hwork
      simp only [CallPhase.work, State.work] at hwork ⊢
      omega
  | @receive c task call load outcome hcall hphase hload houtcome =>
      have hwork := work_setCall (.received outcome) hcall
      rw [hphase] at hwork
      simp only [CallPhase.work] at hwork
      omega
  | @complete t load answers hload houtcome =>
      -- A load that gets its outcome, and later its callback, has one thing less to do.
      have hsum := sum_map_set Load.work hload
        { load with outcome := some (provider.loadOrEmbed answers) }
      have hload := Load.work_complete houtcome (provider.loadOrEmbed answers)
      simp only [State.work]
      omega
  | @callback t load outcome hload houtcome hcalled =>
      have hsum := sum_map_set Load.work hload { load with calledBack := true }
      have hload := Load.work_callback hcalled
      -- The callback queues a cleanup, which costs less than the callback itself did.
      have hwaiting : ClearPhase.waiting.work = 3 := rfl
      simp only [State.work, List.map_append, List.sum_append, List.map_singleton,
        List.sum_singleton]
      omega
  | enterClear hcleanup hphase hlock =>
      have hwork := work_setCleanup .entered hcleanup
      rw [hphase] at hwork
      simp only [ClearPhase.work, State.work] at hwork ⊢
      omega
  | clear hcleanup hphase htable =>
      have hwork := work_setCleanup .cleared hcleanup
      rw [hphase] at hwork
      simp only [ClearPhase.work, State.work] at hwork ⊢
      omega
  | keep hcleanup hphase htable =>
      have hwork := work_setCleanup .cleared hcleanup
      rw [hphase] at hwork
      simp only [ClearPhase.work] at hwork
      omega
  | leaveClear hcleanup hphase =>
      have hwork := work_setCleanup .finished hcleanup
      rw [hphase] at hwork
      simp only [ClearPhase.work, State.work] at hwork ⊢
      omega

/-- Without new calls and cancellations so many steps are taken at the most. -/
theorem length_path_le {tr : List (State F ε × Label F ε)}
    (h : (system provider).Path (fun _ _ l _ => l.isOutside = false) s tr s') :
    tr.length + s'.work ≤ s.work := by
  induction h with
  | nil => simp
  | @cons tr s₁ s₂ l _ hl hstep ih =>
      have hlt := (moves_of_next hstep).work_lt hl
      rw [List.length_cons]
      omega

/-- In every run one load of each key runs at the most, and what a call has received is the outcome of
a load of its key. From every state that is reached so many steps are taken without a new call at the
most, and where none is left every call that was not cancelled has received an outcome. -/
theorem single_flight {tr : List (State F ε × Label F ε)}
    (h : (system provider).Run System.always tr s) :
    (∀ (t t' : ℕ) (load load' : Load F ε), s.loads[t]? = some load → s.loads[t']? = some load' →
        load.outcome = none → load'.outcome = none → load.key = load'.key → t = t') ∧
      (∀ call ∈ s.calls, ∀ outcome, call.phase = .received outcome →
        IsDone s.loads (provider.key call.text) outcome) ∧
      (∀ tr' s', (system provider).Path (fun _ _ l _ => l.isOutside = false) s tr' s' →
        tr'.length ≤ s.work) ∧
      (Quiescent provider s → ∀ call ∈ s.calls, Settled call) := by
  have hinv := inv_of_run h
  refine ⟨fun t t' load load' hload hload' hrunning hrunning' hkey =>
    hinv.running_unique hload hload' hrunning hrunning' hkey, fun call hcall outcome hphase => ?_,
    fun tr' s' hpath => ?_, hinv.settled⟩
  · have hok := hinv.calls call hcall
    rwa [CallOk, hphase] at hok
  · have hlength := length_path_le hpath
    omega

/-! ### Two calls of one query -/

def sample : CachedQueryEmbeddingProvider ℕ where
  providerName := str "remote"
  modelName := str "model"
  endpointFingerprint := str "local"
  version := str "v1"
  dimensions := none
  sha256 := id
  isfinite := fun _ => true

/-- The second call joins the load of the first, which is removed when both have its outcome. -/
def schedule : List (Label ℕ Unit) :=
  [.call (str "q"), .call (str "q"), .enter 0, .join 0, .leave 0, .enter 1, .join 1, .leave 1,
    .complete 0 ⟨none, .ok [7]⟩, .receive 0, .receive 1, .callback 0, .enterClear 0, .clear 0,
    .leaveClear 0]

/-- The state at the end. -/
def settled : State ℕ Unit := (System.exec sample.next initial schedule).getD initial

theorem exec_schedule : System.exec sample.next initial schedule = some settled := rfl

theorem run_schedule : (system sample).Run System.always
    (System.traceOf sample.next initial schedule) settled :=
  ⟨initial, rfl, System.exec_path exec_schedule⟩

/-- Both calls have received the vector of one load, and nothing is left to do. -/
theorem single_flight_schedule :
    settled.loads.length = 1 ∧
      settled.calls = [⟨str "q", .received (.ok [7])⟩, ⟨str "q", .received (.ok [7])⟩] ∧
      IsDone settled.loads (sample.key (str "q")) (.ok [7]) ∧
      ∀ tr' s', (system sample).Path (fun _ _ l _ => l.isOutside = false) settled tr' s' →
        tr' = [] := by
  obtain ⟨-, hreceived, hbound, -⟩ := single_flight run_schedule
  have hcalls : settled.calls =
      [⟨str "q", .received (.ok [7])⟩, ⟨str "q", .received (.ok [7])⟩] := rfl
  have hwork : settled.work = 0 := by decide +kernel
  refine ⟨by decide +kernel, hcalls, ?_, fun tr' s' hpath => ?_⟩
  · exact hreceived _ (hcalls ▸ List.mem_cons_self) _ rfl
  · have hlength := hbound tr' s' hpath
    rw [hwork] at hlength
    exact List.eq_nil_of_length_eq_zero (Nat.le_zero.mp hlength)

end CachedQueryEmbeddingProvider

end Odirag.Embedding
