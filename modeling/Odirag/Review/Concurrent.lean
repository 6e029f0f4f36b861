import Odirag.Review.Reconcile
import Odirag.Foundations.Parties

/-!
# Concurrent manual decisions

Reference: `manual_decision` of `backend/app/services/review.py`, with `add_review` and
`reconcile_crawl_tasks` of `backend/app/repositories/reviews.py`.

The parties are the documents: party `d` stands for the transactions that decide document `d`, one
after another, each of which may be rolled back at any point. A transaction sees the committed rows
and its own flushed row. `SELECT ... FOR UPDATE` takes the row lock of a waiting task, and the
transaction cannot take that step while another one holds the lock.
-/

namespace Odirag.Review

open Documents Crawl

/-- The committed rows, and the document whose transaction holds the row lock of the task. -/
structure Shared (δ : Type*) where
  task : CrawlTask
  document : δ → Document
  lock : Option δ := none

/-- A transaction of `manual_decision`, by the statement it has executed last. -/
inductive Transaction
  /-- No transaction is open. -/
  | idle
  /-- `get_document`. -/
  | loaded (decision : ManualDecision) (document : Document)
  /-- `add_review`. -/
  | flushed (row : Document)
  /-- The `SELECT ... FOR UPDATE`, with the waiting task it found. -/
  | selected (row : Document) (task : Option (Held CrawlTask))
  /-- The counts, assigned to the task. -/
  | counted (row : Document) (task : Option (Held CrawlTask))

/-- The statements of a transaction. -/
inductive Act
  | get (decision : ManualDecision)
  | flush
  | select
  | count (now : DateTime)
  | commit
  | rollback
deriving DecidableEq

variable {δ : Type*} [DecidableEq δ]

/-- The final statuses that the queries of the transaction on `d` see once it has flushed `row`. -/
def Shared.seen (sh : Shared δ) (d : δ) (row : Document) (e : δ) : FinalStatus :=
  (Function.update sh.document d row e).finalStatus

/-- The commit of a transaction: it saves the task it holds and releases the lock. -/
def Shared.commit (sh : Shared δ) (d : δ) (row : Document) (task : Option (Held CrawlTask)) :
    Shared δ where
  task := match task with
    | some m => CrawlTask.save m sh.task
    | none => sh.task
  document := Function.update sh.document d row
  lock := if task.isSome then none else sh.lock

theorem Shared.commit_document (sh : Shared δ) (d : δ) (row : Document)
    (task : Option (Held CrawlTask)) :
    (sh.commit d row task).document = Function.update sh.document d row := rfl

namespace Transaction

/-- The transaction holds the row lock. -/
def locks : Transaction → Bool
  | selected _ task | counted _ task => task.isSome
  | _ => false

/-- A transaction is open. -/
def isOpen : Transaction → Bool
  | idle => false
  | _ => true

/-- The next statement of the transaction on document `d`. -/
def next (linked : Finset δ) (d : δ) (a : Act) (sh : Shared δ) (t : Transaction) :
    Option (Shared δ × Transaction) :=
  match a, t with
  | .get decision, .idle => some (sh, .loaded decision (sh.document d))
  | .flush, .loaded decision document =>
      some (sh, .flushed (ReviewService.flushDecision decision document (sh.document d)))
  | .select, .flushed row =>
      if d ∈ linked ∧ sh.task.status = .waitingReview then
        match sh.lock with
        | none => some ({ sh with lock := some d }, .selected row (some (.fresh sh.task)))
        | some _ => none
      else some (sh, .selected row none)
  | .count now, .selected row task =>
      some (sh, .counted row (task.map (·.assign (reconcileTask now (sh.seen d row) linked))))
  | .commit, .counted row task => some (sh.commit d row task, .idle)
  | .rollback, t =>
      if t.isOpen then some ({ sh with lock := if t.locks then none else sh.lock }, .idle)
      else none
  | _, _ => none

end Transaction

/-- The reviewers of the documents that are linked to the task. -/
def reviewers (linked : Finset δ) : Parties δ (Shared δ) Transaction Act where
  next := Transaction.next linked

/-- The initial states: the task waits for its review and no transaction is open. -/
def NoReviewYet (s : Parties.State δ (Shared δ) Transaction) : Prop :=
  s.shared.task.status = .waitingReview ∧ s.shared.lock = none ∧ ∀ d, s.loc d = .idle

/-- The interleavings of the reviewers. -/
def reviewSystem (linked : Finset δ) :
    System (Parties.State δ (Shared δ) Transaction) (δ × Act) :=
  (reviewers linked).system NoReviewYet

/-- A decision of document `d` has been committed. -/
def HasDecision (tr : List (Parties.State δ (Shared δ) Transaction × (δ × Act))) (d : δ) : Prop :=
  ∃ s, (s, (d, Act.commit)) ∈ tr

/-! ## One statement -/

/-- What a statement does to the committed rows: nothing, taking or releasing the lock, or the
commit. -/
theorem Transaction.next_cases {linked : Finset δ} {d : δ} {a : Act} {sh sh' : Shared δ}
    {t t' : Transaction} (h : Transaction.next linked d a sh t = some (sh', t')) :
    (a ≠ .commit ∧ sh' = sh) ∨
      (a ≠ .commit ∧ sh.lock = none ∧ sh' = { sh with lock := some d }) ∨
      (a ≠ .commit ∧ t.locks = true ∧ sh' = { sh with lock := none }) ∨
      (a = .commit ∧ ∃ row task, t = .counted row task ∧ sh' = sh.commit d row task) := by
  unfold Transaction.next at h
  split at h
  · cases h
    exact .inl ⟨by simp, rfl⟩
  · cases h
    exact .inl ⟨by simp, rfl⟩
  · split at h
    · split at h
      · next hlock =>
          cases h
          exact .inr (.inl ⟨by simp, hlock, rfl⟩)
      · cases h
    · cases h
      exact .inl ⟨by simp, rfl⟩
  · cases h
    exact .inl ⟨by simp, rfl⟩
  · next row task =>
      cases h
      exact .inr (.inr (.inr ⟨rfl, row, task, rfl, rfl⟩))
  · split at h
    · cases h
      cases hlocks : t.locks
      · exact .inl ⟨by simp, rfl⟩
      · exact .inr (.inr (.inl ⟨by simp, rfl, rfl⟩))
    · cases h
  · cases h

/-! ## The outline of a transaction -/

/-- What the transaction on `d` knows between its statements. -/
def Transaction.Sound (linked : Finset δ) (d : δ) (sh : Shared δ) : Transaction → Prop
  | idle => sh.lock ≠ some d
  | loaded _ document => sh.lock ≠ some d ∧
      (document.finalStatus.decided = true → (sh.document d).finalStatus.decided = true)
  | flushed row => sh.lock ≠ some d ∧ row.finalStatus.decided = true
  | selected row none | counted row none =>
      sh.lock ≠ some d ∧ row.finalStatus.decided = true ∧
        (d ∈ linked → sh.task.status ≠ .waitingReview)
  | selected row (some m) =>
      sh.lock = some d ∧ row.finalStatus.decided = true ∧ d ∈ linked ∧
        sh.task.status = .waitingReview ∧ m = .fresh sh.task
  | counted row (some m) =>
      sh.lock = some d ∧ row.finalStatus.decided = true ∧ d ∈ linked ∧
        sh.task.status = .waitingReview ∧ m.loaded = sh.task ∧
        ∃ now, m.current = reconcileTask now (sh.seen d row) linked sh.task

/-- What a statement of another transaction leaves alone for the transaction on `d`. -/
structure Frame (linked : Finset δ) (d : δ) (sh sh' : Shared δ) : Prop where
  document : sh'.document d = sh.document d
  free : sh.lock ≠ some d → sh'.lock ≠ some d
  notWaiting : sh.task.status ≠ .waitingReview → sh'.task.status ≠ .waitingReview
  locked : sh.lock = some d → sh'.lock = some d ∧ sh'.task = sh.task ∧
    ∀ e ∈ linked, sh'.document e = sh.document e

/-- The outline survives what the frame allows. -/
theorem Transaction.Sound.frame {linked : Finset δ} {d : δ} {sh sh' : Shared δ} {t : Transaction}
    (h : t.Sound linked d sh) (hframe : Frame linked d sh sh') : t.Sound linked d sh' := by
  cases t with
  | idle => exact hframe.free h
  | loaded decision document =>
      refine ⟨hframe.free h.1, ?_⟩
      rw [hframe.document]
      exact h.2
  | flushed row => exact ⟨hframe.free h.1, h.2⟩
  | selected row task =>
      cases task with
      | none => exact ⟨hframe.free h.1, h.2.1, fun hd => hframe.notWaiting (h.2.2 hd)⟩
      | some m =>
          obtain ⟨hlock, hrow, hd, hwaiting, hm⟩ := h
          obtain ⟨hlock', htask, -⟩ := hframe.locked hlock
          exact ⟨hlock', hrow, hd, htask ▸ hwaiting, htask ▸ hm⟩
  | counted row task =>
      cases task with
      | none => exact ⟨hframe.free h.1, h.2.1, fun hd => hframe.notWaiting (h.2.2 hd)⟩
      | some m =>
          obtain ⟨hlock, hrow, hd, hwaiting, hloaded, now, hcurrent⟩ := h
          obtain ⟨hlock', htask, hdocuments⟩ := hframe.locked hlock
          refine ⟨hlock', hrow, hd, htask ▸ hwaiting, htask ▸ hloaded, now, ?_⟩
          rw [hcurrent, htask]
          refine (reconcileTask_congr (fun e he => ?_) now sh.task).symm
          unfold Shared.seen
          by_cases hed : e = d
          · rw [hed, Function.update_self, Function.update_self]
          · rw [Function.update_of_ne hed, Function.update_of_ne hed, hdocuments e he]

/-- The lock is held by the transaction that locks. -/
theorem Transaction.Sound.lock_iff {linked : Finset δ} {d : δ} {sh : Shared δ} {t : Transaction}
    (h : t.Sound linked d sh) : sh.lock = some d ↔ t.locks = true := by
  cases t with
  | idle => exact iff_of_false h Bool.false_ne_true
  | loaded decision document => exact iff_of_false h.1 Bool.false_ne_true
  | flushed row => exact iff_of_false h.1 Bool.false_ne_true
  | selected row task =>
      cases task with
      | none => exact iff_of_false h.1 Bool.false_ne_true
      | some m => exact iff_of_true h.1 rfl
  | counted row task =>
      cases task with
      | none => exact iff_of_false h.1 Bool.false_ne_true
      | some m => exact iff_of_true h.1 rfl

/-- Whose transaction has the lock has found the task waiting. -/
theorem Transaction.Sound.waiting {linked : Finset δ} {d : δ} {sh : Shared δ} {t : Transaction}
    (h : t.Sound linked d sh) (hlock : sh.lock = some d) : sh.task.status = .waitingReview := by
  have hlocks := h.lock_iff.mp hlock
  cases t with
  | selected row task =>
      cases task with
      | none => cases hlocks
      | some m => exact h.2.2.2.1
  | counted row task =>
      cases task with
      | none => cases hlocks
      | some m => exact h.2.2.2.1
  | _ => cases hlocks

/-- The commit of a task that has been reconciled under the lock. -/
theorem Shared.commit_some {linked : Finset δ} {d : δ} {sh : Shared δ} {row : Document}
    {m : Held CrawlTask} (h : (Transaction.counted row (some m)).Sound linked d sh) :
    ∃ now, (sh.commit d row (some m)).task =
      reconcileTask now (fun e => ((sh.commit d row (some m)).document e).finalStatus) linked
        sh.task := by
  obtain ⟨-, -, -, -, hloaded, now, hcurrent⟩ := h
  exact ⟨now, (CrawlTask.save_of_loaded hloaded).trans hcurrent⟩

/-- A statement of transaction `i` respects the frame of every other transaction. -/
theorem Transaction.Sound.frame_other {linked : Finset δ} {i d : δ} {a : Act} {sh sh' : Shared δ}
    {t t' other : Transaction} (hne : d ≠ i) (hsound : t.Sound linked i sh)
    (hother : other.Sound linked d sh)
    (h : Transaction.next linked i a sh t = some (sh', t')) : Frame linked d sh sh' := by
  rcases Transaction.next_cases h with ⟨-, rfl⟩ | ⟨-, hfree, rfl⟩ | ⟨-, hlocks, rfl⟩ |
    ⟨-, row, task, rfl, rfl⟩
  · exact ⟨rfl, id, id, fun hlock => ⟨hlock, rfl, fun _ _ => rfl⟩⟩
  · refine ⟨rfl, fun _ heq => hne (Option.some.inj heq).symm, id, fun hlock => ?_⟩
    rw [hfree] at hlock
    cases hlock
  · have hlock := hsound.lock_iff.mpr hlocks
    refine ⟨rfl, fun _ => by simp, id, fun hd => ?_⟩
    exact absurd (Option.some.inj (hd.symm.trans hlock)) hne
  · have hdocument : ∀ e, e ≠ i → (sh.commit i row task).document e = sh.document e :=
      fun e he => by rw [Shared.commit_document, Function.update_of_ne he]
    cases task with
    | none =>
        obtain ⟨-, -, hunlinked⟩ := hsound
        refine ⟨hdocument d hne, id, id, fun hlock => ⟨hlock, rfl, fun e he => hdocument e ?_⟩⟩
        -- The task waits while the other transaction holds it, so document `i` is not linked.
        rintro rfl
        exact hunlinked he (hother.waiting hlock)
    | some m =>
        have hlock := hsound.1
        refine ⟨hdocument d hne, fun _ => by simp [Shared.commit], ?_, fun hd => ?_⟩
        · exact fun hnot => absurd hsound.2.2.2.1 hnot
        · exact absurd (Option.some.inj (hd.symm.trans hlock)) hne

/-- A statement keeps the outline of its own transaction. -/
theorem Transaction.Sound.own {linked : Finset δ} {d : δ} {a : Act} {sh sh' : Shared δ}
    {t t' : Transaction} (hsound : t.Sound linked d sh)
    (h : Transaction.next linked d a sh t = some (sh', t')) : t'.Sound linked d sh' := by
  unfold Transaction.next at h
  split at h
  · cases h
    exact ⟨hsound, id⟩
  · cases h
    exact ⟨hsound.1, ReviewService.decided_flushDecision _ hsound.2⟩
  · split at h
    · next hwaiting =>
        split at h
        · cases h
          exact ⟨rfl, hsound.2, hwaiting.1, hwaiting.2, rfl⟩
        · cases h
    · next hwaiting =>
        cases h
        exact ⟨hsound.1, hsound.2, fun hd hstatus => hwaiting ⟨hd, hstatus⟩⟩
  · next now row task =>
      cases h
      cases task with
      | none => exact hsound
      | some m =>
          obtain ⟨hlock, hrow, hd, hwaiting, rfl⟩ := hsound
          exact ⟨hlock, hrow, hd, hwaiting, rfl, now, rfl⟩
  · next row task =>
      cases h
      cases task with
      | none => exact hsound.1
      | some m => simp [Transaction.Sound, Shared.commit]
  · split at h
    · cases h
      cases hlocks : t.locks
      · -- Nothing was locked, so the lock is somebody else's, if anybody's.
        have hfree := mt hsound.lock_iff.mp (by simp [hlocks])
        simpa [Transaction.Sound] using hfree
      · simp [Transaction.Sound]
    · cases h
  · cases h

/-- The outline of the reviewers. -/
theorem reviewers_outline (linked : Finset δ) :
    Parties.Outline (reviewers linked) NoReviewYet System.always
      fun d sh t => t.Sound linked d sh where
  start s hs d := by
    rw [hs.2.2 d]
    simp [Transaction.Sound, hs.2.1]
  own _ s d _ s' _ hs hnext := (hs d).own hnext
  other _ s i _ s' d hne _ hs hnext := (hs d).frame ((hs i).frame_other hne (hs d) hnext)

/-! ## The task -/

/-- The task has been completed with counts that add up, and its documents are decided. -/
structure Completed (linked : Finset δ) (sh : Shared δ) : Prop where
  status : sh.task.status = .completed
  pending : sh.task.pendingReviewCount = 0
  counts : sh.task.acceptedCount + sh.task.rejectedCount = linked.card
  decided : ∀ e ∈ linked, (sh.document e).finalStatus.decided = true

/-- What holds in every state: a committed decision stays, and the task is completed, or waits for
a document once one of its documents has been decided. -/
structure Progress (linked : Finset δ)
    (tr : List (Parties.State δ (Shared δ) Transaction × (δ × Act))) (sh : Shared δ) : Prop where
  decided : ∀ d, HasDecision tr d → (sh.document d).finalStatus.decided = true
  task : Completed linked sh ∨ (sh.task.status = .waitingReview ∧
    ((∃ d ∈ linked, HasDecision tr d) →
      countUndecided (fun e => (sh.document e).finalStatus) linked ≠ 0))

section Progress

omit [DecidableEq δ]

variable {linked : Finset δ} {tr : List (Parties.State δ (Shared δ) Transaction × (δ × Act))}
  {s : Parties.State δ (Shared δ) Transaction} {sh : Shared δ} {d e : δ} {a : Act}

/-- A statement that is no commit decides nothing. -/
theorem hasDecision_cons_of_ne (h : a ≠ .commit) :
    HasDecision ((s, (d, a)) :: tr) e ↔ HasDecision tr e := by
  simp [HasDecision, Ne.symm h]

/-- A commit decides its own document. -/
theorem hasDecision_commit :
    HasDecision ((s, (d, Act.commit)) :: tr) e ↔ e = d ∨ HasDecision tr e := by
  simp [HasDecision, exists_or]

/-- The lock plays no part in the progress. -/
theorem Progress.of_lock (h : Progress linked tr sh) (ha : a ≠ .commit) (lock : Option δ) :
    Progress linked ((s, (d, a)) :: tr) { sh with lock := lock } := by
  refine ⟨fun e he => h.decided e ((hasDecision_cons_of_ne ha).mp he), ?_⟩
  rcases h.task with hdone | ⟨hwaiting, hpending⟩
  · exact .inl ⟨hdone.status, hdone.pending, hdone.counts, hdone.decided⟩
  · simp only [hasDecision_cons_of_ne ha]
    exact .inr ⟨hwaiting, hpending⟩

variable [DecidableEq δ] in
/-- A commit is progress. -/
theorem Progress.commit (h : Progress linked tr sh) {row : Document}
    {task : Option (Held CrawlTask)} (hsound : (Transaction.counted row task).Sound linked d sh) :
    Progress linked ((s, (d, Act.commit)) :: tr) (sh.commit d row task) := by
  have hrow : row.finalStatus.decided = true := by
    cases task with
    | none => exact hsound.2.1
    | some m => exact hsound.2.1
  have hself : (sh.commit d row task).document d = row := by
    rw [Shared.commit_document, Function.update_self]
  have hother : ∀ e, e ≠ d → (sh.commit d row task).document e = sh.document e :=
    fun e he => by rw [Shared.commit_document, Function.update_of_ne he]
  refine ⟨fun e he => ?_, ?_⟩
  · by_cases hed : e = d
    · rw [hed, hself]
      exact hrow
    · rw [hother e hed]
      exact h.decided e ((hasDecision_commit.mp he).resolve_left hed)
  · cases task with
    | none =>
        rcases h.task with hdone | ⟨hwaiting, hpending⟩
        · refine .inl ⟨hdone.status, hdone.pending, hdone.counts, fun e he => ?_⟩
          by_cases hed : e = d
          · rw [hed, hself]
            exact hrow
          · rw [hother e hed]
            exact hdone.decided e he
        · -- The document is not linked: no linked document changes.
          have hunlinked : d ∉ linked := fun hd => hsound.2.2 hd hwaiting
          have hlinked : ∀ e ∈ linked, e ≠ d := fun e he hed => hunlinked (hed ▸ he)
          refine .inr ⟨hwaiting, ?_⟩
          rintro ⟨e, he, hdecision⟩
          rw [countUndecided_congr fun e he => by rw [hother e (hlinked e he)]]
          exact hpending ⟨e, he, (hasDecision_commit.mp hdecision).resolve_left (hlinked e he)⟩
    | some m =>
        obtain ⟨now, htask⟩ := Shared.commit_some hsound
        obtain ⟨haccepted, hrejected, hcount⟩ := reconcileTask_counts now
          (fun e => ((sh.commit d row (some m)).document e).finalStatus) linked sh.task
        have hstatus := reconcileTask_status now
          (fun e => ((sh.commit d row (some m)).document e).finalStatus) sh.task
          ⟨d, hsound.2.2.1⟩
        have hsum := countStatus_add
          (fun e => ((sh.commit d row (some m)).document e).finalStatus) linked
        rw [← htask] at haccepted hrejected hcount hstatus
        by_cases hzero : countUndecided
            (fun e => ((sh.commit d row (some m)).document e).finalStatus) linked = 0
        · rw [if_pos hzero] at hstatus
          refine .inl ⟨hstatus, hcount.trans hzero, ?_, countUndecided_eq_zero.mp hzero⟩
          rw [haccepted, hrejected]
          omega
        · rw [if_neg hzero] at hstatus
          exact .inr ⟨hstatus.trans hsound.2.2.2.1, fun _ => hzero⟩

end Progress

/-- The progress of every run. -/
theorem progress_of_run {linked : Finset δ}
    {tr : List (Parties.State δ (Shared δ) Transaction × (δ × Act))}
    {s : Parties.State δ (Shared δ) Transaction}
    (h : (reviewSystem linked).Run System.always tr s) : Progress linked tr s.shared := by
  refine h.invariant (I := fun tr s => Progress linked tr s.shared) (fun s hs => ?_) ?_
  · refine ⟨?_, .inr ⟨hs.1, ?_⟩⟩
    · rintro d ⟨_, hmem⟩
      cases hmem
    · rintro ⟨d, -, _, hmem⟩
      cases hmem
  · rintro tr s ⟨d, a⟩ s' hrun hprogress - hstep
    have hsound := (reviewers_outline linked).holds _ hrun d
    rcases Transaction.next_cases (Parties.next_of_step hstep) with
      ⟨ha, hsh⟩ | ⟨ha, -, hsh⟩ | ⟨ha, -, hsh⟩ | ⟨rfl, row, task, hloc, hsh⟩
    · rw [hsh]
      exact hprogress.of_lock ha s.shared.lock
    · rw [hsh]
      exact hprogress.of_lock ha (some d)
    · rw [hsh]
      exact hprogress.of_lock ha none
    · rw [hsh]
      rw [hloc] at hsound
      exact hprogress.commit hsound

/-- Once every document of a waiting task is decided, and one of them by a committed decision, the
task is completed, with counts that add up. -/
theorem completion_not_lost {linked : Finset δ}
    {tr : List (Parties.State δ (Shared δ) Transaction × (δ × Act))}
    {s : Parties.State δ (Shared δ) Transaction}
    (h : (reviewSystem linked).Run System.always tr s)
    (hsome : ∃ d ∈ linked, HasDecision tr d)
    (hall : ∀ d ∈ linked, HasDecision tr d ∨ (s.shared.document d).finalStatus.decided = true) :
    s.shared.task.status = .completed ∧ s.shared.task.pendingReviewCount = 0 ∧
      s.shared.task.acceptedCount + s.shared.task.rejectedCount = linked.card := by
  have hprogress := progress_of_run h
  rcases hprogress.task with hdone | ⟨-, hpending⟩
  · exact ⟨hdone.status, hdone.pending, hdone.counts⟩
  · refine absurd (countUndecided_eq_zero.mpr fun d hd => ?_) (hpending hsome)
    exact (hall d hd).elim (hprogress.decided d) id

/-- Two reviewers whose transactions overlap: the second waits for the lock of the first. -/
theorem completion_not_lost_two :
    ∃ (tr : List (Parties.State Bool (Shared Bool) Transaction × (Bool × Act))) (s : _),
      (reviewSystem Finset.univ).Run System.always tr s ∧
        s.shared.task.status = .completed ∧ s.shared.task.pendingReviewCount = 0 ∧
        s.shared.task.acceptedCount + s.shared.task.rejectedCount =
          (Finset.univ : Finset Bool).card := by
  let s₀ : Parties.State Bool (Shared Bool) Transaction :=
    { shared := { task := { status := .waitingReview, pendingReviewCount := 2 }
                  document := fun _ => { finalStatus := .pendingManualReview } }
      loc := fun _ => .idle }
  let sched : List (Bool × Act) :=
    [(true, .get .approve), (false, .get .reject), (true, .flush), (false, .flush),
      (false, .select), (false, .count 0), (false, .commit), (true, .select), (true, .count 1)]
  let P := reviewers (Finset.univ : Finset Bool)
  obtain ⟨s₁, h₁⟩ := Option.isSome_iff_exists.mp
    (by decide : (P.exec s₀ sched).isSome = true)
  have hlast : ((P.exec s₀ sched).bind fun s => P.move s true .commit).isSome = true := by decide
  rw [h₁] at hlast
  obtain ⟨s₂, h₂⟩ := Option.isSome_iff_exists.mp hlast
  have hinit : NoReviewYet s₀ := ⟨rfl, rfl, fun _ => rfl⟩
  have hrun := Parties.exec_run (P := P) (l := (true, .commit)) hinit h₁ h₂
  have hfirst : (false, Act.commit) ∈ (P.traceOf s₀ sched).map Prod.snd := by decide
  obtain ⟨⟨s₃, l⟩, hmem, rfl⟩ := List.mem_map.mp hfirst
  have hall : ∀ d, HasDecision ((s₁, (true, Act.commit)) :: P.traceOf s₀ sched) d := by
    intro d
    cases d with
    | true => exact ⟨s₁, List.mem_cons_self⟩
    | false => exact ⟨s₃, List.mem_cons_of_mem _ hmem⟩
  exact ⟨_, s₂, hrun, completion_not_lost hrun ⟨true, by simp, hall true⟩
    fun d _ => .inl (hall d)⟩

end Odirag.Review
