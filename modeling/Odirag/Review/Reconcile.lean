import Odirag.Documents.Review
import Odirag.Crawl.Task
import Mathlib.Data.Finset.Card
import Mathlib.Data.Finset.Basic

/-!
# Review decisions and the crawl tasks that wait for them

Reference: `reconcile_crawl_tasks` of `backend/app/repositories/reviews.py` and its callers in
`backend/app/services/review.py` and `backend/app/services/data_quality.py`.

Documents and tasks have ids of any type; `linked t` are the documents that the lineage rows of
task `t` name. The session is created with `autoflush=False`, so the counts are taken over the
rows as flushed: a final status assigned after the last flush is not among them.
-/

namespace Odirag.Review

open Documents Crawl

/-! ## Counting final statuses -/

section Counts

variable {δ : Type*}

/-- `counts.get(final_status, 0)` over the linked documents. -/
def countStatus (status : δ → FinalStatus) (linked : Finset δ) (final : FinalStatus) : ℕ :=
  (linked.filter fun d => status d = final).card

/-- How many linked documents are neither approved nor rejected. -/
def countUndecided (status : δ → FinalStatus) (linked : Finset δ) : ℕ :=
  (linked.filter fun d => (status d).decided = false).card

/-- Every linked document is approved, rejected or undecided. -/
theorem countStatus_add (status : δ → FinalStatus) (linked : Finset δ) :
    countStatus status linked .approved + countStatus status linked .rejected +
      countUndecided status linked = linked.card := by
  have hdecided : countStatus status linked .approved + countStatus status linked .rejected =
      (linked.filter fun d => (status d).decided = true).card := by
    classical
    unfold countStatus
    rw [← Finset.card_union_of_disjoint, ← Finset.filter_or]
    · simp only [FinalStatus.decided_iff]
    · rw [Finset.disjoint_filter]
      intro d _ happroved hrejected
      rw [happroved] at hrejected
      cases hrejected
  rw [hdecided, countUndecided]
  simpa using Finset.card_filter_add_card_filter_not (s := linked)
    fun d => (status d).decided = true

theorem countUndecided_eq_zero {status : δ → FinalStatus} {linked : Finset δ} :
    countUndecided status linked = 0 ↔ ∀ d ∈ linked, (status d).decided = true := by
  simp [countUndecided, Finset.filter_eq_empty_iff]

/-- The counts depend on the linked documents only. -/
theorem countUndecided_congr {status status' : δ → FinalStatus} {linked : Finset δ}
    (h : ∀ d ∈ linked, status' d = status d) :
    countUndecided status' linked = countUndecided status linked := by
  unfold countUndecided
  congr 1
  exact Finset.filter_congr fun d hd => by rw [h d hd]

theorem countStatus_congr {status status' : δ → FinalStatus} {linked : Finset δ}
    (h : ∀ d ∈ linked, status' d = status d) (final : FinalStatus) :
    countStatus status' linked final = countStatus status linked final := by
  unfold countStatus
  congr 1
  exact Finset.filter_congr fun d hd => by rw [h d hd]

/-- What `reconcile_crawl_tasks` makes of a waiting task. -/
def reconcileTask (now : DateTime) (status : δ → FinalStatus) (linked : Finset δ)
    (task : CrawlTask) : CrawlTask :=
  task.reconcile (countStatus status linked .approved) (countStatus status linked .rejected)
    linked.card now

theorem reconcileTask_congr {status status' : δ → FinalStatus} {linked : Finset δ}
    (h : ∀ d ∈ linked, status' d = status d) (now : DateTime) (task : CrawlTask) :
    reconcileTask now status' linked task = reconcileTask now status linked task := by
  unfold reconcileTask
  rw [countStatus_congr h, countStatus_congr h]

/-- The counts that a reconciliation stores. -/
theorem reconcileTask_counts (now : DateTime) (status : δ → FinalStatus) (linked : Finset δ)
    (task : CrawlTask) :
    (reconcileTask now status linked task).acceptedCount = countStatus status linked .approved ∧
      (reconcileTask now status linked task).rejectedCount =
        countStatus status linked .rejected ∧
      (reconcileTask now status linked task).pendingReviewCount =
        countUndecided status linked := by
  have hsum := countStatus_add status linked
  unfold reconcileTask CrawlTask.reconcile
  dsimp only
  split
  · exact ⟨rfl, rfl, by dsimp only; omega⟩
  · exact ⟨rfl, rfl, by dsimp only; omega⟩

/-- A reconciliation completes the task if it has documents and all of them are decided. -/
theorem reconcileTask_status (now : DateTime) (status : δ → FinalStatus) {linked : Finset δ}
    (task : CrawlTask) (hlinked : linked.Nonempty) :
    (reconcileTask now status linked task).status =
      if countUndecided status linked = 0 then .completed else task.status := by
  have hsum := countStatus_add status linked
  have hpos := hlinked.card_pos
  unfold reconcileTask CrawlTask.reconcile
  dsimp only
  by_cases hzero : countUndecided status linked = 0
  · rw [if_pos (by omega), if_pos hzero]
  · rw [if_neg (by omega), if_neg hzero]

variable [DecidableEq δ]

/-- One linked document changes the number of undecided documents by its own status only. -/
theorem countUndecided_update (document : δ → Document) {linked : Finset δ} {d : δ}
    (hd : d ∈ linked) (new : Document) :
    countUndecided (fun e => (Function.update document d new e).finalStatus) linked =
      countUndecided (fun e => (document e).finalStatus) (linked.erase d) +
        if new.finalStatus.decided then 0 else 1 := by
  have hothers : ∀ e ∈ linked.erase d,
      (Function.update document d new e).finalStatus = (document e).finalStatus := by
    intro e he
    rw [Function.update_of_ne (Finset.ne_of_mem_erase he)]
  rw [← countUndecided_congr hothers]
  unfold countUndecided
  rw [← Finset.insert_erase hd, Finset.erase_insert (Finset.notMem_erase d linked),
    Finset.filter_insert]
  cases hnew : new.finalStatus.decided
  · simp [hnew]
  · simp [hnew]

end Counts

/-! ## Operations that decide documents -/

/-- The rows that the deciding operations read and write. -/
structure ReviewDb (τ δ : Type*) where
  document : δ → Document
  task : τ → CrawlTask
  linked : τ → Finset δ

/-- An operation that can decide documents. -/
inductive Deciding (δ : Type*)
  | review (d : δ) (rule : FilterDecision) (llm : LlmOutcome)
  | manualDecision (d : δ) (decision : ManualDecision)
  /-- `DataDebtCleanupService.run` over the documents that `list_pending_documents` returned. -/
  | cleanup (hardMinimumChars : ℕ) (hasAttachments : δ → Bool) (pending : List δ)

section Operations

variable {τ δ : Type*} [DecidableEq δ]

namespace ReviewDb

/-- The final statuses of the committed rows. -/
def finalStatus (db : ReviewDb τ δ) (d : δ) : FinalStatus := (db.document d).finalStatus

/-- `reconcile_crawl_tasks` and `commit` of a session that holds document `d`: the counts see the
flushed row, the commit stores the current one. -/
def reconcileAndCommit (now : DateTime) (d : δ) (m : Held Document) (db : ReviewDb τ δ) :
    ReviewDb τ δ :=
  { db with
    document := Function.update db.document d m.current
    task := fun t =>
      if d ∈ db.linked t ∧ (db.task t).status = .waitingReview then
        reconcileTask now (fun e => (Function.update db.document d m.loaded e).finalStatus)
          (db.linked t) (db.task t)
      else db.task t }

/-- Task `t` is linked to document `d` and waits for its review. -/
def Waits (db : ReviewDb τ δ) (d : δ) (t : τ) : Prop :=
  d ∈ db.linked t ∧ (db.task t).status = .waitingReview

/-- The waiting tasks of document `d` count their undecided documents, and have some. -/
def Reconciled (db : ReviewDb τ δ) (d : δ) : Prop :=
  ∀ t, db.Waits d t →
    (db.task t).pendingReviewCount = countUndecided db.finalStatus (db.linked t) ∧
      countUndecided db.finalStatus (db.linked t) ≠ 0

end ReviewDb

namespace Deciding

/-- The committed rows after the operation. -/
def apply (now : DateTime) (op : Deciding δ) (db : ReviewDb τ δ) : ReviewDb τ δ :=
  match op with
  | .review d rule llm =>
      match ReviewService.run rule llm (db.document d) with
      | .decides m => db.reconcileAndCommit now d m
      | .raises document _ => { db with document := Function.update db.document d document }
  | .manualDecision d decision =>
      db.reconcileAndCommit now d (ReviewService.manualDecision decision (db.document d))
  | .cleanup hardMinimumChars hasAttachments pending =>
      { db with
        document := fun d =>
          if d ∈ pending then
            DataDebtCleanupService.run hardMinimumChars (hasAttachments d) (db.document d)
          else db.document d }

/-- The cleanup rejects document `d`. -/
def Rejects (db : ReviewDb τ δ) (hardMinimumChars : ℕ) (hasAttachments : δ → Bool)
    (pending : List δ) (d : δ) : Prop :=
  d ∈ pending ∧
    DataDebtCleanupService.rejects hardMinimumChars (hasAttachments d) (db.document d) = true

instance (db : ReviewDb τ δ) (hardMinimumChars : ℕ) (hasAttachments : δ → Bool)
    (pending : List δ) : DecidablePred (Rejects db hardMinimumChars hasAttachments pending) :=
  fun _ => inferInstanceAs (Decidable (_ ∧ _))

/-- The operation decides document `e`. -/
def Decides (op : Deciding δ) (db : ReviewDb τ δ) (e : δ) : Prop :=
  match op with
  | .review d rule llm =>
      e = d ∧ ∃ m, ReviewService.run rule llm (db.document d) = .decides m
  | .manualDecision d _ => e = d
  | .cleanup hardMinimumChars hasAttachments pending =>
      Rejects db hardMinimumChars hasAttachments pending e

/-- The model's review leaves the document decided. -/
def llmDecides (rule : FilterDecision) (decision : LlmDecision) : Bool :=
  decision == .reject || (decision == .approve && rule != .review)

/-- When the tasks come out right: a rule reject finds no waiting task, or the document already
decided; the model's review changes nothing about being decided, or reviews a decided document of
tasks whose other documents are decided; the cleanup finds a positive count that is too small by
exactly the documents it rejects. -/
def ComesOutRight (op : Deciding δ) (db : ReviewDb τ δ) : Prop :=
  match op with
  | .review d rule llm =>
      if rule = .reject then ∀ t, db.Waits d t → (db.finalStatus d).decided = true
      else
        match llm with
        | .unavailable => True
        | .reviewed r =>
            (ReviewService.validateExtractedFields (db.document d) r).isOk = true →
              ∀ t, db.Waits d t →
                (db.finalStatus d).decided = llmDecides rule r.decision ∨
                  ((db.finalStatus d).decided = true ∧
                    ∀ e ∈ (db.linked t).erase d, (db.finalStatus e).decided = true)
  | .manualDecision _ _ => True
  | .cleanup hardMinimumChars hasAttachments pending =>
      ∀ d, Rejects db hardMinimumChars hasAttachments pending d → ∀ t, db.Waits d t →
        0 < (db.task t).pendingReviewCount ∧
          (db.task t).pendingReviewCount +
              ((db.linked t).filter (Rejects db hardMinimumChars hasAttachments pending)).card =
            countUndecided db.finalStatus (db.linked t)

end Deciding

/-! ## Which operations reconcile -/

/-- Reconciling and committing a held document comes out right exactly if the flushed row and the
committed row are equally decided, or the flushed row completes every waiting task. -/
theorem reconciled_commit_iff (now : DateTime) (d : δ) (m : Held Document) (db : ReviewDb τ δ) :
    (db.reconcileAndCommit now d m).Reconciled d ↔
      ∀ t, db.Waits d t →
        m.loaded.finalStatus.decided = m.current.finalStatus.decided ∨
          (m.loaded.finalStatus.decided = true ∧
            ∀ e ∈ (db.linked t).erase d, (db.finalStatus e).decided = true) := by
  refine forall_congr' fun t => ?_
  by_cases hwaits : db.Waits d t
  · obtain ⟨hd, hstatus⟩ := hwaits
    have hnonempty : (db.linked t).Nonempty := ⟨d, hd⟩
    -- The counts that the reconciliation sees, and the counts that the commit leaves.
    have hseen := countUndecided_update db.document hd m.loaded
    have hleft := countUndecided_update db.document hd m.current
    have hothers : countUndecided (fun e => (db.document e).finalStatus) ((db.linked t).erase d) = 0 ↔
        ∀ e ∈ (db.linked t).erase d, (db.finalStatus e).decided = true :=
      countUndecided_eq_zero
    have htask : (db.reconcileAndCommit now d m).task t =
        reconcileTask now (fun e => (Function.update db.document d m.loaded e).finalStatus)
          (db.linked t) (db.task t) := if_pos ⟨hd, hstatus⟩
    have hcount := (reconcileTask_counts now
      (fun e => (Function.update db.document d m.loaded e).finalStatus) (db.linked t)
      (db.task t)).2.2
    have hdone := reconcileTask_status now
      (fun e => (Function.update db.document d m.loaded e).finalStatus) (db.task t) hnonempty
    have hfinal : (db.reconcileAndCommit now d m).finalStatus =
        fun e => (Function.update db.document d m.current e).finalStatus := rfl
    have hlinked : (db.reconcileAndCommit now d m).linked = db.linked := rfl
    unfold ReviewDb.Waits
    rw [htask, hfinal, hlinked, hcount, hdone, ← hothers, hseen, hleft, hstatus]
    generalize countUndecided (fun e => (db.document e).finalStatus) ((db.linked t).erase d) = n
    cases m.loaded.finalStatus.decided <;> cases m.current.finalStatus.decided <;>
      cases n <;> simp [hd]
  · have hafter : ¬ (db.reconcileAndCommit now d m).Waits d t := by
      rintro ⟨hd, hstatus⟩
      have htask : (db.reconcileAndCommit now d m).task t = db.task t :=
        if_neg fun h => hwaits h
      rw [htask] at hstatus
      exact hwaits ⟨hd, hstatus⟩
    exact iff_of_true (fun h => absurd h hafter) fun h => absurd h hwaits

/-- A document is decided after the cleanup if it was before or if the cleanup rejects it, and it
rejects undecided documents only. -/
theorem cleanup_decided (now : DateTime) (db : ReviewDb τ δ) (hardMinimumChars : ℕ)
    (hasAttachments : δ → Bool) (pending : List δ) (d : δ) :
    (((Deciding.cleanup hardMinimumChars hasAttachments pending).apply now db).finalStatus
          d).decided = false ↔
      (db.finalStatus d).decided = false ∧
        ¬ Deciding.Rejects db hardMinimumChars hasAttachments pending d := by
  have hafter := (DataDebtCleanupService.run_cases hardMinimumChars (hasAttachments d)
    (db.document d)).2
  simp only [Deciding.apply, ReviewDb.finalStatus, Deciding.Rejects]
  by_cases hmem : d ∈ pending
  · rw [if_pos hmem]
    split at hafter
    · next hrejects => simp [hafter, hmem, hrejects, FinalStatus.decided]
    · next hrejects => simp [hafter, hrejects]
  · simp [hmem]

omit [DecidableEq δ] in
theorem undecided_of_rejects {db : ReviewDb τ δ} {hardMinimumChars : ℕ}
    {hasAttachments : δ → Bool} {pending : List δ} {d : δ}
    (h : Deciding.Rejects db hardMinimumChars hasAttachments pending d) :
    (db.finalStatus d).decided = false := by
  obtain ⟨-, hrejects⟩ := h
  simp only [DataDebtCleanupService.rejects, Bool.and_eq_true] at hrejects
  exact FinalStatus.decided_of_reviewable hrejects.1.1

/-- The cleanup takes exactly the documents it rejects out of the undecided ones. -/
theorem countUndecided_cleanup (now : DateTime) (db : ReviewDb τ δ) (hardMinimumChars : ℕ)
    (hasAttachments : δ → Bool) (pending : List δ) (linked : Finset δ) :
    (linked.filter (Deciding.Rejects db hardMinimumChars hasAttachments pending)).card +
        countUndecided
          ((Deciding.cleanup hardMinimumChars hasAttachments pending).apply now db).finalStatus
          linked =
      countUndecided db.finalStatus linked := by
  have hsplit := Finset.card_filter_add_card_filter_not
    (s := linked.filter fun d => (db.finalStatus d).decided = false)
    (Deciding.Rejects db hardMinimumChars hasAttachments pending)
  rw [Finset.filter_filter, Finset.filter_filter] at hsplit
  unfold countUndecided
  rw [← hsplit]
  congr 2
  · exact Finset.filter_congr fun d _ => ⟨fun h => ⟨undecided_of_rejects h, h⟩, And.right⟩
  · exact Finset.filter_congr fun d _ =>
      cleanup_decided now db hardMinimumChars hasAttachments pending d

/-- The cleanup leaves the tasks alone, so it comes out right exactly if the counts were too small
by the documents it rejects. -/
theorem reconciled_cleanup_iff (now : DateTime) (db : ReviewDb τ δ) (hardMinimumChars : ℕ)
    (hasAttachments : δ → Bool) (pending : List δ) (d : δ) :
    ((Deciding.cleanup hardMinimumChars hasAttachments pending).apply now db).Reconciled d ↔
      ∀ t, db.Waits d t →
        0 < (db.task t).pendingReviewCount ∧
          (db.task t).pendingReviewCount +
              ((db.linked t).filter
                (Deciding.Rejects db hardMinimumChars hasAttachments pending)).card =
            countUndecided db.finalStatus (db.linked t) := by
  refine forall_congr' fun t => imp_congr_right fun _ => ?_
  have hsplit := countUndecided_cleanup now db hardMinimumChars hasAttachments pending (db.linked t)
  set db' := (Deciding.cleanup hardMinimumChars hasAttachments pending).apply now db
  have htask : db'.task = db.task := rfl
  have hlinked : db'.linked = db.linked := rfl
  rw [htask, hlinked]
  omega

/-- What a rule reject and a model's review hold when they reconcile: the flushed row still has
the final status that `run` found. -/
theorem run_decides {rule : FilterDecision} {llm : LlmOutcome} {document : Document}
    {m : Held Document} (h : ReviewService.run rule llm document = .decides m) :
    m.loaded.finalStatus = document.finalStatus ∧
      ((rule = .reject ∧ m.current.finalStatus = .rejected) ∨
        (rule ≠ .reject ∧ ∃ r, llm = .reviewed r ∧
          (ReviewService.validateExtractedFields document r).isOk = true ∧
          m.current.finalStatus = ReviewService.llmFinalStatus rule r.decision)) := by
  by_cases hrule : rule = .reject
  · simp only [ReviewService.run, hrule, if_true] at h
    cases h
    exact ⟨rfl, .inl ⟨hrule, rfl⟩⟩
  · simp only [ReviewService.run, hrule, if_false] at h
    split at h
    · cases h
    · next r =>
        split at h
        · cases h
        · next fields hval =>
            cases h
            refine ⟨rfl, .inr ⟨hrule, r, rfl, ?_, rfl⟩⟩
            -- The check reads the content only, which the rule review keeps.
            have hsame : ReviewService.validateExtractedFields document r =
                ReviewService.validateExtractedFields
                  (ReviewService.ruleReview rule document).current r := rfl
            rw [hsame, hval]
            rfl

/-- The decidedness that the model's review leaves, read off its inputs. -/
theorem decided_llmFinalStatus (rule : FilterDecision) (decision : LlmDecision) :
    (ReviewService.llmFinalStatus rule decision).decided = Deciding.llmDecides rule decision := by
  cases rule <;> cases decision <;> rfl

/-- `run` comes out right exactly under the condition. -/
theorem reconciled_review_iff (now : DateTime) (db : ReviewDb τ δ) (d : δ) (rule : FilterDecision)
    (llm : LlmOutcome) :
    ((∃ m, ReviewService.run rule llm (db.document d) = .decides m) →
        ((Deciding.review d rule llm).apply now db).Reconciled d) ↔
      (Deciding.review d rule llm).ComesOutRight db := by
  cases hrun : ReviewService.run rule llm (db.document d) with
  | decides m =>
      have happly : (Deciding.review d rule llm).apply now db = db.reconcileAndCommit now d m := by
        simp [Deciding.apply, hrun]
      obtain ⟨hloaded, hcases⟩ := run_decides hrun
      have hloaded : m.loaded.finalStatus = db.finalStatus d := hloaded
      rw [happly, reconciled_commit_iff, hloaded]
      -- A rejection by the rules, or a decision of the model whose fields pass their check.
      rcases hcases with ⟨hrule, hcurrent⟩ | ⟨hrule, r, rfl, hok, hcurrent⟩
      · rw [hcurrent]
        simp only [Deciding.ComesOutRight, hrule, if_true, FinalStatus.decided]
        simp only [ReviewService.Ending.decides.injEq, exists_eq', true_imp_iff]
        exact forall_congr' fun t => imp_congr_right fun _ => by tauto
      · rw [hcurrent, decided_llmFinalStatus]
        simp [Deciding.ComesOutRight, hrule, hok]
  | raises document error =>
      -- `run` raises, so there is nothing to come out; only a failed check of the fields does that.
      refine iff_of_true (by simp) ?_
      by_cases hrule : rule = .reject
      · simp [ReviewService.run, hrule] at hrun
      · simp only [Deciding.ComesOutRight, hrule, if_false]
        cases llm with
        | unavailable => trivial
        | reviewed r =>
            intro hok
            simp only [ReviewService.run, hrule, if_false] at hrun
            split at hrun
            · next e hval =>
                have hsame : ReviewService.validateExtractedFields (db.document d) r =
                    ReviewService.validateExtractedFields
                      (ReviewService.ruleReview rule (db.document d)).current r := rfl
                rw [hsame, hval] at hok
                cases hok
            · cases hrun

/-- After an operation that decides documents, the waiting tasks of these documents are reconciled
if and only if the operation comes out right. -/
theorem reconciled_iff (now : DateTime) (op : Deciding δ) (db : ReviewDb τ δ) :
    (∀ d, op.Decides db d → (op.apply now db).Reconciled d) ↔ op.ComesOutRight db := by
  cases op with
  | review d rule llm =>
      rw [← reconciled_review_iff now]
      exact ⟨fun h hm => h d ⟨rfl, hm⟩, fun h e he => by
        obtain ⟨rfl, hm⟩ := he
        exact h hm⟩
  | manualDecision d decision =>
      refine iff_of_true (fun e he => ?_) trivial
      cases he
      exact (reconciled_commit_iff now d _ db).mpr fun t _ => .inl rfl
  | cleanup hardMinimumChars hasAttachments pending =>
      exact forall_congr' fun d => imp_congr_right fun _ =>
        reconciled_cleanup_iff now db hardMinimumChars hasAttachments pending d

/-- A rule reject of the only document of a waiting task leaves the task waiting. -/
theorem rule_reject_leaves_task_waiting :
    ∃ (db : ReviewDb Unit Unit) (op : Deciding Unit),
      ¬ ∀ d, op.Decides db d → (op.apply 0 db).Reconciled d := by
  let db : ReviewDb Unit Unit :=
    { document := fun _ => { finalStatus := .pendingManualReview }
      task := fun _ => { status := .waitingReview, pendingReviewCount := 1 }
      linked := fun _ => {()} }
  refine ⟨db, .review () .reject .unavailable, fun h => ?_⟩
  obtain ⟨-, hne⟩ := h () ⟨rfl, _, rfl⟩ () ⟨by decide, by decide⟩
  exact hne (by decide)

end Operations

end Odirag.Review
