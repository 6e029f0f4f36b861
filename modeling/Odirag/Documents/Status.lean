import Mathlib.Logic.Basic

/-!
# Review and index statuses of a document

Reference: `backend/app/models/document.py`, and the assignments of these columns in
`backend/app/services/crawl.py`, `review.py`, `data_quality.py` and `indexing.py`.
-/

namespace Odirag.Documents

/-- The decision a crawled article arrives with (`BatchArticle.decision`). -/
inductive Decision
  | accepted | rejected | pendingReview | failed
deriving DecidableEq, Repr

/-- `Document.final_status`. -/
inductive FinalStatus
  | pending | pendingManualReview | pendingLlm | approved | rejected | failed
deriving DecidableEq, Repr

/-- `Document.manual_review_status`. -/
inductive ManualReviewStatus
  | pending | approve | reject | rejected | failed | notRequired
deriving DecidableEq, Repr

/-- `Document.index_status`. -/
inductive IndexStatus
  | pending | indexing | indexed | stale | failed
deriving DecidableEq, Repr

/-- Approved or rejected: the statuses that the review counts do not count as pending. -/
def FinalStatus.decided : FinalStatus → Bool
  | .approved | .rejected => true
  | _ => false

/-- The statuses that `list_pending_documents` selects. -/
def FinalStatus.reviewable : FinalStatus → Bool
  | .pending | .pendingManualReview | .pendingLlm => true
  | _ => false

theorem FinalStatus.decided_iff {s : FinalStatus} :
    s.decided = true ↔ s = .approved ∨ s = .rejected := by
  cases s <;> simp [decided]

/-- A status that waits for review is undecided. -/
theorem FinalStatus.decided_of_reviewable {s : FinalStatus} (h : s.reviewable = true) :
    s.decided = false := by
  cases s <;> first | rfl | cases h

/-- The `final_status` that a crawled decision stores. -/
def Decision.finalStatus : Decision → FinalStatus
  | .accepted => .pendingManualReview
  | .pendingReview => .pendingManualReview
  | .rejected => .rejected
  | .failed => .failed

/-- The `manual_review_status` that a crawled decision stores. -/
def Decision.manualReviewStatus : Decision → ManualReviewStatus
  | .accepted | .pendingReview => .pending
  | .rejected => .rejected
  | .failed => .failed

/-- No crawled decision approves a document. -/
@[simp] theorem Decision.finalStatus_ne_approved (d : Decision) : d.finalStatus ≠ .approved := by
  cases d <;> simp [finalStatus]

/-- A manual decision has been recorded and not been reset since. -/
def ManualReviewStatus.isDecision : ManualReviewStatus → Bool
  | .approve | .reject => true
  | _ => false

/-- No crawled decision looks like a manual one. -/
@[simp] theorem Decision.manualReviewStatus_isDecision (d : Decision) :
    d.manualReviewStatus.isDecision = false := by
  cases d <;> rfl

end Odirag.Documents
