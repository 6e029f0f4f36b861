import Odirag.Documents.Approval

/-!
# A reviewer's decision among the other verdicts

Reference: `run` and `manual_decision` of `backend/app/services/review.py`,
`_refresh_coze_document` of `backend/app/services/crawl.py`.

A crawl that finds a document unchanged keeps a reviewer's decision. `ReviewService.run` does not
look at it: whatever the rule filter and the model say is written over it.
-/

namespace Odirag.Documents

/-- The operations that write a verdict. -/
inductive Verdict
  | review (rule : FilterDecision) (llm : LlmOutcome)
  | manualDecision (decision : ManualDecision)
  /-- A crawl finds the document's URL again. -/
  | refresh (isLocal : Bool) (sourceRegion : Option String) (article : Article)

/-- The operation of a verdict. -/
def Verdict.op : Verdict → Op
  | review rule llm => .review rule llm
  | manualDecision decision => .manualDecision decision
  | refresh isLocal sourceRegion article => .refresh isLocal sourceRegion article

/-- The histories of a document that no reviewer has decided yet. -/
def verdictSystem (T : TextTools) : System Document Verdict :=
  .ofNext (fun document v => some (v.op.apply T document)) fun document =>
    document.manualReviewStatus.isDecision = false

/-- No crawl has changed a field of the document since the last decision of a reviewer. -/
def unchangedSinceDecision (T : TextTools) : List (Document × Verdict) → Bool
  | [] => true
  | (document, v) :: tr =>
      match v with
      | .manualDecision _ => true
      | .refresh _ sourceRegion article =>
          (document.changedFields T sourceRegion article).isEmpty && unchangedSinceDecision T tr
      | .review _ _ => unchangedSinceDecision T tr

/-- A recorded decision over an unchanged document is its final status. -/
def DecisionWins (T : TextTools) (tr : List (Document × Verdict)) (document : Document) : Prop :=
  ∀ decision : ManualDecision, document.manualReviewStatus = decision.status →
    unchangedSinceDecision T tr = true → document.finalStatus = decision.finalStatus

/-- A review of a document that a reviewer has decided agrees with the decision. -/
def Verdict.RespectsDecision (document : Document) : Verdict → Prop
  | review rule llm => ∀ decision : ManualDecision,
      document.manualReviewStatus = decision.status →
        ReviewService.Agrees rule llm document decision
  | _ => True

/-! ## What a verdict does to a recorded decision -/

theorem ManualDecision.isDecision_status (decision : ManualDecision) :
    decision.status.isDecision = true := by
  cases decision <;> rfl

theorem ManualDecision.status_injective {d d' : ManualDecision} (h : d.status = d'.status) :
    d = d' := by
  cases d <;> cases d' <;> first | rfl | cases h

/-- A review leaves the reviewer's decision on record. -/
theorem ReviewService.run_manualReviewStatus (rule : FilterDecision) (llm : LlmOutcome)
    (document : Document) :
    (run rule llm document).document.manualReviewStatus = document.manualReviewStatus := by
  unfold run
  dsimp only
  split
  · rfl
  · split
    · rfl
    · split <;> rfl

/-- A refresh keeps a recorded decision with its final status, or it leaves none on record. -/
theorem Document.refresh_decision (T : TextTools) (isLocal : Bool) (sourceRegion : Option String)
    (article : Article) (document : Document) :
    let document' := document.refresh T isLocal sourceRegion article
    (document.changedFields T sourceRegion article = [] ∧
        document'.manualReviewStatus = document.manualReviewStatus ∧
        document'.finalStatus = document.finalStatus) ∨
      document'.manualReviewStatus.isDecision = false := by
  intro document'
  by_cases hc : document.changedFields T sourceRegion article = []
  · cases hr : document.reviewChanged isLocal article
    · have heq : document' = document := by simp [document', refresh, hc, hr]
      rw [heq]
      exact .inl ⟨hc, rfl, rfl⟩
    · cases hm : document.manualReviewStatus.isDecision
      · refine .inr ?_
        simp [document', refresh, hc, hr, hm, addReview, Article.reviewColumns]
      · refine .inl ⟨hc, ?_⟩
        simp [document', refresh, hc, hr, hm, addReview]
  · refine .inr ?_
    simp [document', refresh, hc, addReview, Article.reviewColumns]

/-- As long as a decision is on record, no crawled field has changed since it was taken. -/
theorem unchanged_of_run {T : TextTools} {tr : List (Document × Verdict)} {document : Document}
    (h : (verdictSystem T).Run System.always tr document)
    (hdecision : document.manualReviewStatus.isDecision = true) :
    unchangedSinceDecision T tr = true := by
  refine h.invariant (I := fun tr document =>
    document.manualReviewStatus.isDecision = true → unchangedSinceDecision T tr = true)
    (fun document h₀ hd => ?_) ?_ hdecision
  · rfl
  · intro tr document v document' _ hI _ hstep hd
    cases hstep
    cases v with
    | review rule llm =>
        refine hI ?_
        rw [← ReviewService.run_manualReviewStatus rule llm document]
        exact hd
    | manualDecision decision => rfl
    | refresh isLocal sourceRegion article =>
        rcases Document.refresh_decision T isLocal sourceRegion article document with
          ⟨hsame, hmanual, -⟩ | hnone
        · simp only [unchangedSinceDecision, hsame, List.isEmpty_nil, Bool.true_and]
          refine hI ?_
          rw [← hmanual]
          exact hd
        · exact absurd (hnone.symm.trans hd) (by simp)

/-! ## Histories -/

/-- One verdict keeps decisions winning exactly if it respects the decision on record. -/
theorem decisionWins_step {T : TextTools} {tr : List (Document × Verdict)} {document : Document}
    (hrun : (verdictSystem T).Run System.always tr document) (hI : DecisionWins T tr document)
    (v : Verdict) :
    DecisionWins T ((document, v) :: tr) (v.op.apply T document) ↔ v.RespectsDecision document := by
  cases v with
  | review rule llm =>
      have hstatus := ReviewService.run_manualReviewStatus rule llm document
      refine forall_congr' fun decision => ?_
      change ((ReviewService.run rule llm document).document.manualReviewStatus = decision.status →
        unchangedSinceDecision T tr = true →
          (ReviewService.run rule llm document).document.finalStatus = decision.finalStatus) ↔ _
      rw [hstatus]
      refine forall_congr' fun hrecorded => ?_
      have hunchanged : unchangedSinceDecision T tr = true := by
        refine unchanged_of_run hrun ?_
        rw [hrecorded]
        exact decision.isDecision_status
      rw [← ReviewService.finalStatus_run_iff (hI decision hrecorded hunchanged)]
      exact ⟨fun h => h hunchanged, fun h _ => h⟩
  | manualDecision decision =>
      refine iff_of_true (fun d hrecorded _ => ?_) trivial
      obtain rfl : decision = d := ManualDecision.status_injective hrecorded
      rfl
  | refresh isLocal sourceRegion article =>
      refine iff_of_true (fun decision hrecorded hunchanged => ?_) trivial
      rcases Document.refresh_decision T isLocal sourceRegion article document with
        ⟨hsame, hmanual, hfinal⟩ | hnone
      · simp only [unchangedSinceDecision, hsame, List.isEmpty_nil, Bool.true_and] at hunchanged
        exact hfinal.trans (hI decision (hmanual.symm.trans hrecorded) hunchanged)
      · -- A refresh that resets the review leaves no decision.
        have hsome := decision.isDecision_status
        rw [← hrecorded] at hsome
        exact absurd (hnone.symm.trans hsome) (by simp)

/-- In a history, a reviewer's decision over an unchanged document is everywhere its final status
if and only if every review agrees with the decision on record. -/
theorem manual_decision_wins_iff {T : TextTools} {tr : List (Document × Verdict)}
    {document : Document} (h : (verdictSystem T).Run System.always tr document) :
    (∀ tr' document', System.Position document tr tr' document' → DecisionWins T tr' document') ↔
      ∀ document' v, (document', v) ∈ tr → v.RespectsDecision document' := by
  refine h.everywhere_iff (fun d hd decision hrecorded _ => ?_) ?_
  · have hsome := decision.isDecision_status
    rw [← hrecorded] at hsome
    exact absurd (hd.symm.trans hsome) (by simp)
  · intro tr' d v d' hrun hI hstep
    cases hstep
    exact decisionWins_step hrun hI v

/-- A review of the model that approves. -/
def approvingReview : ReviewResult where
  decision := .approve

/-- A manual approval, a review that approves too, and a crawl that finds nothing new. -/
theorem manual_decision_wins_agreed :
    ∃ tr document, (verdictSystem sampleTools).Run System.always tr document ∧ tr.length = 3 ∧
      document.manualReviewStatus = .approve ∧ document.finalStatus = .approved := by
  let d₀ := sampleArticle.create sampleTools false none "doc-1"
  let verdicts : List Verdict := [.manualDecision .approve,
    .review .accept (.reviewed approvingReview), .refresh false none sampleArticle]
  let next := fun (d : Document) (v : Verdict) => some (v.op.apply sampleTools d)
  obtain ⟨d, hd⟩ := Option.isSome_iff_exists.mp
    (by decide : (System.exec next d₀ verdicts).isSome = true)
  have hstatus : (System.exec next d₀ verdicts).map (·.manualReviewStatus) = some .approve := by
    decide
  have hrun : (verdictSystem sampleTools).Run System.always (System.traceOf next d₀ verdicts) d :=
    ⟨d₀, rfl, System.exec_path hd⟩
  rw [hd] at hstatus
  have hrecorded : d.manualReviewStatus = .approve := Option.some.inj hstatus
  have hwins := (manual_decision_wins_iff hrun).mpr (fun d' v hmem => ?_) _ _ .last
  · refine ⟨_, d, hrun, rfl, hrecorded, hwins .approve hrecorded ?_⟩
    exact unchanged_of_run hrun (by rw [hrecorded]; rfl)
  · simp only [System.traceOf, next, verdicts, List.nil_append, List.cons_append, List.mem_cons,
      List.not_mem_nil, or_false, Prod.mk.injEq] at hmem
    rcases hmem with ⟨-, rfl⟩ | ⟨rfl, rfl⟩ | ⟨-, rfl⟩
    · trivial
    · intro decision happroved
      obtain rfl : ManualDecision.approve = decision := ManualDecision.status_injective happroved
      exact ⟨by simp, approvingReview, rfl, .inr ⟨rfl, by simp⟩⟩
    · trivial

/-- A review rejects a document that a reviewer has approved. -/
theorem review_overrides_decision :
    ∃ tr document, (verdictSystem sampleTools).Run System.always tr document ∧
      ¬ DecisionWins sampleTools tr document := by
  let d₀ := sampleArticle.create sampleTools false none "doc-1"
  let verdicts : List Verdict := [.manualDecision .approve, .review .reject .unavailable]
  let next := fun (d : Document) (v : Verdict) => some (v.op.apply sampleTools d)
  obtain ⟨d, hd⟩ := Option.isSome_iff_exists.mp
    (by decide : (System.exec next d₀ verdicts).isSome = true)
  have hcheck : (System.exec next d₀ verdicts).map (fun d =>
      decide (d.manualReviewStatus = .approve ∧ d.finalStatus = .rejected)) = some true := by
    decide
  rw [hd] at hcheck
  obtain ⟨hrecorded, hrejected⟩ := of_decide_eq_true (Option.some.inj hcheck)
  refine ⟨_, d, ⟨d₀, rfl, System.exec_path hd⟩, fun h => ?_⟩
  have happroved := h .approve hrecorded (by decide)
  rw [hrejected] at happroved
  cases happroved

end Odirag.Documents
