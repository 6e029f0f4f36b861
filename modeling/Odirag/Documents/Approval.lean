import Odirag.Documents.Versioning
import Odirag.Documents.Review
import Odirag.Foundations.Run

/-!
# Approved content and the decision that approved it

Reference: every service that writes `Document.content` or `Document.final_status`, and the
approval check of `IndexingService.index_document`.

The content that was approved is read off the history of the document: it is the content that the
last decision to approve saw. No operation except a reparse changes the content of an approved
document without resetting its approval.
-/

namespace Odirag.Documents

/-- The text that `index_document` chunks; it refuses a document that is not approved. -/
def indexedText (document : Document) : Option String :=
  if document.finalStatus = .approved then some document.content else none

/-- An operation on a document. -/
inductive Op
  /-- A crawl finds the document's URL again. -/
  | refresh (isLocal : Bool) (sourceRegion : Option String) (article : Article)
  | reparse (text : String) (updates : MetadataUpdates)
  | updateMetadata (updates : MetadataUpdates)
  | review (rule : FilterDecision) (llm : LlmOutcome)
  | manualDecision (decision : ManualDecision)
  | cleanup (hardMinimumChars : ℕ) (hasAttachments : Bool)
  /-- `index_document`, which leaves the index status `status`. -/
  | index (status : IndexStatus)

namespace Op

/-- The committed row after the operation. -/
def apply (T : TextTools) (op : Op) (document : Document) : Document :=
  match op with
  | .refresh isLocal sourceRegion article => document.refresh T isLocal sourceRegion article
  | .reparse text updates => document.committed (document.applyParsedUpdate T text updates)
  | .updateMetadata updates => document.committed (document.applyMetadataUpdate T updates)
  | .review rule llm => (ReviewService.run rule llm document).document
  | .manualDecision decision => (ReviewService.manualDecision decision document).current
  | .cleanup hardMinimumChars hasAttachments =>
      DataDebtCleanupService.run hardMinimumChars hasAttachments document
  | .index status =>
      match indexedText document with
      | some _ => { document with indexStatus := status }
      | none => document

/-- The operation takes the decision that approves the document. -/
def approves (op : Op) (document : Document) : Bool :=
  match op with
  | .review rule llm =>
      match ReviewService.run rule llm document with
      | .decides m => m.current.finalStatus == .approved
      | .raises _ _ => false
  | .manualDecision decision => decision == .approve
  | _ => false

/-- A reparse of an approved document brings back its content: its hash is the stored one, or its
text is; or the database refuses the update. -/
def KeepsApprovedContent (T : TextTools) (document : Document) : Op → Prop
  | .reparse text updates =>
      document.finalStatus = .approved →
        document.contentHash = some (T.contentHash (T.cleanText text)) ∨
          T.cleanText text = document.content ∨
          (document.setMetadata updates.updatable).metadata .title = none
  | _ => True

end Op

/-- The histories of a document that does not start approved. -/
def documentSystem (T : TextTools) : System Document Op :=
  .ofNext (fun document op => some (op.apply T document)) fun document =>
    document.finalStatus ≠ .approved

/-- The content that the last decision to approve saw. -/
def approvedContent : List (Document × Op) → Option String
  | [] => none
  | (document, op) :: tr => if op.approves document then some document.content else approvedContent tr

/-- Approved content, and content that `index_document` accepts, is the content that was
approved. -/
structure OnlyReviewed (tr : List (Document × Op)) (document : Document) : Prop where
  approved : document.finalStatus = .approved → approvedContent tr = some document.content
  indexed : ∀ text, indexedText document = some text → approvedContent tr = some text

/-- `index_document` accepts exactly the content of approved documents. -/
theorem onlyReviewed_iff {tr : List (Document × Op)} {document : Document} :
    OnlyReviewed tr document ↔
      (document.finalStatus = .approved → approvedContent tr = some document.content) := by
  refine ⟨(·.approved), fun h => ⟨h, fun text htext => ?_⟩⟩
  unfold indexedText at htext
  split at htext
  · next happroved =>
      cases htext
      exact h happroved
  · cases htext

/-- A document just crawled is not approved. -/
theorem create_not_approved (T : TextTools) (isLocal : Bool) (sourceRegion : Option String)
    (documentId : String) (article : Article) :
    (documentSystem T).init (article.create T isLocal sourceRegion documentId) :=
  article.decision.finalStatus_ne_approved

/-! ## What one operation does -/

namespace Op

variable {T : TextTools} {document : Document}

/-- The decision to approve leaves the document approved, with the content it saw. -/
theorem approved_of_approves {op : Op} (h : op.approves document = true) :
    (op.apply T document).finalStatus = .approved ∧
      (op.apply T document).content = document.content := by
  cases op with
  | review rule llm =>
      have hcontent := (ReviewService.run_cases rule llm document).1.content
      refine ⟨?_, hcontent⟩
      unfold approves at h
      dsimp only at h
      split at h
      · next m hm => simpa [apply, hm, ReviewService.Ending.document] using h
      · cases h
  | manualDecision decision =>
      obtain rfl : decision = .approve := by simpa [approves] using h
      exact ⟨rfl, rfl⟩
  | _ => cases h

/-- A reparse keeps the final status; it keeps the content exactly under the condition. -/
theorem reparse_content (T : TextTools) (document : Document) (text : String)
    (updates : MetadataUpdates) :
    ((Op.reparse text updates).apply T document).finalStatus = document.finalStatus ∧
      (((Op.reparse text updates).apply T document).content = document.content ↔
        document.contentHash = some (T.contentHash (T.cleanText text)) ∨
          T.cleanText text = document.content ∨
          (document.setMetadata updates.updatable).metadata .title = none) := by
  unfold apply Document.committed Document.applyParsedUpdate Document.flushUpdate
  dsimp only
  by_cases hhash : document.contentHash = some (T.contentHash (T.cleanText text))
  · simp [hhash]
  · simp only [Document.setMetadata]
    by_cases htitle : (document.setMetadata updates.updatable).metadata .title = none
    · simp only [Document.setMetadata] at htitle
      simp [hhash, htitle]
    · simp only [Document.setMetadata] at htitle
      simp [hhash, htitle]

/-- A review that leaves the document approved without deciding so found it approved. -/
theorem review_of_not_approves {rule : FilterDecision} {llm : LlmOutcome}
    (hdecides : (Op.review rule llm).approves document = false)
    (h : ((Op.review rule llm).apply T document).finalStatus = .approved) :
    document.finalStatus = .approved := by
  obtain ⟨-, hcases⟩ := ReviewService.run_cases rule llm document
  rcases hcases with ⟨-, hfinal⟩ | ⟨-, -, hfinal⟩ | ⟨-, -, hfinal⟩ | ⟨hrule, r, -, rfl, -, hfinal⟩
  · exact absurd (hfinal.symm.trans h) (by simp)
  · exact absurd (hfinal.symm.trans h) (by simp)
  · exact hfinal.symm.trans h
  · -- The model's review decided: had it approved, `approves` would say so.
    simp only [approves] at hdecides
    simp only [apply] at h
    split at hdecides
    · next m hm =>
        rw [hm] at h
        simp only [ReviewService.Ending.document] at h
        simp [h] at hdecides
    · next d e hm =>
        have hraised : d.finalStatus = document.finalStatus := by
          simp only [ReviewService.run, hrule, if_false] at hm
          split at hm
          · cases hm
            rfl
          · cases hm
        rw [hm] at h
        exact hraised.symm.trans h

/-- Any other operation that leaves the document approved without deciding so found it approved
and keeps its content. -/
theorem approved_of_not_approves {op : Op} (hop : ∀ text updates, op ≠ .reparse text updates)
    (hdecides : op.approves document = false)
    (h : (op.apply T document).finalStatus = .approved) :
    document.finalStatus = .approved ∧ (op.apply T document).content = document.content := by
  cases op with
  | refresh isLocal sourceRegion article =>
      rcases Document.refresh_cases T isLocal sourceRegion article document with
        ⟨-, -, heq⟩ | ⟨-, -, -, hcontent, -, -, hfinal⟩ | ⟨-, -, -, -, -, -, hfinal⟩ |
          ⟨-, -, -, -, hfinal⟩
      · simp only [apply] at h ⊢
        rw [heq] at h ⊢
        exact ⟨h, rfl⟩
      · exact ⟨hfinal ▸ h, hcontent⟩
      -- A new or changed article gets its own decision, which is never an approval.
      · exact absurd (hfinal ▸ h) article.decision.finalStatus_ne_approved
      · exact absurd (hfinal ▸ h) article.decision.finalStatus_ne_approved
  | reparse text updates => exact absurd rfl (hop text updates)
  | updateMetadata updates =>
      simp only [apply, Document.committed] at h ⊢
      cases hupdate : document.applyMetadataUpdate T updates with
      | none =>
          rw [hupdate] at h
          exact ⟨h, rfl⟩
      | some r =>
          obtain ⟨document', r⟩ := r
          rw [hupdate] at h
          rcases Document.applyMetadataUpdate_cases hupdate with
            ⟨-, rfl, -⟩ | ⟨-, hcontent, -, -, hcolumns, -⟩
          · exact ⟨h, rfl⟩
          · refine ⟨?_, hcontent⟩
            rw [← hcolumns]
            exact h
  | review rule llm =>
      exact ⟨review_of_not_approves hdecides h, (ReviewService.run_cases rule llm document).1.content⟩
  -- `approve` is what the hypothesis excludes, and a rejected document is not approved.
  | manualDecision decision =>
      cases decision with
      | approve => cases hdecides
      | reject => cases h
  | cleanup hardMinimumChars hasAttachments =>
      obtain ⟨htext, hfinal⟩ :=
        DataDebtCleanupService.run_cases hardMinimumChars hasAttachments document
      refine ⟨?_, htext.content⟩
      split at hfinal
      · exact absurd (hfinal.symm.trans h) (by simp)
      · exact hfinal.symm.trans h
  | index status =>
      simp only [apply] at h ⊢
      split
      · next text htext =>
          rw [htext] at h
          exact ⟨h, rfl⟩
      · next htext =>
          rw [htext] at h
          exact ⟨h, rfl⟩

end Op

/-! ## Histories -/

/-- One operation keeps approved content reviewed exactly if it meets the condition. -/
theorem onlyReviewed_step {T : TextTools} {tr : List (Document × Op)} {document : Document}
    (h : OnlyReviewed tr document) (op : Op) :
    OnlyReviewed ((document, op) :: tr) (op.apply T document) ↔
      op.KeepsApprovedContent T document := by
  rw [onlyReviewed_iff]
  cases hdecides : op.approves document with
  | true =>
      -- A decision to approve is no reparse, and it saw the content it approves.
      refine iff_of_true (fun _ => ?_) ?_
      · simp [approvedContent, hdecides, (Op.approved_of_approves (T := T) hdecides).2]
      · cases op with
        | reparse text updates => cases hdecides
        | _ => trivial
  | false =>
      simp only [approvedContent, hdecides, Bool.false_eq_true, if_false]
      by_cases hop : ∀ text updates, op ≠ .reparse text updates
      · refine iff_of_true (fun happroved => ?_) ?_
        · obtain ⟨hbefore, hcontent⟩ := Op.approved_of_not_approves hop hdecides happroved
          rw [h.approved hbefore, hcontent]
        · cases op with
          | reparse text updates => exact absurd rfl (hop text updates)
          | _ => trivial
      · push Not at hop
        obtain ⟨text, updates, rfl⟩ := hop
        obtain ⟨hfinal, hcontent⟩ := Op.reparse_content T document text updates
        rw [hfinal]
        constructor
        · intro hkeeps happroved
          rw [← hcontent]
          have hsame := hkeeps happroved
          rw [h.approved happroved] at hsame
          exact (Option.some.inj hsame).symm
        · intro hkeeps happroved
          rw [h.approved happroved, hcontent.mpr (hkeeps happroved)]

/-- In a history, approved content is everywhere the content that was approved if and only if every
reparse of an approved document brings back its content. -/
theorem only_reviewed_content_iff {T : TextTools} {tr : List (Document × Op)} {document : Document}
    (h : (documentSystem T).Run System.always tr document) :
    (∀ tr' document', System.Position document tr tr' document' → OnlyReviewed tr' document') ↔
      ∀ document' op, (document', op) ∈ tr → op.KeepsApprovedContent T document' := by
  refine h.everywhere_iff (fun d hd => ?_) ?_
  · exact onlyReviewed_iff.mpr fun happroved => absurd happroved hd
  · intro tr' d op d' _ hI hstep
    cases hstep
    exact onlyReviewed_step hI op

/-- The digests of the texts that the histories below hash. -/
def sampleTools : TextTools where
  sha256 text :=
    if text = "approved text" then
      "5b45d3af2f796de0939d50e4fd38b7eb2eead1d4aef4c003ffb289b5b784441d"
    else if text = "approvedtext" then
      "747f8499bbe353abccdbb73da8f46b17e187f0c2d5f0c626ddf93e207c2fb79f"
    else "1505ad3720063540d8886593ce1b6f75afc0e4b431c1bbe289b60e1ae2259b01"
  cleanText text := text

/-- A crawled article that waits for its review. -/
def sampleArticle : Article where
  url := "https://example.org/a"
  title := "Notice"
  content := "approved text"
  decision := .accepted
  json := "{}"

/-- A manual approval, and a reparse that finds the text as it is. -/
theorem only_reviewed_content_reparsed :
    ∃ tr document, (documentSystem sampleTools).Run System.always tr document ∧ tr.length = 2 ∧
      document.finalStatus = .approved ∧ approvedContent tr = some document.content := by
  let d₀ := sampleArticle.create sampleTools false none "doc-1"
  let ops : List Op := [.manualDecision .approve, .reparse "approved text" []]
  let next := fun (d : Document) (op : Op) => some (op.apply sampleTools d)
  obtain ⟨d, hd⟩ := Option.isSome_iff_exists.mp
    (by decide : (System.exec next d₀ ops).isSome = true)
  have hfinal : (System.exec next d₀ ops).map (·.finalStatus) = some .approved := by decide
  have hrun : (documentSystem sampleTools).Run System.always (System.traceOf next d₀ ops) d :=
    ⟨d₀, create_not_approved _ _ _ _ _, System.exec_path hd⟩
  rw [hd] at hfinal
  have happroved : d.finalStatus = .approved := Option.some.inj hfinal
  refine ⟨_, d, hrun, rfl, happroved, ?_⟩
  refine ((only_reviewed_content_iff hrun).mpr ?_ _ _ .last).approved happroved
  intro d' op hmem
  simp only [System.traceOf, next, ops, List.nil_append, List.cons_append, List.mem_cons,
    List.not_mem_nil, or_false, Prod.mk.injEq] at hmem
  rcases hmem with ⟨rfl, rfl⟩ | ⟨-, rfl⟩
  · exact fun _ => .inr (.inl rfl)
  · trivial

/-- A reparse rewrites the content of an approved document, which stays approved. -/
theorem reparse_keeps_approval :
    ∃ tr document, (documentSystem sampleTools).Run System.always tr document ∧
      ¬ OnlyReviewed tr document := by
  let d₀ := sampleArticle.create sampleTools false none "doc-1"
  let ops : List Op := [.manualDecision .approve, .reparse "changed text" []]
  let next := fun (d : Document) (op : Op) => some (op.apply sampleTools d)
  obtain ⟨d, hd⟩ := Option.isSome_iff_exists.mp
    (by decide : (System.exec next d₀ ops).isSome = true)
  have hcheck : (System.exec next d₀ ops).map (fun d => decide (d.finalStatus = .approved ∧
      approvedContent (System.traceOf next d₀ ops) ≠ some d.content)) = some true := by
    decide
  rw [hd] at hcheck
  obtain ⟨happroved, hne⟩ := of_decide_eq_true (Option.some.inj hcheck)
  exact ⟨_, d, ⟨d₀, create_not_approved _ _ _ _ _, System.exec_path hd⟩,
    fun h => hne (h.approved happroved)⟩

end Odirag.Documents
