import Odirag.Documents.History

/-!
# Updates that bring nothing new

Reference: the change test of `apply_parsed_update` in `backend/app/services/versioning.py`,
`content_hash` of `backend/app/deduplication/core.py`, and `_save_coze_article` and
`_refresh_coze_document` of `backend/app/services/crawl.py`.

A crawl stores the digest of the content, a reparse the digest of the content without its
whitespace, and each looks for its own digest. What a document must hold for an unchanged update
to leave it alone is therefore different for the two.
-/

namespace Odirag.Documents

/-- No new version, no snapshot, no reset of the review and no stale index. -/
structure Document.Untouched (document document' : Document) : Prop where
  version : document'.version = document.version
  versions : document'.versions = document.versions
  review : document'.toReviewColumns = document.toReviewColumns
  indexStatus : document'.indexStatus = document.indexStatus

@[simp] theorem Document.Untouched.refl (document : Document) : document.Untouched document :=
  ⟨rfl, rfl, rfl, rfl⟩

/-- The parsed text is the stored content and no supplied field differs. -/
def UnchangedUpdate (T : TextTools) (text : String) (updates : MetadataUpdates)
    (document : Document) : Prop :=
  T.cleanText text = document.content ∧ document.differing updates.updatable = []

/-- The article has the stored content and fields. -/
structure UnchangedArticle (sourceRegion : Option String) (article : Article)
    (document : Document) : Prop where
  title : document.metadata .title = some article.title
  sourceUrl : document.sourceUrl = article.url
  publishDate : document.metadata .publishDate = article.publishedAt
  region : document.metadata .region = orElse article.region sourceRegion
  content : document.content = article.content
  documentType : document.metadata .documentType = article.documentType

/-- The columns that a crawl computes from the content hold what it would compute. -/
structure CrawledColumns (T : TextTools) (document : Document) : Prop where
  rawContent : document.rawContent = some document.content
  contentHash : document.contentHash = some (T.sha256 document.content)
  language : document.metadata .language = some (detectLanguage document.content)

/-- The article's review is the last one of its type, or it stores the review columns that the
document has: after a reviewer's decision only the automatic ones. -/
def KeepsReview (isLocal : Bool) (article : Article) (document : Document) : Prop :=
  document.reviewChanged isLocal article = false ∨
    (document.ruleFilterStatus = (article.reviewColumns isLocal).ruleFilterStatus ∧
      document.llmReviewStatus = (article.reviewColumns isLocal).llmReviewStatus ∧
      (document.manualReviewStatus.isDecision = true ∨
        (document.manualReviewStatus = (article.reviewColumns isLocal).manualReviewStatus ∧
          document.finalStatus = (article.reviewColumns isLocal).finalStatus)))

/-- Review columns are equal if the four statuses are. -/
theorem reviewColumns_eq_iff {columns columns' : ReviewColumns} :
    columns = columns' ↔ columns.ruleFilterStatus = columns'.ruleFilterStatus ∧
      columns.llmReviewStatus = columns'.llmReviewStatus ∧
      columns.manualReviewStatus = columns'.manualReviewStatus ∧
      columns.finalStatus = columns'.finalStatus := by
  cases columns
  cases columns'
  simp

section Unchanged

variable {T : TextTools} {document : Document}

/-- Updates that do not differ leave the metadata as it is. -/
theorem setMetadata_of_differing_nil {updates : List (MetadataField × Option String)}
    (h : document.differing updates = []) : document.setMetadata updates = document := by
  have hsame : ∀ u ∈ updates, document.metadata u.1 = u.2 := by
    intro u hu
    have hnot := List.filter_eq_nil_iff.mp h u hu
    simpa using hnot
  have hfold : ∀ updates : List (MetadataField × Option String),
      (∀ u ∈ updates, document.metadata u.1 = u.2) →
      updates.foldl (fun m u => Function.update m u.1 u.2) document.metadata =
        document.metadata := by
    intro updates
    induction updates with
    | nil => exact fun _ => rfl
    | cons u updates ih =>
        intro hall
        rw [List.foldl_cons, ← hall u List.mem_cons_self, Function.update_eq_self]
        exact ih fun u' hu' => hall u' (List.mem_cons_of_mem _ hu')
  unfold Document.setMetadata
  rw [hfold updates hsame]

/-- An unchanged reparse leaves a document with a title alone exactly if the stored hash is the
digest of the content without its whitespace. -/
theorem untouched_applyParsedUpdate_iff (htitle : document.metadata .title ≠ none) {text : String}
    {updates : MetadataUpdates} (h : UnchangedUpdate T text updates document) :
    document.Untouched (document.committed (document.applyParsedUpdate T text updates)) ↔
      document.contentHash = some (T.contentHash document.content) := by
  obtain ⟨hcontent, hdiffering⟩ := h
  by_cases hhash : document.contentHash = some (T.contentHash document.content)
  · refine iff_of_true ?_ hhash
    have hupdate : document.applyParsedUpdate T text updates =
        some (document, ⟨false, document.version, []⟩) := by
      unfold Document.applyParsedUpdate
      simp [hcontent, hhash]
    rw [hupdate]
    exact .refl document
  · refine iff_of_false (fun huntouched => ?_) hhash
    have hversion := huntouched.version
    have hkeeps : (document.setMetadata updates.updatable).metadata .title ≠ none := by
      rwa [setMetadata_of_differing_nil hdiffering]
    have hbumped : (document.committed (document.applyParsedUpdate T text updates)).version =
        document.version + 1 := by
      simp only [Document.setMetadata] at hkeeps
      simp [Document.committed, Document.applyParsedUpdate, Document.flushUpdate, hcontent, hhash,
        Document.setMetadata, hkeeps]
    omega

/-- An unchanged article differs from the document in no field exactly if the computed columns
hold what a crawl computes. -/
theorem changedFields_eq_nil_iff (hcount : document.wordCount = document.content.length)
    {sourceRegion : Option String} {article : Article}
    (h : UnchangedArticle sourceRegion article document) :
    document.changedFields T sourceRegion article = [] ↔ CrawledColumns T document := by
  obtain ⟨htitle, hurl, hdate, hregion, hcontent, htype⟩ := h
  simp only [Document.changedFields, Document.withArticle, Article.metadata, htitle, hurl, hdate,
    hregion, ← hcontent, hcount, htype]
  constructor
  · intro hnil
    simp only [List.map_eq_nil_iff, List.filter_eq_nil_iff] at hnil
    refine ⟨?_, ?_, ?_⟩
    · simpa using hnil ("raw_content", document.rawContent != some document.content) (by simp)
    · simpa using hnil ("content_hash",
        document.contentHash != some (T.sha256 document.content)) (by simp)
    · simpa using hnil ("language",
        document.metadata .language != some (detectLanguage document.content)) (by simp)
  · rintro ⟨hraw, hhash, hlanguage⟩
    simp [hraw, hhash, hlanguage]

/-- An unchanged article leaves the document alone exactly if the computed columns hold what a
crawl computes and its review is kept. -/
theorem untouched_refresh_iff (hcount : document.wordCount = document.content.length)
    {isLocal : Bool} {sourceRegion : Option String} {article : Article}
    (h : UnchangedArticle sourceRegion article document) :
    document.Untouched (document.refresh T isLocal sourceRegion article) ↔
      CrawledColumns T document ∧ KeepsReview isLocal article document := by
  rw [← changedFields_eq_nil_iff hcount h]
  by_cases hchanged : document.changedFields T sourceRegion article = []
  · rw [iff_true_intro hchanged, true_and]
    cases hreview : document.reviewChanged isLocal article with
    | false =>
        refine iff_of_true ?_ (.inl hreview)
        have hrefresh : document.refresh T isLocal sourceRegion article = document := by
          simp [Document.refresh, hchanged, hreview]
        rw [hrefresh]
        exact .refl document
    | true =>
        -- The review columns are the only ones that such a refresh writes.
        have hkeeps : KeepsReview isLocal article document ↔
            (document.refresh T isLocal sourceRegion article).toReviewColumns =
              document.toReviewColumns := by
          unfold KeepsReview
          rw [hreview]
          cases hmanual : document.manualReviewStatus.isDecision <;>
            simp [Document.refresh, hchanged, hreview, hmanual, Document.addReview,
              reviewColumns_eq_iff, eq_comm]
        rw [hkeeps]
        refine ⟨(·.review), fun hcolumns => ⟨?_, ?_, hcolumns, ?_⟩⟩ <;>
          cases hmanual : document.manualReviewStatus.isDecision <;>
            simp [Document.refresh, hchanged, hreview, hmanual, Document.addReview]
  · refine iff_of_false (fun huntouched => ?_) fun hboth => hchanged hboth.1
    rcases Document.refresh_cases T isLocal sourceRegion article document with
      ⟨hnil, -⟩ | ⟨hnil, -⟩ | ⟨hnil, -⟩ | ⟨-, -, hversion, -⟩
    · exact hchanged hnil
    · exact hchanged hnil
    · exact hchanged hnil
    · have hkept := huntouched.version
      omega

end Unchanged

/-- For a document of any history: an unchanged reparse leaves it alone if and only if the stored
hash ignores whitespace, and an unchanged article if and only if the columns computed from the
content are those of a crawl and the article's review is kept. -/
theorem unchanged_update_untouched_iff {T : TextTools} {tr : List (Document × VersionOp)}
    {document : Document} (h : (versionSystem T).Run System.always tr document) :
    (∀ text updates, UnchangedUpdate T text updates document →
      (document.Untouched ((VersionOp.applyParsedUpdate text updates).apply T document) ↔
        document.contentHash = some (T.contentHash document.content))) ∧
    ∀ isLocal sourceRegion article, UnchangedArticle sourceRegion article document →
      (document.Untouched ((VersionOp.refresh isLocal sourceRegion article).apply T document) ↔
        CrawledColumns T document ∧ KeepsReview isLocal article document) := by
  have hgap := gapFree_run h
  have htext := textColumns_run h
  constructor
  · intro text updates hunchanged
    rw [VersionOp.apply_of_gapFree hgap]
    exact untouched_applyParsedUpdate_iff htext.title hunchanged
  · intro isLocal sourceRegion article hunchanged
    rw [VersionOp.apply_of_gapFree hgap]
    exact untouched_refresh_iff htext.wordCount hunchanged

/-- A crawled document that was reparsed with another text: the same text again leaves it alone. -/
theorem unchanged_update_untouched_reparsed :
    ∃ tr document, (versionSystem sampleTools).Run System.always tr document ∧ tr.length = 1 ∧
      document.Untouched
        ((VersionOp.applyParsedUpdate "changed text" []).apply sampleTools document) := by
  let d₀ := sampleArticle.create sampleTools false none "doc-1"
  let ops : List VersionOp := [.applyParsedUpdate "changed text" []]
  let next := fun (d : Document) (op : VersionOp) => some (op.apply sampleTools d)
  obtain ⟨d, hd⟩ := Option.isSome_iff_exists.mp
    (by decide : (System.exec next d₀ ops).isSome = true)
  have hcheck : (System.exec next d₀ ops).map (fun d => decide (d.content = "changed text" ∧
      d.contentHash = some (sampleTools.contentHash "changed text"))) = some true := by
    decide +kernel
  rw [hd] at hcheck
  obtain ⟨hcontent, hhash⟩ := of_decide_eq_true (Option.some.inj hcheck)
  have hrun : (versionSystem sampleTools).Run System.always (System.traceOf next d₀ ops) d :=
    ⟨d₀, .article false none "doc-1" sampleArticle, System.exec_path hd⟩
  refine ⟨_, d, hrun, rfl, ((unchanged_update_untouched_iff hrun).1 "changed text" []
    ⟨hcontent.symm, rfl⟩).mpr ?_⟩
  rw [hhash, hcontent]

/-- A reparse that finds the text just crawled stores it as a new version. -/
theorem unchanged_reparse_adds_version :
    ∃ tr document text updates, (versionSystem sampleTools).Run System.always tr document ∧
      UnchangedUpdate sampleTools text updates document ∧
      ¬ document.Untouched
        ((VersionOp.applyParsedUpdate text updates).apply sampleTools document) := by
  let d₀ := sampleArticle.create sampleTools false none "doc-1"
  refine ⟨[], d₀, "approved text", [], ⟨d₀, .article false none "doc-1" sampleArticle, .nil⟩,
    ⟨rfl, rfl⟩, fun h => ?_⟩
  have hversion : ((VersionOp.applyParsedUpdate "approved text" []).apply sampleTools d₀).version =
      2 := by
    decide +kernel
  have hkept := h.version
  rw [hversion] at hkept
  cases hkept

end Odirag.Documents
