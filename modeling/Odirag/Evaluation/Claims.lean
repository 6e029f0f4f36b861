import Odirag.Chat.Citations
import Odirag.Foundations.Collapse
import Odirag.Foundations.Keyed

/-!
# How many claims of an answer are hallucinated

Reference: `_citation_claims` of `backend/app/services/evaluation.py`.

The check of the claims is independent of the gates of the chat service: a quote has to occur in
the chunk that is cited, and the exact values and the terms of each claim in the cited text, all
of them without case and punctuation.

`KeepsCase` says of `str.lower` what its documentation promises on the characters that are compared.
-/

namespace Odirag.Evaluation.Claims

open Rag Retrieval Regex Chat
open Documents (isSpace)

/-! ## Texts -/

/-- `[a-z0-9\u4e00-\u9fff]`. -/
def isKept (c : Char) : Bool := (97 ≤ c.toNat && c.toNat ≤ 122) || isAsciiDigit c || isCjk c

/-- The notes and addresses in an answer: `https?://\S+|[（(]来源[:：].*?[)）]`. -/
def sourceNote : Regex :=
  alt url (seqs [anyOf "（(", lit "来源", anyOf ":：", rep dot 0 none false, anyOf ")）"])

/-- `[A-Za-z][A-Za-z0-9._+-]{2,}`. -/
def latinToken : Regex :=
  seq (char isLatinLetter)
    (rep (char fun c => isLatinLetter c || isAsciiDigit c || c ∈ str "._+-") 2 none true)

/-- The terms that say nothing about a claim. -/
def commonTerms : List Text := strs ["根据", "来源", "文件", "通知", "政策", "回答", "证据"]

/-- `_evaluation_claims`. -/
def evaluationClaims (answer : Text) : List Text :=
  ((answerClaimSeparator.split answer).map fun part =>
    Text.stripBy isSpace (sourceNote.sub (str " ") part)).filter (· ≠ [])

variable (py : Python)

/-- `_normalize`. -/
def normalize (value : Text) : Text := ((plus (char isKept)).findall (py.lower value)).flatten

/-- `_contains_normalized`. -/
def containsNormalized (text expected : Text) : Bool :=
  normalize py expected ≠ [] && (normalize py text).contains (normalize py expected)

/-- `(?:19|20)\d{2}|\d+(?:\.\d+)?(?:%|％|万元|亿元|元)`. -/
def exactValue : Regex :=
  alt (year py) (seq (number py) (words ["%", "％", "万元", "亿元", "元"]))

/-- The two characters at each place of a segment. -/
def bigrams (segment : Text) : List Text :=
  (List.range (segment.length - 1)).map fun index => segment.slice index (index + 2)

/-- The terms of a claim. -/
def claimTerms (claim : Text) : List Text :=
  (firsts ((latinToken.findall claim).map py.lower ++ (cjkSegment.findall claim).flatMap bigrams)).filter
    (· ∉ commonTerms)

/-- How many terms of a claim the evidence has. -/
def matched (claim evidence : Text) : ℕ :=
  (claimTerms py claim).countP fun term => (normalize py evidence).contains term

/-- `_independent_claim_supported`. -/
def independentClaimSupported (claim evidence : Text) : Bool :=
  let normalizedEvidence := normalize py evidence
  if ((exactValue py).findall claim).any fun value => !normalizedEvidence.contains (normalize py value)
  then false
  else if claimTerms py claim = [] then true
  else
    2 ≤ matched py claim evidence &&
      Binary64.round (1 / 5) ≤ Binary64.div (matched py claim evidence) (claimTerms py claim).length

/-! ## The count -/

/-- `content_by_chunk`, from the contents in the metadata of the items and, over these, from the final
results of the answer. -/
def contentByChunk (items : List (String × Text)) (answer : ChatAnswer) (id : String) : Text :=
  let contents := items ++ (answer.finalResults.getD []).map fun hit => (hit.chunkId, hit.content)
  ((Keyed.find? Prod.fst id contents.reverse).map Prod.snd).getD []

/-- The quote of a citation occurs in its chunk. -/
def isBound (items : List (String × Text)) (answer : ChatAnswer) (citation : Citation) : Bool :=
  containsNormalized py (contentByChunk items answer citation.chunkId) citation.quote

/-- The chunks that an answer cites. -/
def citedText (items : List (String × Text)) (answer : ChatAnswer) : Text :=
  Text.joinLines (answer.citations.map fun citation => contentByChunk items answer citation.chunkId)

/-- `_citation_claims`: the claims of an answer and how many of them are hallucinated. -/
def citationClaims (items : List (String × Text)) (answer : ChatAnswer) : ℕ × ℕ :=
  if answer.refusal = true ∨ answer.citations = [] then (0, 0)
  else
    let citationUnbound := answer.citations.any fun citation => !isBound py items answer citation
    let claims := evaluationClaims answer.answer
    if claims = [] then (1, if citationUnbound then 1 else 0)
    else
      let hallucinated :=
        claims.countP fun claim => !independentClaimSupported py claim (citedText items answer)
      let hallucinated := if citationUnbound then max 1 hallucinated else hallucinated
      (claims.length, min claims.length hallucinated)

/-! ## What is compared -/

variable {py}

theorem normalize_eq (value : Text) : normalize py value = (py.lower value).filter isKept :=
  flatten_findall_plus _

theorem containsNormalized_iff {text expected : Text} : containsNormalized py text expected = true ↔
    normalize py expected ≠ [] ∧ normalize py expected <:+: normalize py text := by
  simp only [containsNormalized, Bool.and_eq_true, decide_eq_true_eq, Text.contains_iff]

/-- A line break separates what is compared. -/
theorem normalize_newline (a b : Text) :
    normalize py (a ++ '\n' :: b) = normalize py a ++ normalize py b := by
  rw [normalize_eq, normalize_eq, normalize_eq, py.lower_newline, List.filter_append,
    List.filter_cons_of_neg (by decide)]

/-- When a claim is supported. -/
theorem independentClaimSupported_iff {claim evidence : Text} :
    independentClaimSupported py claim evidence = true ↔
      (∀ value ∈ (exactValue py).findall claim, normalize py value <:+: normalize py evidence) ∧
        (claimTerms py claim = [] ∨ 2 ≤ matched py claim evidence ∧
          Binary64.round (1 / 5) ≤
            Binary64.div (matched py claim evidence) (claimTerms py claim).length) := by
  have hvalues : (((exactValue py).findall claim).any fun value =>
      !(normalize py evidence).contains (normalize py value)) = true ↔
        ¬ ∀ value ∈ (exactValue py).findall claim, normalize py value <:+: normalize py evidence := by
    simp only [List.any_eq_true, Bool.not_eq_true', ← Bool.not_eq_true, Text.contains_iff, not_forall,
      exists_prop]
  unfold independentClaimSupported
  dsimp only
  by_cases hall : ∀ value ∈ (exactValue py).findall claim,
      normalize py value <:+: normalize py evidence
  · rw [if_neg (hvalues.not.mpr (not_not_intro hall))]
    by_cases hterms : claimTerms py claim = []
    · rw [if_pos hterms]
      exact iff_of_true rfl ⟨hall, .inl hterms⟩
    · rw [if_neg hterms, Bool.and_eq_true, decide_eq_true_eq, decide_eq_true_eq]
      exact ⟨fun h => ⟨hall, .inr h⟩, fun h => h.2.resolve_left hterms⟩
  · rw [if_pos (hvalues.mpr hall)]
    exact iff_of_false Bool.false_ne_true fun h => hall h.1

/-- More evidence has no fewer terms of a claim. -/
theorem matched_mono (claim : Text) {evidence evidence' : Text}
    (h : normalize py evidence <:+: normalize py evidence') :
    matched py claim evidence ≤ matched py claim evidence' := by
  refine List.countP_mono_left fun term _ hterm => ?_
  rw [Text.contains_iff] at hterm ⊢
  exact hterm.trans h

/-- What is supported stays so with more evidence. -/
theorem independentClaimSupported_mono {claim evidence evidence' : Text}
    (h : normalize py evidence <:+: normalize py evidence')
    (hsupported : independentClaimSupported py claim evidence = true) :
    independentClaimSupported py claim evidence' = true := by
  rw [independentClaimSupported_iff] at hsupported ⊢
  obtain ⟨hvalues, hterms⟩ := hsupported
  refine ⟨fun value hvalue => (hvalues value hvalue).trans h, hterms.imp_right ?_⟩
  rintro ⟨htwo, hshare⟩
  have hmatched := matched_mono claim h
  refine ⟨htwo.trans hmatched, hshare.trans (Binary64.div_mono (Nat.cast_nonneg _)
    (Nat.cast_nonneg _) (Nat.cast_le.mpr hmatched))⟩

/-! ## What is counted -/

variable {items : List (String × Text)} {answer : ChatAnswer}

/-- Nothing counts against an answer: each quote is in its chunk and each claim in the cited text. -/
structure Clean (py : Python) (items : List (String × Text)) (answer : ChatAnswer) : Prop where
  bound : ∀ citation ∈ answer.citations, isBound py items answer citation = true
  supported : ∀ claim ∈ evaluationClaims answer.answer,
    independentClaimSupported py claim (citedText items answer) = true

/-- Some quote of the answer is not in its chunk. -/
def citationUnbound (py : Python) (items : List (String × Text)) (answer : ChatAnswer) : Bool :=
  answer.citations.any fun citation => !isBound py items answer citation

/-- The claims of the answer that the cited text does not support. -/
def unsupportedClaims (py : Python) (items : List (String × Text)) (answer : ChatAnswer) : ℕ :=
  (evaluationClaims answer.answer).countP fun claim =>
    !independentClaimSupported py claim (citedText items answer)

theorem citationUnbound_eq_false : citationUnbound py items answer = false ↔
    ∀ citation ∈ answer.citations, isBound py items answer citation = true := by
  simp [citationUnbound]

theorem unsupportedClaims_eq_zero : unsupportedClaims py items answer = 0 ↔
    ∀ claim ∈ evaluationClaims answer.answer,
      independentClaimSupported py claim (citedText items answer) = true := by
  simp [unsupportedClaims]

theorem unsupportedClaims_le (py : Python) (items : List (String × Text)) (answer : ChatAnswer) :
    unsupportedClaims py items answer ≤ (evaluationClaims answer.answer).length :=
  List.countP_le_length

/-- An answer with citations has at least one claim, and an unbound quote counts as one hallucinated
claim at least. -/
theorem citationClaims_cited (hanswer : answer.refusal = false) (hcited : answer.citations ≠ []) :
    citationClaims py items answer =
      (max 1 (evaluationClaims answer.answer).length,
        max (citationUnbound py items answer).toNat (unsupportedClaims py items answer)) := by
  have hle := unsupportedClaims_le py items answer
  unfold citationClaims
  rw [if_neg (by simp [hanswer, hcited])]
  dsimp only
  rw [← citationUnbound, ← unsupportedClaims]
  by_cases hclaims : evaluationClaims answer.answer = []
  · have hnone : unsupportedClaims py items answer = 0 := by simp [unsupportedClaims, hclaims]
    rw [if_pos hclaims, hnone, hclaims]
    cases citationUnbound py items answer <;> rfl
  · have hpos := List.length_pos_iff.mpr hclaims
    rw [if_neg hclaims]
    cases citationUnbound py items answer
    · simp only [Bool.false_eq_true, if_false, Bool.toNat_false, Prod.mk.injEq]
      omega
    · simp only [if_true, Bool.toNat_true, Prod.mk.injEq]
      omega

theorem citationClaims_uncited (h : answer.refusal = true ∨ answer.citations = []) :
    citationClaims py items answer = (0, 0) := if_pos h

theorem uncited_or (answer : ChatAnswer) : (answer.refusal = true ∨ answer.citations = []) ∨
    (answer.refusal = false ∧ answer.citations ≠ []) := by
  cases answer.refusal <;> simp [em]

/-- No more claims are hallucinated than are counted. -/
theorem hallucinated_le (py : Python) (items : List (String × Text)) (answer : ChatAnswer) :
    (citationClaims py items answer).2 ≤ (citationClaims py items answer).1 := by
  rcases uncited_or answer with h | ⟨hanswer, hcited⟩
  · rw [citationClaims_uncited h]
  · have hle := unsupportedClaims_le py items answer
    have hone := Bool.toNat_le (citationUnbound py items answer)
    rw [citationClaims_cited hanswer hcited]
    dsimp only
    omega

/-- No claim is counted exactly for a refusal and for an answer without citations. -/
theorem claims_eq_zero_iff : (citationClaims py items answer).1 = 0 ↔
    answer.refusal = true ∨ answer.citations = [] := by
  rcases uncited_or answer with h | ⟨hanswer, hcited⟩
  · rw [citationClaims_uncited h]
    exact iff_of_true rfl h
  · rw [citationClaims_cited hanswer hcited]
    exact iff_of_false (by dsimp only; omega) (by simp [hanswer, hcited])

/-- No claim is hallucinated exactly where nothing counts against the answer. -/
theorem hallucinated_eq_zero_iff : (citationClaims py items answer).2 = 0 ↔
    answer.refusal = true ∨ answer.citations = [] ∨ Clean py items answer := by
  rcases uncited_or answer with h | ⟨hanswer, hcited⟩
  · rw [citationClaims_uncited h]
    exact iff_of_true rfl (or_assoc.mp (.inl h))
  · rw [citationClaims_cited hanswer hcited, hanswer, Nat.max_eq_zero_iff, Bool.toNat_eq_zero,
      citationUnbound_eq_false, unsupportedClaims_eq_zero]
    simp only [Bool.false_eq_true, hcited, false_or]
    exact ⟨fun h => ⟨h.1, h.2⟩, fun h => ⟨h.bound, h.supported⟩⟩

/-! ## More citations -/

/-- The answer with more citations. -/
def citing (answer : ChatAnswer) (more : List Citation) : ChatAnswer :=
  { answer with citations := answer.citations ++ more }

theorem normalize_joinLines_append (py : Python) {texts : List Text} (more : List Text)
    (htexts : texts ≠ []) :
    normalize py (Text.joinLines texts) <+: normalize py (Text.joinLines (texts ++ more)) := by
  by_cases hmore : more = []
  · rw [hmore, List.append_nil]
  · rw [Text.joinLines_append htexts hmore, normalize_newline]
    exact List.prefix_append _ _

/-- An answer is judged no worse for citing more chunks, each of which has its quote. -/
theorem citationClaims_citing {more : List Citation} (hcited : answer.citations ≠ [])
    (hmore : ∀ citation ∈ more, isBound py items answer citation = true) :
    (citationClaims py items (citing answer more)).1 = (citationClaims py items answer).1 ∧
      (citationClaims py items (citing answer more)).2 ≤ (citationClaims py items answer).2 := by
  cases hrefusal : answer.refusal with
  | true =>
      have hciting : (citing answer more).refusal = true := hrefusal
      rw [citationClaims_uncited (.inl hrefusal), citationClaims_uncited (.inl hciting)]
      exact ⟨rfl, le_rfl⟩
  | false =>
      have hanswer : (citing answer more).refusal = false := hrefusal
      have hciting : (citing answer more).citations ≠ [] := by simp [citing, hcited]
      have hunbound : citationUnbound py items (citing answer more) =
          citationUnbound py items answer := by
        have hnone : (more.any fun citation => !isBound py items answer citation) = false := by
          simpa using hmore
        calc citationUnbound py items (citing answer more)
            = (answer.citations ++ more).any fun citation => !isBound py items answer citation := rfl
          _ = citationUnbound py items answer := by
            rw [List.any_append, hnone, Bool.or_false]
            rfl
      have hevidence : normalize py (citedText items answer) <:+:
          normalize py (citedText items (citing answer more)) := by
        have htexts : (answer.citations.map fun citation =>
            contentByChunk items answer citation.chunkId) ≠ [] := by simpa using hcited
        have hprefix := normalize_joinLines_append py
          (more.map fun citation => contentByChunk items answer citation.chunkId) htexts
        rw [← List.map_append] at hprefix
        exact hprefix.isInfix
      have hunsupported : unsupportedClaims py items (citing answer more) ≤
          unsupportedClaims py items answer := by
        refine List.countP_mono_left fun claim _ hclaim => ?_
        rw [Bool.not_eq_true', ← Bool.not_eq_true] at hclaim ⊢
        exact fun hsupported => hclaim (independentClaimSupported_mono hevidence hsupported)
      rw [citationClaims_cited hrefusal hcited,
        citationClaims_cited hanswer hciting, hunbound]
      exact ⟨rfl, max_le_max le_rfl hunsupported⟩

/-- An answer that cites one of four hits. -/
def subsidyAnswer : ChatAnswer where
  answer := str "企业补贴。人才住房"
  citations := [extractiveService.grounding.citation subsidyHit]
  refusal := false
  refusalReasons := []
  answerSupportValidated := none
  answerValidationDecision := none
  generatedAnswer := none
  generatedCitedChunkIds := []
  selectedContextChunkIds := []
  queryType := .rag
  conflicts := []
  outdated := []
  structuredCount := none
  finalResults := some fourHits
  evidenceSufficiency := none

/-- Citing the other hits too supports the second claim. -/
theorem citationClaims_citing_allHits :
    citationClaims .basic [] subsidyAnswer = (2, 1) ∧
      citationClaims .basic [] (citing subsidyAnswer
        (fourHits.tail.map extractiveService.grounding.citation)) = (2, 0) ∧
      (citationClaims .basic [] (citing subsidyAnswer
        (fourHits.tail.map extractiveService.grounding.citation))).2 ≤
          (citationClaims .basic [] subsidyAnswer).2 :=
  ⟨by decide +kernel, by decide +kernel,
    (citationClaims_citing (by decide) (by decide +kernel)).2⟩

/-! ## The quotes of the chat service -/

/-- Case mapping looks at its neighbours for the final sigma alone, which is not kept, and it leaves
blanks what they are. -/
structure KeepsCase (py : Python) : Prop where
  append : ∀ a b, normalize py (a ++ b) = normalize py a ++ normalize py b
  blank : ∀ c, isSpace c = true → normalize py [c] = []

theorem keepsCase_basic : KeepsCase .basic where
  append a b := by
    rw [normalize_eq, normalize_eq, normalize_eq, ← List.filter_append]
    exact congrArg _ List.map_append
  blank c hc := by
    simp only [isSpace, Bool.or_eq_true, Bool.and_eq_true, decide_eq_true_eq, beq_iff_eq] at hc
    have hlower : Python.basic.lower [c] = [c] := by
      show [lowerAscii c] = [c]
      rw [lowerAscii, if_neg (by omega)]
    have hkept : isKept c = false := by
      simp only [isKept, isAsciiDigit, isCjk, Bool.or_eq_false_iff, Bool.and_eq_false_iff,
        decide_eq_false_iff_not]
      omega
    rw [normalize_eq, hlower, List.filter_cons_of_neg (by simp [hkept]), List.filter_nil]

theorem KeepsCase.normalize_nil (hpy : KeepsCase py) : normalize py [] = [] :=
  List.self_eq_append_right.mp (hpy.append [] [])

/-- Blanks count for nothing. -/
theorem KeepsCase.normalize_ink (hpy : KeepsCase py) (text : Text) :
    normalize py (Text.ink isSpace text) = normalize py text := by
  induction text with
  | nil => rfl
  | cons c text ih =>
      have hhead : normalize py (Text.ink isSpace [c]) = normalize py [c] := by
        by_cases hc : isSpace c = true
        · rw [Text.ink_cons_of_blank hc, Text.ink_nil, hpy.normalize_nil, hpy.blank c hc]
        · rw [Text.ink, List.filter_cons_of_pos (by simpa using hc), List.filter_nil]
      calc normalize py (Text.ink isSpace (c :: text))
          = normalize py (Text.ink isSpace [c]) ++ normalize py (Text.ink isSpace text) := by
            rw [Text.ink_cons, hpy.append]
        _ = normalize py ([c] ++ text) := by rw [hhead, ih, ← hpy.append]

/-- What is compared of the quote of a hit begins what is compared of its content. -/
theorem normalize_quote (hpy : KeepsCase py) (service : GroundingService) (hit : RetrievalHit) :
    normalize py (service.citation hit).quote <+: normalize py hit.content := by
  have hwhole : normalize py (Text.stripBy isSpace (collapseSpaces hit.content)) =
      normalize py hit.content := by
    rw [← hpy.normalize_ink, Text.ink_stripBy]
    have hspaces : Text.ink isSpace (collapseSpaces hit.content) = Text.ink isSpace hit.content :=
      ink_sub_plus (by decide) _
    rw [hspaces, hpy.normalize_ink]
  refine ⟨normalize py ((Text.stripBy isSpace (collapseSpaces hit.content)).drop service.quoteChars), ?_⟩
  rw [← hwhole, GroundingService.citation, ← hpy.append, List.take_append_drop]

/-- The content of a final result is the one of its chunk, whatever the items say. -/
theorem contentByChunk_of_mem {finalHits : List RetrievalHit}
    (hresults : answer.finalResults = some finalHits)
    (hids : (finalHits.map RetrievalHit.chunkId).Nodup) {hit : RetrievalHit} (hhit : hit ∈ finalHits) :
    contentByChunk items answer hit.chunkId = hit.content := by
  have hkeys : ((finalHits.map fun hit => (hit.chunkId, hit.content)).reverse.map Prod.fst).Nodup := by
    rw [List.map_reverse, List.nodup_reverse, List.map_map]
    exact hids
  have hfind : Keyed.find? Prod.fst hit.chunkId
      (finalHits.map fun hit => (hit.chunkId, hit.content)).reverse = some (hit.chunkId, hit.content) :=
    (Keyed.find?_eq_some_iff hkeys).mpr
      ⟨List.mem_reverse.mpr (List.mem_map_of_mem hhit), rfl⟩
  rw [Keyed.find?] at hfind
  unfold contentByChunk
  dsimp only
  rw [hresults, Option.getD_some, List.reverse_append, Keyed.find?, List.find?_append, hfind]
  rfl

variable {service : ChatService} {queryType : QueryType} {count : ℕ} {query : Text}
  {finalHits : List RetrievalHit} {result : ChatAnswer}

/-- On the paths with retrieval the final results are those of the retrieval. -/
theorem finalResults_answer (hpath : queryType ≠ .sql)
    (h : Chat.answer py service queryType count query finalHits = .ok result) :
    result.finalResults = some finalHits := by
  rw [answer_eq hpath] at h
  dsimp only at h
  split at h
  · cases h
    rfl
  · split at h
    · cases h
      rfl
    · cases hgrounded : groundedAnswer py service query finalHits
          (groundingDecision py service query finalHits) with
      | error e =>
          rw [hgrounded] at h
          cases h
      | ok grounded =>
          rw [hgrounded] at h
          cases h
          rfl

/-- The citations of an answer are of final hits. -/
theorem hit_of_mem_citations (hpath : queryType ≠ .sql)
    (h : Chat.answer py service queryType count query finalHits = .ok result)
    {citation : Citation} (hcitation : citation ∈ result.citations) :
    ∃ hit ∈ finalHits, service.grounding.citation hit = citation := by
  rcases answer_spec hpath h with ⟨-, hnil⟩ | ⟨-, -, -, hbacked⟩
  · rw [hnil] at hcitation
    cases hcitation
  · obtain ⟨hit, hhit, hcites, -⟩ := (cited_of_mem_citations (hbacked.subset citation hcitation)).hit
    exact ⟨hit, hhit, hcites⟩

/-- A quote of the chat service is found in its chunk exactly if something of it is compared. -/
theorem isBound_answer (hpy : KeepsCase py) (hpath : queryType ≠ .sql)
    (hids : (finalHits.map RetrievalHit.chunkId).Nodup)
    (h : Chat.answer py service queryType count query finalHits = .ok result)
    {citation : Citation} (hcitation : citation ∈ result.citations) :
    isBound py items result citation = true ↔ normalize py citation.quote ≠ [] := by
  obtain ⟨hit, hhit, rfl⟩ := hit_of_mem_citations hpath h hcitation
  have hcontent : contentByChunk items result (service.grounding.citation hit).chunkId = hit.content :=
    contentByChunk_of_mem (finalResults_answer hpath h) hids hhit
  rw [isBound, hcontent, containsNormalized_iff]
  exact and_iff_left (normalize_quote hpy service.grounding hit).isInfix

/-- What is not refused is cited. -/
theorem citations_of_answered (hpath : queryType ≠ .sql)
    (hminimum : 1 ≤ service.grounding.minimumHits)
    (hids : (finalHits.map RetrievalHit.chunkId).Nodup)
    (h : Chat.answer py service queryType count query finalHits = .ok result)
    (hanswer : result.refusal = false) : result.citations ≠ [] := by
  rcases answer_spec hpath h with ⟨hrefusal, -⟩ | ⟨-, -, hgrounding, hbacked⟩
  · rw [hanswer] at hrefusal
    cases hrefusal
  · exact hbacked.ne_nil (GroundingService.citations_ne_nil (nodup_supportedHits hids)
      (GroundingService.eligible_ne_nil hminimum hgrounding))

/-- Nothing of an answer of the chat service is hallucinated exactly if it refuses, or something of each
quote is compared and the cited hits support each claim; the metadata of the items has no part in it. -/
theorem answer_claims (hpy : KeepsCase py) (hpath : queryType ≠ .sql)
    (hminimum : 1 ≤ service.grounding.minimumHits)
    (hids : (finalHits.map RetrievalHit.chunkId).Nodup)
    (h : Chat.answer py service queryType count query finalHits = .ok result)
    (items : List (String × Text)) :
    citationClaims py items result = citationClaims py [] result ∧
      ((citationClaims py items result).1 = 0 ↔ result.refusal = true) ∧
      ((citationClaims py items result).2 = 0 ↔ result.refusal = true ∨
        (∀ citation ∈ result.citations, normalize py citation.quote ≠ []) ∧
          ∀ claim ∈ evaluationClaims result.answer,
            independentClaimSupported py claim (citedText [] result) = true) := by
  have hcontent : ∀ citation ∈ result.citations,
      contentByChunk items result citation.chunkId = contentByChunk [] result citation.chunkId := by
    intro citation hcitation
    obtain ⟨hit, hhit, rfl⟩ := hit_of_mem_citations hpath h hcitation
    have hresults := finalResults_answer hpath h
    exact (contentByChunk_of_mem hresults hids hhit).trans (contentByChunk_of_mem hresults hids hhit).symm
  have htext : citedText items result = citedText [] result :=
    congrArg Text.joinLines (List.map_congr_left hcontent)
  cases hrefusal : result.refusal with
  | true =>
      rw [citationClaims_uncited (.inl hrefusal), citationClaims_uncited (.inl hrefusal)]
      exact ⟨rfl, iff_of_true rfl rfl, iff_of_true rfl (.inl rfl)⟩
  | false =>
      have hcited := citations_of_answered hpath hminimum hids h hrefusal
      have hunbound : citationUnbound py items result = citationUnbound py [] result := by
        rw [Bool.eq_iff_iff, citationUnbound, citationUnbound, List.any_eq_true, List.any_eq_true]
        refine exists_congr fun citation => and_congr_right fun hcitation => ?_
        rw [isBound, isBound, hcontent citation hcitation]
      have hunsupported : unsupportedClaims py items result = unsupportedClaims py [] result := by
        rw [unsupportedClaims, htext, unsupportedClaims]
      have heq : citationClaims py items result = citationClaims py [] result := by
        rw [citationClaims_cited hrefusal hcited, citationClaims_cited hrefusal hcited, hunbound,
          hunsupported]
      refine ⟨heq, ?_, ?_⟩
      · rw [claims_eq_zero_iff, hrefusal]
        simp [hcited]
      · rw [hallucinated_eq_zero_iff, hrefusal]
        simp only [Bool.false_eq_true, hcited, false_or]
        constructor
        · rintro ⟨hbound, hsupported⟩
          refine ⟨fun citation hcitation => ?_, htext ▸ hsupported⟩
          exact (isBound_answer hpy hpath hids h hcitation).mp (hbound citation hcitation)
        · rintro ⟨hquotes, hsupported⟩
          refine ⟨fun citation hcitation => ?_, htext.symm ▸ hsupported⟩
          exact (isBound_answer hpy hpath hids h hcitation).mpr (hquotes citation hcitation)

/-- The four questions are answered with four claims, and what the metadata says is not looked at. -/
theorem answer_claims_fourQuestions :
    ∃ result, Chat.answer .basic extractiveService .rag 0 fourQuestions fourHits = .ok result ∧
      result.refusal = false ∧
      citationClaims .basic [("subsidy", str "作废")] result = citationClaims .basic [] result ∧
      (citationClaims .basic [("subsidy", str "作废")] result).1 ≠ 0 := by
  obtain ⟨result, hresult, hanswer, -⟩ := exists_answer_of_extractive
    (by decide : QueryType.rag ≠ .sql) 0 (rfl : extractiveService.orchestrator = none)
    fourQuestions_sufficient.1 groundingDecision_fourQuestions.1
  obtain ⟨hitems, hcount, -⟩ := answer_claims keepsCase_basic (by decide) (by decide) (by decide) hresult
    [("subsidy", str "作废")]
  exact ⟨result, hresult, hanswer, hitems, by simp [hcount, hanswer]⟩

end Odirag.Evaluation.Claims
