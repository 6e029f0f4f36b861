import Odirag.Rag.Terms
import Mathlib.Data.List.MinMax
import Mathlib.Data.List.Sort

/-!
# Relations between a claim and its evidence

Reference: `_relation_failure` and its helpers of `backend/app/rag/evidence.py`.

A claim that something was cancelled, is punished or has a legal basis needs evidence that says so of
the same thing: of the targets next to an anchor word, of the subject of the same sentence, or of the
titles cited as the basis.
-/

namespace Odirag.Rag

open Regex
open Documents (isSpace)

/-- An anchor word and where it stands. -/
abbrev Occurrence := Text × ℕ

/-- Where an occurrence ends. -/
def Occurrence.stop (o : Occurrence) : ℕ := o.2 + o.1.length

/-- `_relation_occurrences`: longer anchors first, and none within another one. -/
def relationOccurrences (value : Text) (anchors : List Text) : List Occurrence :=
  let longestFirst := anchors.insertionSort fun a b => b.length ≤ a.length
  let occurrences := longestFirst.foldl (fun occurrences anchor =>
    (value.findAll anchor).foldl (fun occurrences index =>
      if occurrences.any fun (o : Occurrence) =>
          o.2 ≤ index && index + anchor.length ≤ o.stop then occurrences
      else occurrences ++ [(anchor, index)]) occurrences) []
  occurrences.insertionSort fun o o' => o.2 ≤ o'.2

/-- The stretch between the last break that ends before the occurrence and the first that starts after
it. -/
def enclosing (breaks : Regex) (value : Text) (o : Occurrence) : ℕ × ℕ :=
  let found := breaks.finditer value
  (((found.map Match.stop).filter (· ≤ o.2)).foldl max 0,
    ((found.map Match.start).filter (o.stop ≤ ·)).foldl min value.length)

/-- `_relation_clause`. -/
def relationClause (value : Text) (o : Occurrence) : Text :=
  value.slice (enclosing relationClauseBreak value o).1 (enclosing relationClauseBreak value o).2

/-- `_penalty_sentence`. -/
def penaltySentence (value : Text) (o : Occurrence) : Text :=
  value.slice (enclosing penaltySentenceBreak value o).1 (enclosing penaltySentenceBreak value o).2

/-- A match covers the index. -/
def insideMatch (r : Regex) (value : Text) (index : ℕ) : Bool :=
  (r.finditer value).any fun m => m.start ≤ index && index < m.stop

/-- `_inside_document_attribution`. -/
def insideDocumentAttribution (value : Text) (index : ℕ) : Bool :=
  insideMatch documentAttribution value index

/-- `_inside_non_penalty_fine`. -/
def insideNonPenaltyFine (value : Text) (index : ℕ) : Bool := insideMatch nonPenaltyFine value index

/-- One character of `_book_title_values`: the open brackets and the titles so far. -/
def bookTitleStep (value : Text) (state : List ℕ × List Text) (c : Char × ℕ) :
    List ℕ × List Text :=
  if c.1 = '《' then (c.2 :: state.1, state.2)
  else
    match c.1 == '》', state.1 with
    | true, opening :: stack =>
        let title := Text.stripBy isSpace (value.slice (opening + 1) c.2)
        (stack, if title = [] then state.2 else state.2 ++ [title])
    | _, _ => state

/-- `_book_title_values`. -/
def bookTitleValues (value : Text) : List Text :=
  firsts (value.zipIdx.foldl (bookTitleStep value) ([], [])).2

variable (py : Python)

/-- `_normalize_relation_text`. -/
def normalizeRelationText (value : Text) : Text :=
  (py.lower value).filter fun c =>
    (97 ≤ c.toNat && c.toNat ≤ 122) || isAsciiDigit c || isCjk c

/-- `_relation_terms`. -/
def relationTerms (value : Text) : List Text :=
  let cleaned := cleanForMatching py value
  let latin := (latinTerm.findall cleaned).map py.lower
  let segments := (cjkSegment.findall cleaned).flatMap fun segment =>
    if 2 ≤ segment.length ∧ segment.length ≤ 6 ∧ isGeneric segment = false then [py.lower segment]
    else if 6 < segment.length then
      [py.lower (segment.take 6), py.lower (segment.drop (segment.length - 6))]
    else []
  firsts (latin ++ segments)

/-- `_relation_target_terms`: what follows the anchor in its clause, or else what precedes it. -/
def relationTargetTerms (claim : Text) (o : Occurrence) : List Text :=
  let clause := enclosing relationClauseBreak claim o
  let after := cleanForMatching py (claim.slice o.stop clause.2)
  let before := cleanForMatching py (claim.slice clause.1 o.2)
  relationTerms py (if relationTerms py after = [] then before else after)

/-- `_strict_relation_target_terms`. -/
def strictRelationTargetTerms (claim : Text) (anchors : List Text) : List Text :=
  relationTerms py
    (anchors.foldl (fun cleaned anchor => cleaned.replace anchor (str " "))
      (cleanForMatching py claim))

/-- How far two positions are apart. -/
def distance (i j : ℕ) : ℕ := max i j - min i j

/-- The target stands next to the anchor, in the same clause. -/
def targetNearby (evidence : Text) (o : Occurrence) (radius : ℕ) (target : Text) : Bool :=
  let candidates := (evidence.findAll target).filter fun index => distance index o.2 ≤ radius
  match candidates.argmin fun index => distance index o.2 with
  | none => false
  | some nearest =>
      (relationClauseBreak.search
        (evidence.slice (min o.2 nearest) (max o.stop (nearest + target.length)))).isNone

/-- `_relation_occurrence_supported`. -/
def relationOccurrenceSupported (evidence : Text) (o : Occurrence) (targets : List Text)
    (radius : ℕ) (requireAll : Bool) : Bool :=
  targets.isEmpty ||
    if requireAll then targets.all (targetNearby evidence o radius)
    else targets.any (targetNearby evidence o radius)

/-- `_normalize_penalty_subject`. -/
def normalizePenaltySubject (value : Text) : Text :=
  let normalized := normalizeRelationText py value
  let normalized : Text :=
    if (str "各").isPrefixOf normalized then normalized.drop 1 else normalized
  match (strs ["单位", "各方", "主体", "人员", "机构", "部门", "企业"]).find? fun suffix =>
      normalized.endsWith suffix && suffix.length < normalized.length with
  | some suffix =>
      let candidate := normalized.dropRight suffix.length
      if 2 ≤ candidate.length then candidate else normalized
  | none => normalized

/-- `_penalty_subject_keys`, a set of at most one key. -/
def penaltySubjectKey (value : Text) : Option Text :=
  let hasViolation := value.containsAny (strs ["违反", "违法", "违规"])
  let hasLiabilityAssertion := value.contains (str "法律责任") &&
    value.containsAny (strs ["承担", "追究", "明确", "负有"])
  if value.containsAny (strs ["参建单位", "参建各方"]) && (hasViolation || hasLiabilityAssertion) then
    some (str "参建")
  else
    let direct := penaltySubject.finditer value
    let found := if direct.isEmpty then penaltyRole.finditer value else direct
    match found.getLast? with
    | none => none
    | some m =>
        if hasViolation || hasLiabilityAssertion then
          some (normalizePenaltySubject py ((m.group "subject").getD (str "None")))
        else none

/-- `_penalty_occurrence_is_relational`. -/
def penaltyOccurrenceIsRelational (claim : Text) (o : Occurrence) : Bool :=
  (strs ["罚款", "行政处罚", "法律责任"]).any (· == o.1) ||
    (penaltySubjectKey py (penaltySentence claim o)).isSome

/-- The occurrences that state the relation. -/
def activeOccurrences (relation : Relation) (claim : Text) : List Occurrence :=
  (relationOccurrences claim relation.anchors).filter fun o =>
    !insideDocumentAttribution claim o.2 &&
      !(relation = .penalty && o.1 == (str "罚款") && insideNonPenaltyFine claim o.2) &&
      !(relation = .penalty && !penaltyOccurrenceIsRelational py claim o)

/-- `_legal_basis_supported`. -/
def legalBasisSupported (claim evidence : Text) (occurrences : List Occurrence) : Bool :=
  occurrences.all fun o =>
    let titles := bookTitleValues (relationClause claim o)
    if titles = [] then evidence.containsAny Relation.legalBasis.anchors
    else
      let normalizedEvidence := normalizeRelationText py evidence
      titles.all fun title => normalizedEvidence.contains (normalizeRelationText py title)

/-- `_penalty_relation_supported`. -/
def penaltyRelationSupported (claim evidence : Text) (occurrences : List Occurrence)
    (anchors : List Text) : Bool :=
  let evidenceOccurrences := relationOccurrences evidence anchors
  occurrences.all fun o =>
    match penaltySubjectKey py (penaltySentence claim o) with
    | some key =>
        evidenceOccurrences.any fun e =>
          penaltySubjectKey py (penaltySentence evidence e) == some key
    | none =>
        let targets := relationTargetTerms py claim o
        evidenceOccurrences.any fun e => relationOccurrenceSupported evidence e targets 24 true

/-- The evidence states the relation of these occurrences. -/
def relationSupported (relation : Relation) (claim evidence : Text)
    (occurrences : List Occurrence) : Bool :=
  match relation with
  | .legalBasis => legalBasisSupported py claim evidence occurrences
  | .penalty => penaltyRelationSupported py claim evidence occurrences relation.anchors
  | .cancellation =>
      let targets := strictRelationTargetTerms py claim relation.anchors
      (relationOccurrences evidence relation.anchors).any fun e =>
        relationOccurrenceSupported evidence e targets 16 true

/-- `_relation_failure`: the first relation of the claim that the evidence does not state. -/
def relationFailure (claim evidence : Text) : Option Relation :=
  let loweredClaim := contextAttribution.sub (str " ") (py.lower claim)
  let loweredEvidence := py.lower evidence
  relationAnchorGroups.find? fun relation =>
    let active := activeOccurrences py relation loweredClaim
    !active.isEmpty && !relationSupported py relation loweredClaim loweredEvidence active

end Odirag.Rag
