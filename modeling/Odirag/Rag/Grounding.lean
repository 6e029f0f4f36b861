import Odirag.Rag.Terms
import Odirag.Retrieval.Hit
import Odirag.Foundations.Date
import Mathlib.Data.List.MinMax
import Mathlib.Data.String.Basic

/-!
# Grounding

Reference: `backend/app/rag/grounding.py`.

`GroundingService.assess` turns supported hits into citations: of enough official hits that share a term
with the query and do not contradict each other, those that no newer hit of the same policy supersedes.
The hit with the latest date of all always stays, so that supersession never leaves a sufficient decision
without citations (`citations_ne_nil`).
-/

namespace Odirag.Rag

open Regex
open Documents (isSpace)
open Retrieval

/-! ## Dates -/

/-- The number that the first digits of a text denote, if it begins with that many ASCII digits. -/
def readDigits (count : ℕ) (text : Text) : Option ℕ :=
  let digits := text.take count
  if digits.length = count ∧ digits.all isAsciiDigit then some (ofDecimal digits) else none

/-- The ordinal of a date; the first of January of the year 1 is day 1. -/
def ordinal (year month day : ℕ) : ℕ :=
  let before := year - 1
  before * 365 + before / 4 - before / 100 + before / 400 +
    ((List.range' 1 (month - 1)).map (daysInMonth year)).sum + day

/-- The ordinal of a calendar date, if there is one. -/
def calendarDate (year month day : ℕ) : Option ℕ :=
  if 1 ≤ year ∧ 1 ≤ month ∧ month ≤ 12 ∧ 1 ≤ day ∧ day ≤ daysInMonth year month then
    some (ordinal year month day)
  else none

/-- The ordinal of an ISO week date, if there is one. -/
def weekDate (year week day : ℕ) : Option ℕ :=
  let first := ordinal year 1 1
  let weekday := (first + 6) % 7
  let long := weekday = 3 ∨ (weekday = 2 ∧ daysInMonth year 2 = 29)
  let monday := if 3 < weekday then first - weekday + 7 else first - weekday
  let date := monday + (week - 1) * 7 + (day - 1)
  if 1 ≤ year ∧ 1 ≤ week ∧ (week ≤ 52 ∨ (week = 53 ∧ long)) ∧ 1 ≤ day ∧ day ≤ 7 ∧
      date ≤ ordinal 9999 12 31 then some date
  else none

/-- `date.fromisoformat`, as an ordinal: a calendar date or a week date, with or without dashes. Only the
size of the text is checked, in bytes: what stands behind the date is not read. -/
def dateFromIsoFormat (text : Text) : Option ℕ := do
  if (text.map Char.utf8Size).sum ∉ [7, 8, 10] then none
  let year ← readDigits 4 text
  let dashed : Bool := text.getD 4 ' ' = '-'
  let rest : Text := text.drop (if dashed then 5 else 4)
  if rest.head? = some 'W' then
    let week ← readDigits 2 (rest.drop 1)
    let day : Text := rest.drop 3
    if day = [] then weekDate year week 1
    else if dashed ∧ day.head? ≠ some '-' then none
    else (readDigits 1 (if dashed then day.drop 1 else day)).bind (weekDate year week)
  else
    let month ← readDigits 2 rest
    let day : Text := rest.drop 2
    if dashed ∧ day.head? ≠ some '-' then none
    else (readDigits 2 (if dashed then day.drop 1 else day)).bind (calendarDate year month)

/-! ## Citations -/

structure Citation where
  documentId : String
  chunkId : String
  title : Text
  source : Text
  publicationDate : Option Text
  url : Text
  page : Option MetadataValue
  quote : Text
  deriving DecidableEq

/-- The reasons of `GroundingService.assess`. -/
inductive GroundingReason where
  | insufficientRetrievedEvidence
  | officialSourceRequired
  | questionNotCovered
  | conflictingEvidence
  deriving DecidableEq, Repr

/-- The text of a reason. -/
def GroundingReason.text : GroundingReason → String
  | insufficientRetrievedEvidence => "insufficient_retrieved_evidence"
  | officialSourceRequired => "official_source_required"
  | questionNotCovered => "question_not_covered"
  | conflictingEvidence => "conflicting_evidence"

structure EvidenceDecision where
  sufficient : Bool
  reasons : List GroundingReason
  conflicts : List Text
  outdated : List Text
  citations : List Citation
  deriving DecidableEq

structure GroundingService where
  minimumHits : ℤ
  minimumScore : Score
  quoteChars : ℕ
  requireOfficialSource : Bool
  refuseOnConflict : Bool

variable (py : Python)

/-- `_overlap`. -/
def overlap (query content : Text) : Bool :=
  let alphanumeric := (rep (char fun c => isLatinLetter c || isAsciiDigit c) 2 none true).findall query
  let segments := (cjkSegment.findall query).flatMap fun segment =>
    if segment.length = 1 then [segment]
    else (List.range (segment.length - 1)).map fun index => segment.slice index (index + 2)
  let terms := alphanumeric.map py.lower ++ segments
  terms.isEmpty || (py.lower content).containsAny terms

/-- `_date_string`. -/
def dateString : Option MetadataValue → Option Text
  | none | some .none => none
  | some value => some value.toText

/-- `_date_value`, as an ordinal. -/
def dateValue : Option MetadataValue → Option ℤ
  | some (.date ordinal _) => some ordinal
  | some (.str text) => (dateFromIsoFormat (text.take 10)).map Int.ofNat
  | _ => none

/-- `_citation`. -/
def GroundingService.citation (service : GroundingService) (hit : RetrievalHit) : Citation where
  documentId := hit.documentId
  chunkId := hit.chunkId
  title := hit.title
  source := hit.getText "source_name" hit.source
  publicationDate := dateString (hit.get "publish_date")
  url := hit.sourceUrl
  page := hit.get "page_number"
  quote := List.take service.quoteChars (Text.stripBy isSpace (collapseSpaces hit.content))

/-- `_detect_conflicts`. -/
def detectConflicts (hits : List RetrievalHit) : List Text :=
  let statuses := hits.filterMap fun hit =>
    let policyKey := py.lower (Text.stripBy isSpace (hit.getText "policy_key" hit.title))
    let status := py.lower (Text.stripBy isSpace (hit.getText "policy_status" []))
    if status = [] then none else some (policyKey, status)
  let conflicting := (firsts (statuses.map Prod.fst)).filter fun key =>
    1 < (firsts ((statuses.filter fun s => s.1 = key).map Prod.snd)).length
  conflicting.map fun key => str "conflicting_policy_status:" ++ key

/-- The first of these values that counts as true, or else the fallback, stripped: the policy key of
`_detect_outdated`. -/
def policyKey (hit : RetrievalHit) : Text :=
  let values := [hit.get "document_number", hit.get "policy_key"].filterMap id
  Text.stripBy isSpace
    (((values.find? MetadataValue.truthy).map MetadataValue.toText).getD hit.title)

/-- When the policy of the hit was published, if the hit has a policy key and a date. -/
def published (hit : RetrievalHit) : Option ℤ :=
  if policyKey hit = [] then none else dateValue (hit.get "publish_date")

/-- The hits of a policy, with their dates: a group of `_detect_outdated`. -/
def policyGroup (hits : List RetrievalHit) (key : Text) : List (ℤ × RetrievalHit) :=
  (hits.filter fun hit => policyKey hit = key).filterMap fun hit =>
    (published hit).map fun date => (date, hit)

/-- The newest date of a group. -/
def newestDate (entries : List (ℤ × RetrievalHit)) : Option ℤ := (entries.map Prod.fst).max?

/-- What `_detect_outdated` finds in a group: messages, and the chunks that are outdated. -/
def outdatedOf (key : Text) (entries : List (ℤ × RetrievalHit)) : List (Text × String) :=
  match newestDate entries with
  | none => []
  | some newestDate =>
      let newest := ((entries.filter fun e => e.1 = newestDate).map fun e => e.2.chunkId).argmin id
      (entries.filter fun e => e.1 < newestDate).map fun e =>
        (str "newer_policy_available:" ++ key ++ str ":" ++ e.2.chunkId.toList ++ str ":" ++
          (newest.map String.toList).getD [], e.2.chunkId)

/-- `_detect_outdated`: the groups in the order in which their keys first appear. -/
def detectOutdated (hits : List RetrievalHit) : List (Text × String) :=
  (firsts ((hits.filter fun hit => (published hit).isSome).map policyKey)).flatMap fun key =>
    outdatedOf key (policyGroup hits key)

/-- The chunks that a newer hit of the same policy supersedes. -/
def outdatedIds (hits : List RetrievalHit) : List String := (detectOutdated hits).map Prod.snd

/-- The source of the hit is official. -/
def isOfficial (hit : RetrievalHit) : Bool :=
  py.lower (hit.getText "official_status" []) == str "official"

namespace GroundingService

variable (service : GroundingService)

/-- The hits with a sufficient score and a content. -/
def scored (hits : List RetrievalHit) : List RetrievalHit :=
  hits.filter fun hit =>
    hit.score.atLeast service.minimumScore && !(Text.stripBy isSpace hit.content).isEmpty

/-- The hits that can be cited. -/
def eligible (hits : List RetrievalHit) : List RetrievalHit :=
  if service.requireOfficialSource then (service.scored hits).filter (isOfficial py)
  else service.scored hits

/-- The reasons against an answer. -/
def reasons (query : Text) (hits : List RetrievalHit) : List GroundingReason :=
  let eligible := service.eligible py hits
  (if ((service.scored hits).length : ℤ) < service.minimumHits then
      [.insufficientRetrievedEvidence] else []) ++
    (if service.requireOfficialSource ∧ (eligible.length : ℤ) < service.minimumHits then
      [.officialSourceRequired] else []) ++
    (if eligible ≠ [] ∧ (eligible.any fun hit => overlap py query hit.content) = false then
      [.questionNotCovered] else []) ++
    (if detectConflicts py eligible ≠ [] ∧ service.refuseOnConflict then
      [.conflictingEvidence] else [])

/-- `assess`. -/
def assess (query : Text) (hits : List RetrievalHit) : EvidenceDecision :=
  let eligible := service.eligible py hits
  let reasons := service.reasons py query hits
  { sufficient := reasons.isEmpty
    reasons := firsts reasons
    conflicts := detectConflicts py eligible
    outdated := (detectOutdated eligible).map Prod.fst
    citations := (eligible.filter fun hit => hit.chunkId ∉ outdatedIds eligible).map service.citation }

end GroundingService

/-! ## Superseded hits -/

/-- The first hit is a newer one of the same policy. -/
def Supersedes (newer hit : RetrievalHit) : Prop :=
  policyKey newer = policyKey hit ∧
    ∃ date newDate, published hit = some date ∧ published newer = some newDate ∧ date < newDate

/-- A newer hit of the same policy supersedes the hit. -/
def Superseded (hits : List RetrievalHit) (hit : RetrievalHit) : Prop :=
  ∃ newer ∈ hits, Supersedes newer hit

theorem mem_policyGroup {hits : List RetrievalHit} {key : Text} {entry : ℤ × RetrievalHit} :
    entry ∈ policyGroup hits key ↔
      entry.2 ∈ hits ∧ policyKey entry.2 = key ∧ published entry.2 = some entry.1 := by
  unfold policyGroup
  rw [List.mem_filterMap]
  constructor
  · rintro ⟨hit, hhit, hentry⟩
    obtain ⟨hmem, hkey⟩ := List.mem_filter.mp hhit
    obtain ⟨date, hdate, rfl⟩ := Option.map_eq_some_iff.mp hentry
    exact ⟨hmem, of_decide_eq_true hkey, hdate⟩
  · rintro ⟨hmem, hkey, hdate⟩
    refine ⟨entry.2, List.mem_filter.mpr ⟨hmem, decide_eq_true hkey⟩, ?_⟩
    rw [hdate]
    rfl

/-- A group reports the chunks whose date is not its newest one. -/
theorem mem_outdatedOf {key : Text} {entries : List (ℤ × RetrievalHit)} {id : String} :
    id ∈ (outdatedOf key entries).map Prod.snd ↔
      ∃ e ∈ entries, e.2.chunkId = id ∧ ∃ newer ∈ entries, e.1 < newer.1 := by
  unfold outdatedOf
  cases hmax : newestDate entries with
  | none =>
      have hnil : entries = [] := List.map_eq_nil_iff.mp (List.max?_eq_none_iff.mp hmax)
      simp [hnil]
  | some newest =>
      obtain ⟨hmem, hle⟩ := List.max?_eq_some_iff.mp hmax
      obtain ⟨top, htop, rfl⟩ := List.mem_map.mp hmem
      have holder : ∀ e ∈ entries, (e.1 < top.1 ↔ ∃ newer ∈ entries, e.1 < newer.1) := by
        intro e _
        constructor
        · exact fun hlt => ⟨top, htop, hlt⟩
        · rintro ⟨newer, hnewer, hlt⟩
          exact lt_of_lt_of_le hlt (hle _ (List.mem_map_of_mem hnewer))
      simp only [List.map_map, List.mem_map, List.mem_filter, decide_eq_true_iff, Function.comp]
      constructor
      · rintro ⟨e, ⟨he, hlt⟩, hid⟩
        exact ⟨e, he, hid, (holder e he).mp hlt⟩
      · rintro ⟨e, he, hid, hlt⟩
        exact ⟨e, ⟨he, (holder e he).mpr hlt⟩, hid⟩

/-- The outdated chunks are those of the superseded hits. -/
theorem mem_outdatedIds {hits : List RetrievalHit} {id : String} :
    id ∈ outdatedIds hits ↔ ∃ hit ∈ hits, hit.chunkId = id ∧ Superseded hits hit := by
  unfold outdatedIds detectOutdated
  rw [List.map_flatMap, List.mem_flatMap]
  constructor
  · rintro ⟨key, -, hid⟩
    obtain ⟨e, he, hid, newer, hnewer, hlt⟩ := mem_outdatedOf.mp hid
    obtain ⟨hmem, hkey, hdate⟩ := mem_policyGroup.mp he
    obtain ⟨hmem', hkey', hdate'⟩ := mem_policyGroup.mp hnewer
    exact ⟨e.2, hmem, hid, newer.2, hmem', by rw [hkey', hkey], e.1, newer.1, hdate, hdate', hlt⟩
  · rintro ⟨hit, hmem, hid, newer, hmem', hkey, date, newDate, hdate, hdate', hlt⟩
    have hgroup : policyKey hit ∈
        firsts ((hits.filter fun hit => (published hit).isSome).map policyKey) := by
      rw [mem_firsts]
      refine List.mem_map_of_mem (List.mem_filter.mpr ⟨hmem, ?_⟩)
      rw [hdate]
      rfl
    refine ⟨policyKey hit, hgroup, mem_outdatedOf.mpr ⟨(date, hit), ?_, hid, (newDate, newer), ?_, hlt⟩⟩
    · exact mem_policyGroup.mpr ⟨hmem, rfl, hdate⟩
    · exact mem_policyGroup.mpr ⟨hmem', hkey, hdate'⟩

/-- The hit with the latest date of all is not superseded, nor is a hit without a date. -/
theorem exists_not_superseded {hits : List RetrievalHit} (hne : hits ≠ []) :
    ∃ hit ∈ hits, ¬ Superseded hits hit := by
  by_cases hdated : ∃ hit ∈ hits, published hit = none
  · obtain ⟨hit, hhit, hnone⟩ := hdated
    refine ⟨hit, hhit, ?_⟩
    rintro ⟨newer, -, -, date, newDate, hdate, -, -⟩
    rw [hnone] at hdate
    cases hdate
  let date (hit : RetrievalHit) : ℤ := (published hit).getD 0
  cases hlatest : hits.argmax date with
  | none => exact absurd (List.argmax_eq_none.mp hlatest) hne
  | some latest =>
      refine ⟨latest, List.argmax_mem hlatest, ?_⟩
      rintro ⟨newer, hnewer, -, oldDate, newDate, hold, hnew, hlt⟩
      have hle : date newer ≤ date latest := List.le_of_mem_argmax hnewer hlatest
      simp only [date, hold, hnew, Option.getD_some] at hle
      omega

/-! ## The citations of a decision -/

namespace GroundingService

variable {py} {service : GroundingService} {query : Text} {hits : List RetrievalHit}

theorem scored_of_mem_eligible {hit : RetrievalHit} (h : hit ∈ service.eligible py hits) :
    hit ∈ service.scored hits ∧ (service.requireOfficialSource = true → isOfficial py hit = true) := by
  unfold eligible at h
  split at h
  · next hrequired =>
      rw [List.mem_filter] at h
      exact ⟨h.1, fun _ => h.2⟩
  · next hrequired => exact ⟨h, fun hofficial => absurd hofficial hrequired⟩

variable (py service) in
/-- Grounding looks at the hit: its score and its content are enough, and its source is official where
that is required. -/
def isEligible (hit : RetrievalHit) : Bool :=
  hit.score.atLeast service.minimumScore && !(Text.stripBy isSpace hit.content).isEmpty &&
    (!service.requireOfficialSource || isOfficial py hit)

theorem eligible_eq : service.eligible py hits = hits.filter (service.isEligible py) := by
  unfold eligible scored isEligible
  cases service.requireOfficialSource with
  | true => simp [List.filter_filter, Bool.and_comm]
  | false => simp

/-- The hits that can be cited come in the order of the hits. -/
theorem eligible_sublist : (service.eligible py hits).Sublist hits := by
  unfold eligible scored
  split
  · exact List.filter_sublist.trans List.filter_sublist
  · exact List.filter_sublist

/-- What is cited are the hits that can be cited and are not superseded. -/
def cited (py : Python) (service : GroundingService) (hits : List RetrievalHit) :
    List RetrievalHit :=
  (service.eligible py hits).filter fun hit => hit.chunkId ∉ outdatedIds (service.eligible py hits)

theorem citations_eq :
    (service.assess py query hits).citations = (service.cited py hits).map service.citation := rfl

theorem map_chunkId_citation (hits : List RetrievalHit) :
    (hits.map service.citation).map Citation.chunkId = hits.map RetrievalHit.chunkId :=
  List.map_map

theorem cited_sublist : (service.cited py hits).Sublist hits :=
  List.filter_sublist.trans eligible_sublist

/-- A sufficient decision rests on a hit that can be cited. -/
theorem eligible_ne_nil (hminimum : 1 ≤ service.minimumHits)
    (h : (service.assess py query hits).sufficient = true) : service.eligible py hits ≠ [] := by
  have hreasons : service.reasons py query hits = [] := List.isEmpty_iff.mp h
  unfold reasons at hreasons
  simp only [List.append_eq_nil_iff] at hreasons
  obtain ⟨⟨⟨hscored, hofficial⟩, -⟩, -⟩ := hreasons
  have hscored : ¬ ((service.scored hits).length : ℤ) < service.minimumHits := by
    intro hfew
    rw [if_pos hfew] at hscored
    cases hscored
  have hofficial : ¬ (service.requireOfficialSource = true ∧
      ((service.eligible py hits).length : ℤ) < service.minimumHits) := by
    intro hfew
    rw [if_pos hfew] at hofficial
    cases hofficial
  intro hnil
  have hfew : ((service.eligible py hits).length : ℤ) < service.minimumHits := by
    rw [hnil, List.length_nil]
    omega
  by_cases hrequired : service.requireOfficialSource = true
  · exact hofficial ⟨hrequired, hfew⟩
  · rw [eligible, if_neg hrequired] at hfew
    exact hscored hfew

/-- Supersession leaves a citation, if the hits are of distinct chunks. -/
theorem citations_ne_nil (hids : (hits.map RetrievalHit.chunkId).Nodup)
    (hne : service.eligible py hits ≠ []) : (service.assess py query hits).citations ≠ [] := by
  obtain ⟨hit, hhit, hcurrent⟩ := exists_not_superseded hne
  have hnotOutdated : hit.chunkId ∉ outdatedIds (service.eligible py hits) := by
    intro houtdated
    obtain ⟨other, hother, hid, hsuperseded⟩ := mem_outdatedIds.mp houtdated
    have heq : other = hit := List.inj_on_of_nodup_map hids (eligible_sublist.subset hother)
      (eligible_sublist.subset hhit) hid
    exact hcurrent (heq ▸ hsuperseded)
  rw [citations_eq, Ne, List.map_eq_nil_iff]
  exact List.ne_nil_of_mem (List.mem_filter.mpr ⟨hhit, decide_eq_true hnotOutdated⟩)

end GroundingService

end Odirag.Rag
