import Mathlib.Data.Char
import Mathlib.Data.List.Lex
import Mathlib.Data.List.Sort
import Odirag.Foundations.Distinct
import Odirag.Foundations.Json
import Odirag.Foundations.Keyed
import Odirag.Foundations.Orm

/-!
# The evaluation questions

Reference: `EvaluationRepository.upsert_questions` and `list_verified_questions` of
`backend/app/repositories/evaluation.py`, `EvaluationApplicationService._resolve_questions` of
`backend/app/services/evaluation.py`.

`upsert_questions` loads the rows of its identifiers, assigns their fields in the session, adds the
others and leaves the rest to the flush: the columns that a loop has changed are written, the unique
column `question_id` is checked. Against the table that it has loaded this is the update of a keyed
table (`upsertQuestions_eq`); `Session.commit_spec` says what is left when other sessions have
written since.
-/

namespace Odirag.Questions

/-- A row of `evaluation_questions`. -/
structure EvaluationQuestion where
  questionId : Text
  question : Text
  queryType : Text
  expectedDocumentIds : List Text
  expectedChunkIds : List Text
  expectedAnswerPoints : List Text
  expectedFilters : Json.Fields
  shouldRefuse : Bool
  difficulty : Option Text
  category : Option Text
  createdBy : Option Text
  verified : Bool
deriving DecidableEq

/-- The rows, in the order of their primary keys. -/
abbrev Table := List EvaluationQuestion

/-- Assign the fields of `_QUESTION_FIELDS`. -/
def EvaluationQuestion.setFields (current incoming : EvaluationQuestion) : EvaluationQuestion :=
  { current with
    question := incoming.question
    queryType := incoming.queryType
    expectedDocumentIds := incoming.expectedDocumentIds
    expectedChunkIds := incoming.expectedChunkIds
    expectedAnswerPoints := incoming.expectedAnswerPoints
    expectedFilters := incoming.expectedFilters
    shouldRefuse := incoming.shouldRefuse
    difficulty := incoming.difficulty
    category := incoming.category
    createdBy := incoming.createdBy
    verified := incoming.verified }

@[simp] theorem setFields_questionId (current incoming : EvaluationQuestion) :
    (current.setFields incoming).questionId = current.questionId := rfl

theorem setFields_eq {current incoming : EvaluationQuestion}
    (h : current.questionId = incoming.questionId) : current.setFields incoming = incoming := by
  simp [EvaluationQuestion.setFields, h]

/-- The row after the update of the columns that the session has changed. -/
def saveRow (held : Held EvaluationQuestion) (stored : EvaluationQuestion) :
    EvaluationQuestion where
  questionId := stored.questionId
  question := column held.loaded.question held.current.question stored.question
  queryType := column held.loaded.queryType held.current.queryType stored.queryType
  expectedDocumentIds := column held.loaded.expectedDocumentIds held.current.expectedDocumentIds
    stored.expectedDocumentIds
  expectedChunkIds := column held.loaded.expectedChunkIds held.current.expectedChunkIds
    stored.expectedChunkIds
  expectedAnswerPoints := column held.loaded.expectedAnswerPoints
    held.current.expectedAnswerPoints stored.expectedAnswerPoints
  expectedFilters := column held.loaded.expectedFilters held.current.expectedFilters
    stored.expectedFilters
  shouldRefuse := column held.loaded.shouldRefuse held.current.shouldRefuse stored.shouldRefuse
  difficulty := column held.loaded.difficulty held.current.difficulty stored.difficulty
  category := column held.loaded.category held.current.category stored.category
  createdBy := column held.loaded.createdBy held.current.createdBy stored.createdBy
  verified := column held.loaded.verified held.current.verified stored.verified

@[simp] theorem saveRow_questionId (held : Held EvaluationQuestion) (stored : EvaluationQuestion) :
    (saveRow held stored).questionId = stored.questionId := rfl

theorem saveRow_fresh {row current : EvaluationQuestion} (h : current.questionId = row.questionId) :
    saveRow ⟨row, current⟩ row = current := by
  simp [saveRow, ← h]

/-! ## `upsert_questions` -/

/-- The objects of a session: the loaded rows and the added ones. -/
structure Session where
  existing : List (Held EvaluationQuestion)
  added : List EvaluationQuestion

/-- The rows of the identifiers of the questions. -/
def select (table questions : Table) : Session where
  existing := (table.filter fun row => row.questionId ∈ questions.map (·.questionId)).map .fresh
  added := []

/-- One turn of the loop. -/
def Session.upsert (s : Session) (incoming : EvaluationQuestion) : Session :=
  if incoming.questionId ∈ s.existing.map (·.loaded.questionId) then
    { s with existing := s.existing.map fun held =>
        if held.loaded.questionId = incoming.questionId then held.assign (·.setFields incoming)
        else held }
  else { s with added := s.added ++ [incoming] }

/-- The stored rows after the updates of the session. -/
def Session.rows (s : Session) (table : Table) : Table :=
  table.map fun row =>
    match Keyed.find? (fun held : Held EvaluationQuestion => held.loaded.questionId)
        row.questionId s.existing with
    | some held => saveRow held row
    | none => row

/-- The flush and the commit; nothing is stored when an identifier would be there twice. -/
def Session.commit (s : Session) (table : Table) : Option Table :=
  if ((s.rows table ++ s.added).map (·.questionId)).Nodup then some (s.rows table ++ s.added)
  else none

/-- `upsert_questions` and the commit, while no other session writes. -/
def upsertQuestions (table questions : Table) : Option Table :=
  (questions.foldl Session.upsert (select table questions)).commit table

@[simp] theorem map_questionId_rows (s : Session) (table : Table) :
    (s.rows table).map (·.questionId) = table.map (·.questionId) := by
  rw [Session.rows, List.map_map]
  refine List.map_congr_left fun row _ => ?_
  simp only [Function.comp_apply]
  split <;> rfl

/-- A commit keeps the identifiers and adds those of the added rows. -/
theorem Session.commit_spec {s : Session} {table table' : Table} (h : s.commit table = some table') :
    table' = s.rows table ++ s.added ∧ (table'.map (·.questionId)).Nodup ∧
      table'.map (·.questionId) = table.map (·.questionId) ++ s.added.map (·.questionId) := by
  unfold commit at h
  split at h
  · next hnodup =>
      cases h
      exact ⟨rfl, hnodup, by rw [List.map_append, map_questionId_rows]⟩
  · cases h

/-- What the loop has done so far, seen from the table that was loaded. -/
structure Loop (table questions done : Table) (s : Session) where
  current : EvaluationQuestion → EvaluationQuestion
  current_questionId : ∀ row, (current row).questionId = row.questionId
  /-- Only the rows of the call are changed. -/
  current_of_notMem : ∀ row, row.questionId ∉ questions.map (·.questionId) → current row = row
  existing : s.existing =
    (table.filter fun row => row.questionId ∈ questions.map (·.questionId)).map
      fun row => ⟨row, current row⟩
  added : s.added = done.filter fun q => q.questionId ∉ table.map (·.questionId)
  put : (s.added.map (·.questionId)).Nodup →
    table.map current ++ s.added = Keyed.putAll (·.questionId) table done

/-- The loop starts with what was loaded. -/
def Loop.start (table questions : Table) : Loop table questions [] (select table questions) where
  current := id
  current_questionId _ := rfl
  current_of_notMem _ _ := rfl
  existing := rfl
  added := rfl
  put _ := by simp [select]

variable {table questions done : Table} {s : Session} {q : EvaluationQuestion}

theorem Loop.mem_existing (l : Loop table questions done s)
    (hq : q.questionId ∈ questions.map (·.questionId)) :
    q.questionId ∈ s.existing.map (·.loaded.questionId) ↔
      q.questionId ∈ table.map (·.questionId) := by
  simp only [l.existing, List.map_map, List.mem_map, List.mem_filter, Function.comp_apply,
    decide_eq_true_eq]
  constructor
  · rintro ⟨row, ⟨hrow, -⟩, heq⟩
    exact ⟨row, hrow, heq⟩
  · rintro ⟨row, hrow, heq⟩
    exact ⟨row, ⟨hrow, heq ▸ List.mem_map.mp hq⟩, heq⟩

/-- A turn of the loop stores the question in the keyed table. -/
theorem Loop.step (l : Loop table questions done s)
    (hq : q.questionId ∈ questions.map (·.questionId)) :
    Nonempty (Loop table questions (done ++ [q]) (s.upsert q)) := by
  unfold Session.upsert
  by_cases hold : q.questionId ∈ table.map (·.questionId)
  · rw [if_pos ((l.mem_existing hq).mpr hold)]
    refine ⟨fun row => if row.questionId = q.questionId then (l.current row).setFields q
      else l.current row, fun row => ?_, fun row hrow => ?_, ?_, ?_, fun hnodup => ?_⟩
    · split <;> simp [l.current_questionId]
    · have hne : row.questionId ≠ q.questionId := fun heq => hrow (by rw [heq]; exact hq)
      rw [if_neg hne, l.current_of_notMem row hrow]
    · simp only [l.existing, List.map_map]
      refine List.map_congr_left fun row _ => ?_
      simp only [Function.comp_apply]
      split <;> rfl
    · rw [l.added, List.filter_append, List.filter_cons_of_neg, List.filter_nil, List.append_nil]
      simpa only [decide_eq_true_eq] using not_not_intro hold
    · -- The added rows have other identifiers, the loaded ones are replaced in their places.
      have hput := l.put hnodup
      have hkeys : (Keyed.putAll (·.questionId) table done).map (·.questionId) =
          table.map (·.questionId) ++ s.added.map (·.questionId) := by
        rw [← hput, List.map_append, List.map_map]
        simp [Function.comp_def, l.current_questionId]
      rw [Keyed.putAll, List.foldl_append, List.foldl_cons, List.foldl_nil, ← Keyed.putAll,
        Keyed.put, if_pos (by rw [hkeys]; exact List.mem_append_left _ hold), ← hput,
        List.map_append, List.map_map]
      congr 1
      · refine List.map_congr_left fun row _ => ?_
        simp only [Function.comp_apply, l.current_questionId]
        split
        · next heq => exact setFields_eq ((l.current_questionId row).trans heq)
        · rfl
      · refine ((List.map_congr_left fun row hrow => ?_).trans (List.map_id _)).symm
        rw [l.added, List.mem_filter, decide_eq_true_eq] at hrow
        have hne : row.questionId ≠ q.questionId := fun heq => hrow.2 (by rw [heq]; exact hold)
        exact if_neg hne
  · rw [if_neg (mt (l.mem_existing hq).mp hold)]
    have hadded : s.added ++ [q] =
        (done ++ [q]).filter fun q => q.questionId ∉ table.map (·.questionId) := by
      rw [l.added, List.filter_append, List.filter_cons_of_pos, List.filter_nil]
      simpa only [decide_eq_true_eq] using hold
    refine ⟨l.current, l.current_questionId, l.current_of_notMem, l.existing, hadded,
      fun hnodup => ?_⟩
    simp only [List.map_append, List.map_singleton, List.nodup_append] at hnodup
    have hput := l.put hnodup.1
    have hnew : q.questionId ∉
        (Keyed.putAll (·.questionId) table done).map (·.questionId) := by
      rw [← hput, List.map_append, List.map_map, List.mem_append, not_or]
      constructor
      · simpa [Function.comp_def, l.current_questionId] using hold
      · exact fun hmem => hnodup.2.2 _ hmem _ (List.mem_singleton_self _) rfl
    rw [Keyed.putAll, List.foldl_append, List.foldl_cons, List.foldl_nil, ← Keyed.putAll,
      Keyed.put, if_neg hnew, ← hput, List.append_assoc]

theorem Loop.run (hdone : ∀ q ∈ done, q.questionId ∈ questions.map (·.questionId)) :
    Nonempty (Loop table questions done (done.foldl Session.upsert (select table questions))) := by
  induction done using List.reverseRecOn with
  | nil => exact ⟨.start table questions⟩
  | append_singleton done q ih =>
      obtain ⟨l⟩ := ih fun r hr => hdone r (List.mem_append_left _ hr)
      rw [List.foldl_append]
      exact l.step (hdone q (List.mem_append_right _ (List.mem_singleton_self q)))

/-- The rows at the flush, when no other session has written. -/
theorem Loop.rows_eq (l : Loop table questions done s) (hnodup : (table.map (·.questionId)).Nodup) :
    s.rows table = table.map l.current := by
  refine List.map_congr_left fun row hrow => ?_
  have hfind : Keyed.find? (fun held : Held EvaluationQuestion => held.loaded.questionId)
      row.questionId s.existing =
        if row.questionId ∈ questions.map (·.questionId) then some ⟨row, l.current row⟩
        else none := by
    rw [l.existing]
    split
    · next hmem =>
        refine (Keyed.find?_eq_some_iff ?_).mpr ⟨List.mem_map.mpr ⟨row, ?_, rfl⟩, rfl⟩
        · rw [List.map_map]
          exact hnodup.sublist (List.filter_sublist.map _)
        · exact List.mem_filter.mpr ⟨hrow, by simpa using hmem⟩
    · next hmem =>
        refine Keyed.find?_eq_none_iff.mpr fun hkey => hmem ?_
        simp only [List.map_map, List.mem_map, List.mem_filter, Function.comp_apply,
          decide_eq_true_eq] at hkey
        obtain ⟨other, ⟨-, hother⟩, heq⟩ := hkey
        exact heq ▸ List.mem_map.mpr hother
  rw [hfind]
  by_cases hmem : row.questionId ∈ questions.map (·.questionId)
  · rw [if_pos hmem]
    exact saveRow_fresh (l.current_questionId row)
  · rw [if_neg hmem]
    exact (l.current_of_notMem row hmem).symm

/-- `upsert_questions` stores the questions one after another, unless two new ones have one
identifier. -/
theorem upsertQuestions_eq (questions : Table) (hnodup : (table.map (·.questionId)).Nodup) :
    upsertQuestions table questions =
      if ((questions.filter fun q => q.questionId ∉ table.map (·.questionId)).map
          (·.questionId)).Nodup
      then some (Keyed.putAll (·.questionId) table questions) else none := by
  obtain ⟨l⟩ : Nonempty (Loop table questions questions
      (questions.foldl Session.upsert (select table questions))) :=
    Loop.run fun q hq => List.mem_map_of_mem hq
  have hiff : (((questions.foldl Session.upsert (select table questions)).rows table ++
        (questions.foldl Session.upsert (select table questions)).added).map
          (·.questionId)).Nodup ↔
      ((questions.filter fun q => q.questionId ∉ table.map (·.questionId)).map
        (·.questionId)).Nodup := by
    rw [List.map_append, map_questionId_rows, l.added, List.nodup_append]
    refine ⟨fun h => h.2.1, fun h => ⟨hnodup, h, ?_⟩⟩
    rintro a ha b hb rfl
    obtain ⟨q, hq, rfl⟩ := List.mem_map.mp hb
    exact (of_decide_eq_true (List.mem_filter.mp hq).2) ha
  unfold upsertQuestions Session.commit
  by_cases hadded : ((questions.filter fun q => q.questionId ∉ table.map (·.questionId)).map
      (·.questionId)).Nodup
  · rw [if_pos (hiff.mpr hadded), if_pos hadded, l.rows_eq hnodup, l.put (l.added ▸ hadded)]
  · rw [if_neg (mt hiff.mp hadded), if_neg hadded]

/-! ## The questions of a run -/

section Resolve

-- The collation by which the database orders identifiers.
variable (le : Text → Text → Bool)

/-- A question that a run in this category may measure. -/
def EvaluationQuestion.isEligible (category : Option Text) (q : EvaluationQuestion) : Bool :=
  q.verified && (category.isNone || decide (q.category = category))

/-- `list_verified_questions`. -/
def listVerifiedQuestions (table : Table) (questionIds : List Text) (category : Option Text) :
    List EvaluationQuestion :=
  (table.filter fun q => q.isEligible category &&
    (questionIds.isEmpty || decide (q.questionId ∈ questionIds))).mergeSort
      fun q r => le q.questionId r.questionId

/-- Why there is nothing to run. -/
inductive ResolveError
  | integrity
  | notFound (missing : List Text)
  | noneMatched
deriving DecidableEq

/-- `_resolve_questions`: the inline questions are stored and committed, then the selected ones are
read. -/
def resolveQuestions (table : Table) (questionIds : List Text) (inlineQuestions : Table)
    (category : Option Text) : Table × Except ResolveError (List EvaluationQuestion) :=
  match upsertQuestions table inlineQuestions with
  | none => (table, .error .integrity)
  | some table =>
      let selectedIds := firsts (questionIds ++ inlineQuestions.map (·.questionId))
      let questions := listVerifiedQuestions le table selectedIds category
      let missing := selectedIds.filter fun i => i ∉ questions.map (·.questionId)
      if missing ≠ [] then (table, .error (.notFound missing))
      else if questions = [] then (table, .error .noneMatched)
      else (table, .ok questions)

variable {le} {questionIds : List Text} {inlineQuestions : Table} {category : Option Text}

theorem mem_listVerifiedQuestions {ids : List Text} {q : EvaluationQuestion} :
    q ∈ listVerifiedQuestions le table ids category ↔
      q ∈ table ∧ q.isEligible category = true ∧ (ids = [] ∨ q.questionId ∈ ids) := by
  simp [listVerifiedQuestions, List.mem_mergeSort]

/-- The identifiers that are read, of the requested ones. -/
theorem mem_map_listVerifiedQuestions {ids : List Text} {i : Text} (hi : i ∈ ids) :
    i ∈ (listVerifiedQuestions le table ids category).map (·.questionId) ↔
      ∃ q ∈ table, q.questionId = i ∧ q.isEligible category = true := by
  simp only [List.mem_map, mem_listVerifiedQuestions]
  constructor
  · rintro ⟨q, ⟨hq, heligible, -⟩, rfl⟩
    exact ⟨q, hq, rfl, heligible⟩
  · rintro ⟨q, hq, rfl, heligible⟩
    exact ⟨q, ⟨hq, heligible, .inr hi⟩, rfl⟩

/-- None of the requested identifiers is missing. -/
theorem missing_eq_nil_iff {ids : List Text} :
    (ids.filter fun i => i ∉ (listVerifiedQuestions le table ids category).map (·.questionId)) = [] ↔
      ∀ i ∈ ids, ∃ q ∈ table, q.questionId = i ∧ q.isEligible category = true := by
  simp only [List.filter_eq_nil_iff, decide_eq_true_eq, not_not]
  exact forall₂_congr fun i hi => mem_map_listVerifiedQuestions hi

variable (le) in
/-- When none is missing, something is read if there is something to read. -/
theorem listVerifiedQuestions_eq_nil_iff {ids : List Text}
    (hfound : ∀ i ∈ ids, ∃ q ∈ table, q.questionId = i ∧ q.isEligible category = true) :
    listVerifiedQuestions le table ids category = [] ↔
      ¬ ∃ q ∈ table, q.isEligible category = true := by
  rw [List.eq_nil_iff_forall_not_mem]
  constructor
  · rintro hnone ⟨q, hq, heligible⟩
    cases ids with
    | nil => exact hnone q (mem_listVerifiedQuestions.mpr ⟨hq, heligible, .inl rfl⟩)
    | cons i ids =>
        obtain ⟨r, hr, hi, hreligible⟩ := hfound i List.mem_cons_self
        exact hnone r (mem_listVerifiedQuestions.mpr
          ⟨hr, hreligible, .inr (hi ▸ List.mem_cons_self)⟩)
  · rintro hnone q hq
    obtain ⟨hmem, heligible, -⟩ := mem_listVerifiedQuestions.mp hq
    exact hnone ⟨q, hmem, heligible⟩

theorem nodup_listVerifiedQuestions (ids : List Text) (hnodup : (table.map (·.questionId)).Nodup) :
    ((listVerifiedQuestions le table ids category).map (·.questionId)).Nodup :=
  ((List.mergeSort_perm _ _).map _).nodup_iff.mpr (hnodup.sublist (List.filter_sublist.map _))

theorem pairwise_listVerifiedQuestions (ids : List Text) (hle : ∀ a b, le a b || le b a)
    (htrans : ∀ a b c, le a b → le b c → le a c) :
    (listVerifiedQuestions le table ids category).Pairwise
      fun q r => le q.questionId r.questionId :=
  List.pairwise_mergeSort (fun q r t => htrans q.questionId r.questionId t.questionId)
    (fun q r => hle q.questionId r.questionId) _

/-- The answer once the inline questions are stored. -/
theorem resolveQuestions_of_upsert {saved : Table}
    (h : upsertQuestions table inlineQuestions = some saved) :
    resolveQuestions le table questionIds inlineQuestions category =
      let ids := firsts (questionIds ++ inlineQuestions.map (·.questionId))
      let questions := listVerifiedQuestions le saved ids category
      if (ids.filter fun i => i ∉ questions.map (·.questionId)) ≠ [] then
        (saved, .error (.notFound (ids.filter fun i => i ∉ questions.map (·.questionId))))
      else if questions = [] then (saved, .error .noneMatched)
      else (saved, .ok questions) := by
  simp only [resolveQuestions, h]

/-- A run measures each of the requested questions once, in the order of their identifiers, exactly
if all of them are stored, verified and of the category; a request that fails stores its inline
questions or nothing. -/
theorem resolveQuestions_spec (hle : ∀ a b, le a b || le b a)
    (htrans : ∀ a b c, le a b → le b c → le a c) (hnodup : (table.map (·.questionId)).Nodup) :
    let saved := Keyed.putAll (·.questionId) table inlineQuestions
    let requested := questionIds ++ inlineQuestions.map (·.questionId)
    let result := resolveQuestions le table questionIds inlineQuestions category
    ((∃ questions, result.2 = .ok questions) ↔
      ((inlineQuestions.filter fun q => q.questionId ∉ table.map (·.questionId)).map
          (·.questionId)).Nodup ∧
        (∀ i ∈ requested, ∃ q ∈ saved, q.questionId = i ∧ q.isEligible category = true) ∧
        ∃ q ∈ saved, q.isEligible category = true) ∧
      (∀ questions, result.2 = .ok questions →
        result.1 = saved ∧ (questions.map (·.questionId)).Nodup ∧
          questions.Pairwise (fun q r => le q.questionId r.questionId) ∧
          ∀ q, q ∈ questions ↔ q ∈ saved ∧ q.isEligible category = true ∧
            (requested = [] ∨ q.questionId ∈ requested)) ∧
      ∀ e, result.2 = .error e → result.1 = table ∨ result.1 = saved := by
  intro saved requested result
  have hfound : (∀ i ∈ firsts requested,
      ∃ q ∈ saved, q.questionId = i ∧ q.isEligible category = true) ↔
        ∀ i ∈ requested, ∃ q ∈ saved, q.questionId = i ∧ q.isEligible category = true := by
    simp only [mem_firsts]
  by_cases hnew : ((inlineQuestions.filter fun q => q.questionId ∉ table.map (·.questionId)).map
      (·.questionId)).Nodup
  case neg =>
    have hresult : result = (table, .error .integrity) := by
      simp only [result, resolveQuestions, upsertQuestions_eq inlineQuestions hnodup, if_neg hnew]
    rw [hresult]
    exact ⟨iff_of_false (by simp) fun h => hnew h.1, by simp, by simp⟩
  have hsave : upsertQuestions table inlineQuestions = some saved := by
    rw [upsertQuestions_eq inlineQuestions hnodup, if_pos hnew]
  have hresult : result = _ := resolveQuestions_of_upsert hsave
  by_cases hmissing : ∀ i ∈ firsts requested,
      ∃ q ∈ saved, q.questionId = i ∧ q.isEligible category = true
  case neg =>
    rw [if_pos (mt missing_eq_nil_iff.mp hmissing)] at hresult
    rw [hresult]
    exact ⟨iff_of_false (by simp) fun h => hmissing (hfound.mpr h.2.1), by simp, by simp⟩
  rw [if_neg (not_not_intro (missing_eq_nil_iff.mpr hmissing))] at hresult
  have hread := listVerifiedQuestions_eq_nil_iff le hmissing
  by_cases heligible : ∃ q ∈ saved, q.isEligible category = true
  case neg =>
    rw [if_pos (hread.mpr heligible)] at hresult
    rw [hresult]
    exact ⟨iff_of_false (by simp) fun h => heligible h.2.2, by simp, by simp⟩
  rw [if_neg fun h => hread.mp h heligible] at hresult
  rw [hresult]
  refine ⟨iff_of_true ⟨_, rfl⟩ ⟨hnew, hfound.mp hmissing, heligible⟩, ?_, by simp⟩
  rintro questions ⟨⟩
  refine ⟨rfl, nodup_listVerifiedQuestions _ (Keyed.nodup_putAll hnodup),
    pairwise_listVerifiedQuestions _ hle htrans, fun q => ?_⟩
  rw [mem_listVerifiedQuestions, firsts_eq_nil_iff, mem_firsts]

end Resolve

/-- A question with an identifier and without expectations. -/
def bareQuestion (questionId : Text) (verified : Bool) : EvaluationQuestion where
  questionId := questionId
  question := str "Who funds the project?"
  queryType := str "rag"
  expectedDocumentIds := []
  expectedChunkIds := []
  expectedAnswerPoints := []
  expectedFilters := []
  shouldRefuse := true
  difficulty := none
  category := none
  createdBy := none
  verified := verified

/-- An inline question verifies the stored one of its identifier, and both requested ones run. -/
theorem resolveQuestions_inline :
    ∃ questions, (resolveQuestions (fun a b => decide (a ≤ b))
      [bareQuestion (str "q-2") true, bareQuestion (str "q-1") false] [str "q-2"]
      [bareQuestion (str "q-1") true] none).2 = .ok questions :=
  (resolveQuestions_spec (fun a b => by simpa using le_total a b)
    (fun a b c => by simpa using le_trans) (by decide)).1.mpr (by decide)

end Odirag.Questions
