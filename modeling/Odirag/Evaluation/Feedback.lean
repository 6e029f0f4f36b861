import Odirag.Documents.Document
import Odirag.Evaluation.Questions
import Odirag.Foundations.Parties

/-!
# Feedback as evaluation questions

Reference: `backend/app/services/feedback.py`, `backend/app/repositories/feedback.py`, and the
tables of `backend/app/models/observability.py`.

`convert_to_evaluation` turns a complaint into the question `feedback-<id>`. It reads the row, its
document and the question in several statements of one transaction, so other requests may convert
the same row, delete the document or store questions in between. `conversions_sound` says what holds
of the tables whatever they do.
-/

namespace Odirag.Feedback

open Documents (isSpace)
open Questions (EvaluationQuestion Table)

/-- `FeedbackType`. -/
inductive FeedbackType
  | helpful
  | notHelpful
  | incorrectCitation
  | missingDocument
  | incompleteAnswer
  | shouldRefuse
  | shouldNotRefuse
deriving DecidableEq, Repr

namespace FeedbackType

def value : FeedbackType → Text
  | helpful => str "helpful"
  | notHelpful => str "not_helpful"
  | incorrectCitation => str "incorrect_citation"
  | missingDocument => str "missing_document"
  | incompleteAnswer => str "incomplete_answer"
  | shouldRefuse => str "should_refuse"
  | shouldNotRefuse => str "should_not_refuse"

/-- The type is in `_CONVERTIBLE_TYPES`. -/
def isConvertible : FeedbackType → Bool
  | helpful => false
  | _ => true

end FeedbackType

/-- The columns of a `query_traces` row that a conversion reads. -/
structure QueryTrace where
  traceId : Text
  userQuery : Text
  queryType : Text
  parsedFilters : Json.Fields
  citations : List Json

/-- A row of `user_feedback`. -/
structure UserFeedback where
  id : ℕ
  traceId : Text
  rating : Option ℤ
  feedbackType : FeedbackType
  comment : Option Text
  expectedDocumentId : Option ℕ
  resolved : Bool
  convertedToEvaluation : Bool
deriving DecidableEq

/-- `FeedbackCreate`. -/
structure FeedbackCreate where
  traceId : Text
  rating : Option ℤ
  feedbackType : FeedbackType
  comment : Option Text
  expectedDocumentId : Option ℕ

/-- The tables; a document is its primary key and its `document_id`. -/
structure Database where
  questions : Table
  feedback : List UserFeedback
  traces : List QueryTrace
  documents : List (ℕ × Text)
  /-- The next primary key of `user_feedback`. -/
  nextId : ℕ

namespace Database

variable (db : Database)

def getTrace (traceId : Text) : Option QueryTrace :=
  Keyed.find? (·.traceId) traceId db.traces

def getDocument (id : ℕ) : Option Text := (Keyed.find? Prod.fst id db.documents).map Prod.snd

def getFeedback (id : ℕ) : Option UserFeedback := Keyed.find? (·.id) id db.feedback

end Database

/-! ## The question of a feedback -/

/-- `f"feedback-{feedback.id}"`. -/
def questionId (id : ℕ) : Text := str "feedback-" ++ Nat.toDigits 10 id

section Question

-- The text of a JSON value that is not a text.
variable (render : Json → Text)

/-- `_citation_values`. -/
def citationValues (trace : QueryTrace) (key : Text) : List Text :=
  firsts (((trace.citations.map fun citation => Json.get citation.mapping key).filter
    fun value => !value.isNull && value.toText render ≠ []).map (·.toText render))

/-- `_expected_document_ids`. -/
def expectedDocumentIds (feedback : UserFeedback) (trace : QueryTrace)
    (expectedDocument : Option Text) : List Text :=
  if feedback.feedbackType = .shouldRefuse then []
  else
    match expectedDocument with
    | some documentId => [documentId]
    | none =>
        if feedback.feedbackType = .incorrectCitation then []
        else citationValues render trace (str "document_id")

/-- `_expected_chunk_ids`. -/
def expectedChunkIds (feedback : UserFeedback) (trace : QueryTrace) : List Text :=
  match feedback.feedbackType with
  | .incorrectCitation | .missingDocument | .shouldRefuse | .shouldNotRefuse => []
  | _ => citationValues render trace (str "chunk_id")

/-- `_evaluation_question`. -/
def evaluationQuestion (feedback : UserFeedback) (trace : QueryTrace)
    (expectedDocument : Option Text) : EvaluationQuestion where
  questionId := questionId feedback.id
  question := trace.userQuery
  queryType := trace.queryType
  expectedDocumentIds := expectedDocumentIds render feedback trace expectedDocument
  expectedChunkIds := expectedChunkIds render feedback trace
  expectedAnswerPoints :=
    let comment := (feedback.comment.getD []).stripBy isSpace
    if comment ≠ [] ∧
        (feedback.feedbackType = .notHelpful ∨ feedback.feedbackType = .incompleteAnswer) then
      [comment]
    else []
  expectedFilters := trace.parsedFilters
  shouldRefuse := decide (feedback.feedbackType = .shouldRefuse)
  difficulty := some (str "feedback")
  category := some (str "feedback/" ++ feedback.feedbackType.value)
  createdBy := some (str "feedback:" ++ Nat.toDigits 10 feedback.id)
  verified := true

end Question

/-! ## Requests -/

/-- What a request answers. -/
inductive Answer
  | created (id : ℕ)
  | converted (id : ℕ)
  | stored
  | notFound
  /-- `ConflictError`. -/
  | conflict
  /-- A constraint of the database has failed. -/
  | integrity
deriving DecidableEq, Repr

/-- Where a request is. -/
inductive Call
  | waiting
  /-- `create` has found the trace and the document. -/
  | creating (payload : FeedbackCreate)
  /-- `convert_to_evaluation` has read the row and its trace. -/
  | reading (feedback : UserFeedback) (trace : QueryTrace)
  /-- It has read the expected document. -/
  | loaded (feedback : UserFeedback) (trace : QueryTrace) (expectedDocument : Option Text)
  /-- It has asked for the question. -/
  | asked (feedback : UserFeedback) (trace : QueryTrace) (expectedDocument : Option Text)
      (existing : Bool)
  /-- `upsert_questions` has assigned the fields in its session. -/
  | upserting (session : Questions.Session)
  | answered (answer : Answer)

/-- What a request may be when it begins. -/
inductive Request
  | create (payload : FeedbackCreate)
  | convert (id : ℕ)
  | upsert (questions : Table)
  /-- A chat has stored its trace. -/
  | trace (trace : QueryTrace)
  | document (id : ℕ) (documentId : Text)
  | deleteDocument (id : ℕ)

/-- `create` before it writes. -/
def beginCreate (db : Database) (payload : FeedbackCreate) : Call :=
  if db.getTrace payload.traceId = none then .answered .notFound
  else if payload.expectedDocumentId.any (db.getDocument · = none) then .answered .notFound
  else .creating payload

/-- The insert and the commit of `create`; the foreign keys are checked. -/
def commitCreate (db : Database) (payload : FeedbackCreate) : Database × Call :=
  if db.getTrace payload.traceId = none ∨
      payload.expectedDocumentId.any (db.getDocument · = none) then
    ({ db with nextId := db.nextId + 1 }, .answered .integrity)
  else
    ({ db with
        feedback := db.feedback ++ [⟨db.nextId, payload.traceId, payload.rating,
          payload.feedbackType, payload.comment, payload.expectedDocumentId, false, false⟩]
        nextId := db.nextId + 1 }, .answered (.created db.nextId))

/-- `convert_to_evaluation` up to the check of the type; the trace is a foreign key of the row. -/
def beginConvert (db : Database) (id : ℕ) : Call :=
  match db.getFeedback id with
  | none => .answered .notFound
  | some feedback =>
      match db.getTrace feedback.traceId with
      | none => .answered .integrity
      | some trace =>
          if feedback.feedbackType.isConvertible = false then .answered .conflict
          else .reading feedback trace

/-- Set the flags of a row that the session has changed. -/
def UserFeedback.resolve (loaded stored : UserFeedback) : UserFeedback :=
  { stored with
    resolved := column loaded.resolved true stored.resolved
    convertedToEvaluation :=
      column loaded.convertedToEvaluation true stored.convertedToEvaluation }

/-- The flush of the question, the flags and the commit. -/
def commitConvert (render : Json → Text) (db : Database) (feedback : UserFeedback)
    (trace : QueryTrace) (expectedDocument : Option Text) (existing : Bool) : Database × Call :=
  if existing = false ∧ questionId feedback.id ∈ db.questions.map (·.questionId) then
    (db, .answered .integrity)
  else
    ({ db with
        questions := if existing then db.questions
          else db.questions ++ [evaluationQuestion render feedback trace expectedDocument]
        feedback := db.feedback.map fun row =>
          if row.id = feedback.id then feedback.resolve row else row },
      .answered (.converted feedback.id))

/-- A request begins. -/
def begin (db : Database) : Request → Database × Call
  | .create payload => (db, beginCreate db payload)
  | .convert id => (db, beginConvert db id)
  | .upsert questions =>
      (db, .upserting (questions.foldl Questions.Session.upsert
        (Questions.select db.questions questions)))
  | .trace trace =>
      if (db.getTrace trace.traceId).isSome then (db, .answered .integrity)
      else ({ db with traces := db.traces ++ [trace] }, .answered .stored)
  | .document id documentId =>
      if (db.getDocument id).isSome then (db, .answered .integrity)
      else ({ db with documents := db.documents ++ [(id, documentId)] }, .answered .stored)
  | .deleteDocument id =>
      ({ db with
          documents := Keyed.remove Prod.fst db.documents id
          feedback := db.feedback.map fun row =>
            if row.expectedDocumentId = some id then { row with expectedDocumentId := none }
            else row }, .answered .stored)

/-- The requests, each with a session of its own; the choice of a step matters when a request
begins. -/
def requests (ι : Type*) (render : Json → Text) : Parties ι Database Call Request where
  next _ request db
    | .waiting => some (begin db request)
    | .creating payload => some (commitCreate db payload)
    | .reading feedback trace =>
        some (db, .loaded feedback trace (feedback.expectedDocumentId.bind db.getDocument))
    | .loaded feedback trace expectedDocument =>
        some (db, .asked feedback trace expectedDocument
          (decide (questionId feedback.id ∈ db.questions.map (·.questionId))))
    | .asked feedback trace expectedDocument existing =>
        some (commitConvert render db feedback trace expectedDocument existing)
    | .upserting session =>
        match session.commit db.questions with
        | some questions => some ({ db with questions := questions }, .answered .stored)
        | none => some (db, .answered .integrity)
    | .answered _ => none

/-! ## The invariant -/

theorem questionId_injective {m n : ℕ} (h : questionId m = questionId n) : m = n := by
  have hdigits : Nat.toDigits 10 m = Nat.toDigits 10 n := List.append_cancel_left h
  calc m = Nat.ofDigitChars 10 (Nat.toDigits 10 m) 0 :=
        (Nat.ofDigitChars_toDigits (by decide) (by decide)).symm
    _ = n := by rw [hdigits, Nat.ofDigitChars_toDigits (by decide) (by decide)]

/-- What holds of the tables. -/
structure Sound (db : Database) : Prop where
  questionIds : (db.questions.map (·.questionId)).Nodup
  feedbackIds : (db.feedback.map (·.id)).Nodup
  fresh : ∀ f ∈ db.feedback, f.id < db.nextId
  traced : ∀ f ∈ db.feedback, (db.getTrace f.traceId).isSome
  documented : ∀ f ∈ db.feedback, ∀ d ∈ f.expectedDocumentId, (db.getDocument d).isSome
  flags : ∀ f ∈ db.feedback, f.resolved = f.convertedToEvaluation
  converted : ∀ f ∈ db.feedback, f.convertedToEvaluation = true →
    f.feedbackType.isConvertible = true ∧ questionId f.id ∈ db.questions.map (·.questionId)

/-- What a step keeps: no question goes, no row goes or changes its type, none is converted back. -/
structure Grows (db db' : Database) : Prop where
  questions : ∀ i ∈ db.questions.map (·.questionId), i ∈ db'.questions.map (·.questionId)
  feedback : ∀ f ∈ db.feedback, ∃ f' ∈ db'.feedback, f'.id = f.id ∧
    f'.feedbackType = f.feedbackType ∧
      (f.convertedToEvaluation = true → f'.convertedToEvaluation = true)

theorem Grows.refl (db : Database) : Grows db db :=
  ⟨fun _ hi => hi, fun f hf => ⟨f, hf, rfl, rfl, id⟩⟩

/-- What a conversion has read is still there, as far as it matters. -/
structure Read (db : Database) (feedback : UserFeedback) : Prop where
  convertible : feedback.feedbackType.isConvertible = true
  flags : feedback.resolved = feedback.convertedToEvaluation
  stored : ∃ row ∈ db.feedback, row.id = feedback.id ∧ row.feedbackType = feedback.feedbackType ∧
    (feedback.convertedToEvaluation = true → row.convertedToEvaluation = true)

/-- What a request knows of the tables. -/
def Call.Holds (db : Database) : Call → Prop
  | .reading feedback _ => Read db feedback
  | .loaded feedback _ _ => Read db feedback
  | .asked feedback _ _ existing =>
      Read db feedback ∧
        (existing = true → questionId feedback.id ∈ db.questions.map (·.questionId))
  | .answered (.converted id) =>
      ∃ row ∈ db.feedback, row.id = id ∧ row.convertedToEvaluation = true
  | _ => True

variable {db db' : Database}

theorem Read.grows {feedback : UserFeedback} (h : Read db feedback) (hgrows : Grows db db') :
    Read db' feedback := by
  obtain ⟨row, hrow, hid, htype, hconverted⟩ := h.stored
  obtain ⟨row', hrow', hid', htype', hconverted'⟩ := hgrows.feedback row hrow
  exact ⟨h.convertible, h.flags, row', hrow', hid'.trans hid, htype'.trans htype,
    fun hloaded => hconverted' (hconverted hloaded)⟩

/-- The steps of the others do not disturb a request. -/
theorem Call.Holds.grows {call : Call} (h : call.Holds db) (hgrows : Grows db db') :
    call.Holds db' := by
  cases call with
  | reading feedback trace => exact Read.grows h hgrows
  | loaded feedback trace expectedDocument => exact Read.grows h hgrows
  | asked feedback trace expectedDocument existing =>
      exact ⟨h.1.grows hgrows, fun hexisting => hgrows.questions _ (h.2 hexisting)⟩
  | answered answer =>
      cases answer with
      | converted id =>
          obtain ⟨row, hrow, hid, hconverted⟩ := h
          obtain ⟨row', hrow', hid', -, hconverted'⟩ := hgrows.feedback row hrow
          exact ⟨row', hrow', hid'.trans hid, hconverted' hconverted⟩
      | _ => trivial
  | _ => trivial

/-- What a step establishes. -/
def Keeps (db : Database) (r : Database × Call) : Prop :=
  Sound r.1 ∧ Grows db r.1 ∧ r.2.Holds r.1

theorem keeps_same {call : Call} (h : Sound db) (hcall : call.Holds db) : Keeps db (db, call) :=
  ⟨h, .refl db, hcall⟩

theorem keeps_beginCreate (h : Sound db) (payload : FeedbackCreate) :
    Keeps db (db, beginCreate db payload) := by
  refine keeps_same h ?_
  unfold beginCreate
  split
  · trivial
  · split <;> trivial

theorem keeps_commitCreate (h : Sound db) (payload : FeedbackCreate) :
    Keeps db (commitCreate db payload) := by
  unfold commitCreate
  split
  · refine ⟨?_, ⟨fun _ hi => hi, fun f hf => ⟨f, hf, rfl, rfl, id⟩⟩, trivial⟩
    exact { h with fresh := fun f hf => Nat.lt_succ_of_lt (h.fresh f hf) }
  · next hkeys =>
    rw [not_or] at hkeys
    refine ⟨?_, ⟨fun _ hi => hi, fun f hf => ⟨f, List.mem_append_left _ hf, rfl, rfl, id⟩⟩,
      trivial⟩
    have hnew : ∀ {P : UserFeedback → Prop} {row : UserFeedback}, (∀ f ∈ db.feedback, P f) →
        P row → ∀ f ∈ db.feedback ++ [row], P f := fun hold hrow f hf =>
      (List.mem_append.mp hf).elim (hold f) fun hf => List.mem_singleton.mp hf ▸ hrow
    refine ⟨h.questionIds, ?_, hnew (fun f hf => Nat.lt_succ_of_lt (h.fresh f hf)) (Nat.lt_succ_self _),
      hnew h.traced ?_, hnew h.documented ?_, hnew h.flags rfl, hnew h.converted (by simp)⟩
    · simp only [List.map_append, List.map_singleton]
      refine List.nodup_append.mpr ⟨h.feedbackIds, List.nodup_singleton _, ?_⟩
      rintro a ha b hb rfl
      obtain ⟨f, hf, hid⟩ := List.mem_map.mp ha
      have hlt := h.fresh f hf
      rw [hid, List.mem_singleton.mp hb] at hlt
      exact lt_irrefl _ hlt
    · exact Option.isSome_iff_ne_none.mpr hkeys.1
    · intro d hd
      refine Option.isSome_iff_ne_none.mpr fun hnone => hkeys.2 ?_
      have hd' : payload.expectedDocumentId = some d := hd
      have hnone' : db.getDocument d = none := hnone
      simp [hd', hnone']

theorem keeps_beginConvert (h : Sound db) (id : ℕ) : Keeps db (db, beginConvert db id) := by
  refine keeps_same h ?_
  unfold beginConvert
  split
  · trivial
  · next feedback hfind =>
      obtain ⟨hmem, -⟩ := Keyed.find?_some hfind
      split
      · trivial
      · split
        · trivial
        · next hconvertible =>
            exact ⟨by simpa using hconvertible, h.flags feedback hmem, feedback, hmem, rfl, rfl,
              fun hc => hc⟩

/-- A chat adds a trace. -/
theorem keeps_trace (h : Sound db) (trace : QueryTrace) : Keeps db (begin db (.trace trace)) := by
  simp only [begin]
  split
  · exact keeps_same h trivial
  · refine ⟨{ h with traced := fun f hf => ?_ }, ⟨fun _ hi => hi,
      fun f hf => ⟨f, hf, rfl, rfl, id⟩⟩, trivial⟩
    have hfound := h.traced f hf
    simp only [Database.getTrace, Keyed.find?] at hfound ⊢
    rw [List.find?_append, Option.isSome_or, hfound, Bool.true_or]

theorem keeps_document (h : Sound db) (id : ℕ) (documentId : Text) :
    Keeps db (begin db (.document id documentId)) := by
  simp only [begin]
  split
  · exact keeps_same h trivial
  · refine ⟨{ h with documented := fun f hf d hd => ?_ }, ⟨fun _ hi => hi,
      fun f hf => ⟨f, hf, rfl, rfl, fun hc => hc⟩⟩, trivial⟩
    have hfound := h.documented f hf d hd
    simp only [Database.getDocument, Option.isSome_map, Keyed.find?] at hfound ⊢
    rw [List.find?_append, Option.isSome_or, hfound, Bool.true_or]

/-- A document is deleted: the rows that expect it forget it. -/
theorem keeps_deleteDocument (h : Sound db) (id : ℕ) :
    Keeps db (begin db (.deleteDocument id)) := by
  have hrows : ∀ {P : UserFeedback → Prop}, (∀ f ∈ db.feedback, P f) →
      (∀ f, P f → P { f with expectedDocumentId := none }) →
      ∀ f ∈ db.feedback.map fun row =>
        if row.expectedDocumentId = some id then { row with expectedDocumentId := none } else row,
        P f := by
    intro P hold hforget f hf
    obtain ⟨row, hrow, rfl⟩ := List.mem_map.mp hf
    split
    · exact hforget row (hold row hrow)
    · exact hold row hrow
  refine ⟨⟨h.questionIds, ?_, hrows h.fresh fun _ hf => hf, hrows h.traced fun _ hf => hf, ?_,
    hrows h.flags fun _ hf => hf, hrows h.converted fun _ hf => hf⟩,
    ⟨fun _ hi => hi, fun f hf => ⟨_, List.mem_map_of_mem hf, ?_⟩⟩, trivial⟩
  · change ((db.feedback.map _).map _).Nodup
    rw [List.map_map]
    convert h.feedbackIds using 1
    refine List.map_congr_left fun row _ => ?_
    simp only [Function.comp_apply]
    split <;> rfl
  · intro f hf d hd
    obtain ⟨row, hrow, rfl⟩ := List.mem_map.mp hf
    split at hd
    · cases hd
    · next hother =>
        have hne : d ≠ id := fun heq => hother (heq ▸ hd)
        change (Option.map Prod.snd (Keyed.find? Prod.fst d
          (Keyed.remove Prod.fst db.documents id))).isSome
        rw [Keyed.find?_remove, if_neg hne]
        exact h.documented row hrow d hd
  · split <;> exact ⟨rfl, rfl, fun hc => hc⟩

/-- A session stores questions. -/
theorem keeps_questions (h : Sound db) {session : Questions.Session} {questions : Table}
    (hcommit : session.commit db.questions = some questions) :
    Keeps db ({ db with questions := questions }, .answered .stored) := by
  obtain ⟨-, hnodup, hids⟩ := Questions.Session.commit_spec hcommit
  have hold : ∀ i ∈ db.questions.map (·.questionId), i ∈ questions.map (·.questionId) :=
    fun i hi => by
      rw [hids]
      exact List.mem_append_left _ hi
  exact ⟨{ h with
    questionIds := hnodup
    converted := fun f hf hc => ⟨(h.converted f hf hc).1, hold _ (h.converted f hf hc).2⟩ },
    ⟨hold, fun f hf => ⟨f, hf, rfl, rfl, fun hc => hc⟩⟩, trivial⟩

/-- The flags of the row and its question are stored together. -/
theorem keeps_commitConvert (render : Json → Text) (h : Sound db) {feedback : UserFeedback}
    (trace : QueryTrace) (expectedDocument : Option Text) {existing : Bool}
    (hread : Read db feedback)
    (hexisting : existing = true → questionId feedback.id ∈ db.questions.map (·.questionId)) :
    Keeps db (commitConvert render db feedback trace expectedDocument existing) := by
  unfold commitConvert
  split
  · exact keeps_same h trivial
  next hunique =>
  obtain ⟨row, hrow, hid, htype, hconverted⟩ := hread.stored
  -- The row is resolved and converted, whether or not the session has to write the columns.
  have hresolve : (feedback.resolve row).resolved = true ∧
      (feedback.resolve row).convertedToEvaluation = true := by
    have hflags := h.flags row hrow
    simp only [UserFeedback.resolve, column, hread.flags]
    cases hloaded : feedback.convertedToEvaluation with
    | false => simp
    | true => simp [hflags, hconverted hloaded]
  have hown : ∀ r ∈ db.feedback, r.id = feedback.id → r = row := fun r hr heq =>
    List.inj_on_of_nodup_map h.feedbackIds hr hrow (heq.trans hid.symm)
  have hquestions : ∀ i ∈ db.questions.map (·.questionId), i ∈ (if existing then db.questions
      else db.questions ++ [evaluationQuestion render feedback trace expectedDocument]).map
        (·.questionId) := by
    intro i hi
    split
    · exact hi
    · rw [List.map_append]
      exact List.mem_append_left _ hi
  have hnew : questionId feedback.id ∈ (if existing then db.questions
      else db.questions ++ [evaluationQuestion render feedback trace expectedDocument]).map
        (·.questionId) := by
    split
    · next hex => exact hexisting hex
    · rw [List.map_append]
      exact List.mem_append_right _ List.mem_cons_self
  have hrows : ∀ {P : UserFeedback → Prop}, (∀ f ∈ db.feedback, f.id ≠ feedback.id → P f) →
      P (feedback.resolve row) →
      ∀ f ∈ db.feedback.map fun r => if r.id = feedback.id then feedback.resolve r else r, P f := by
    intro P hothers hresolved f hf
    obtain ⟨r, hr, rfl⟩ := List.mem_map.mp hf
    split
    · next heq => rwa [hown r hr heq]
    · next hne => exact hothers r hr hne
  refine ⟨⟨?_, ?_, hrows (fun f hf _ => h.fresh f hf) (h.fresh row hrow),
    hrows (fun f hf _ => h.traced f hf) (h.traced row hrow),
    hrows (fun f hf _ => h.documented f hf) (h.documented row hrow),
    hrows (fun f hf _ => h.flags f hf) (hresolve.1.trans hresolve.2.symm),
    hrows (fun f hf _ hc => ⟨(h.converted f hf hc).1, hquestions _ (h.converted f hf hc).2⟩)
      fun _ => ⟨?_, ?_⟩⟩, ⟨hquestions, fun f hf => ⟨_, List.mem_map_of_mem hf, ?_⟩⟩, ?_⟩
  · by_cases hex : existing = true
    · simp only [hex, if_true]
      exact h.questionIds
    · simp only [hex, Bool.false_eq_true, if_false, List.map_append, List.map_singleton]
      refine List.nodup_append.mpr ⟨h.questionIds, List.nodup_singleton _, ?_⟩
      rintro a ha b hb rfl
      rw [List.mem_singleton.mp hb] at ha
      exact hunique ⟨by simpa using hex, ha⟩
  · change ((db.feedback.map _).map _).Nodup
    rw [List.map_map]
    convert h.feedbackIds using 1
    refine List.map_congr_left fun r _ => ?_
    simp only [Function.comp_apply]
    split <;> rfl
  · change row.feedbackType.isConvertible = true
    rw [htype]
    exact hread.convertible
  · change questionId row.id ∈ _
    rw [hid]
    exact hnew
  · split
    · next heq =>
        refine ⟨rfl, rfl, fun _ => ?_⟩
        rw [hown f hf heq]
        exact hresolve.2
    · exact ⟨rfl, rfl, fun hc => hc⟩
  · refine ⟨feedback.resolve row, List.mem_map.mpr ⟨row, hrow, ?_⟩, hid, hresolve.2⟩
    rw [if_pos hid]

/-- Every step keeps the invariant and does not disturb the others. -/
theorem keeps_next {ι : Type*} {render : Json → Text} {i : ι} {request : Request} {call call' : Call}
    (h : Sound db) (hcall : call.Holds db)
    (hnext : (requests ι render).next i request db call = some (db', call')) :
    Keeps db (db', call') := by
  cases call with
  | waiting =>
      rw [← show begin db request = (db', call') from Option.some.inj hnext]
      cases request with
      | create payload => exact keeps_beginCreate h payload
      | convert id => exact keeps_beginConvert h id
      | upsert questions => exact keeps_same h trivial
      | trace trace => exact keeps_trace h trace
      | document id documentId => exact keeps_document h id documentId
      | deleteDocument id => exact keeps_deleteDocument h id
  | creating payload =>
      rw [← show commitCreate db payload = (db', call') from Option.some.inj hnext]
      exact keeps_commitCreate h payload
  | reading feedback trace =>
      cases hnext
      exact keeps_same h hcall
  | loaded feedback trace expectedDocument =>
      cases hnext
      exact keeps_same h ⟨hcall, by simp⟩
  | asked feedback trace expectedDocument existing =>
      rw [← show commitConvert render db feedback trace expectedDocument existing = (db', call')
        from Option.some.inj hnext]
      exact keeps_commitConvert render h trace expectedDocument hcall.1 hcall.2
  | upserting session =>
      cases hcommit : session.commit db.questions with
      | none =>
          simp only [requests, hcommit] at hnext
          cases hnext
          exact keeps_same h trivial
      | some questions =>
          simp only [requests, hcommit] at hnext
          cases hnext
          exact keeps_questions h hcommit
  | answered answer => cases hnext

/-! ## Runs -/

section Runs

variable {ι : Type*} {render : Json → Text}

/-- The requests that come to sound tables. -/
abbrev system (ι : Type*) [DecidableEq ι] (render : Json → Text) :
    System (Parties.State ι Database Call) (ι × Request) :=
  (requests ι render).system fun s => Sound s.shared ∧ ∀ i, s.loc i = .waiting

variable [DecidableEq ι] {tr : List (Parties.State ι Database Call × (ι × Request))}
  {s s' : Parties.State ι Database Call} {i : ι} {request : Request}

theorem holds (h : (system ι render).Run System.always tr s) :
    Sound s.shared ∧ ∀ i, (s.loc i).Holds s.shared := by
  refine System.Run.invariant
    (I := fun _ (s : Parties.State ι Database Call) =>
      Sound s.shared ∧ ∀ i, (s.loc i).Holds s.shared) h ?_ ?_
  · rintro s ⟨hsound, hwaiting⟩
    refine ⟨hsound, fun i => ?_⟩
    rw [hwaiting i]
    trivial
  · rintro _ s ⟨i, request⟩ s' _ ⟨hsound, hholds⟩ _ hstep
    have hkeeps := keeps_next hsound (hholds i) (Parties.next_of_step hstep)
    refine ⟨hkeeps.1, fun j => ?_⟩
    by_cases hj : j = i
    · subst hj
      exact hkeeps.2.2
    · rw [Parties.loc_of_ne hstep hj]
      exact (hholds j).grows hkeeps.2.1

theorem step_grows (h : (system ι render).Run System.always tr s)
    (hstep : (system ι render).step s (i, request) s') : Grows s.shared s'.shared :=
  (keeps_next (holds h).1 ((holds h).2 i) (Parties.next_of_step hstep)).2.1

omit [DecidableEq ι] in
/-- Only a session of `upsert_questions` changes a question that is stored. -/
theorem questions_prefix {db db' : Database} {call call' : Call}
    (hcall : ∀ session, call ≠ .upserting session)
    (hnext : (requests ι render).next i request db call = some (db', call')) :
    db.questions <+: db'.questions := by
  cases call with
  | waiting =>
      have heq : begin db request = (db', call') := Option.some.inj hnext
      have hsame : (begin db request).1.questions = db.questions := by
        cases request with
        | trace trace =>
            simp only [begin]
            split <;> rfl
        | document id documentId =>
            simp only [begin]
            split <;> rfl
        | _ => rfl
      rw [heq] at hsame
      rw [hsame]
  | creating payload =>
      have heq : commitCreate db payload = (db', call') := Option.some.inj hnext
      have hsame : (commitCreate db payload).1.questions = db.questions := by
        unfold commitCreate
        split <;> rfl
      rw [heq] at hsame
      rw [hsame]
  | reading feedback trace =>
      cases hnext
      exact List.prefix_rfl
  | loaded feedback trace expectedDocument =>
      cases hnext
      exact List.prefix_rfl
  | asked feedback trace expectedDocument existing =>
      have heq : commitConvert render db feedback trace expectedDocument existing = (db', call') :=
        Option.some.inj hnext
      have hprefix : db.questions <+:
          (commitConvert render db feedback trace expectedDocument existing).1.questions := by
        unfold commitConvert
        split
        · exact List.prefix_rfl
        · simp only
          split
          · exact List.prefix_rfl
          · exact List.prefix_append _ _
      rwa [heq] at hprefix
  | upserting session => exact absurd rfl (hcall session)
  | answered answer => cases hnext

/-- A conversion that no other request comes between succeeds. -/
theorem exec_convert (hsound : Sound s.shared) (hwaiting : s.loc i = .waiting) {f : UserFeedback}
    (hf : f ∈ s.shared.feedback) (hconvertible : f.feedbackType.isConvertible = true) :
    ∃ s', (requests ι render).exec s (List.replicate 4 (i, .convert f.id)) = some s' ∧
      s'.loc i = .answered (.converted f.id) := by
  obtain ⟨trace, htrace⟩ := Option.isSome_iff_exists.mp (hsound.traced f hf)
  have hfind : s.shared.getFeedback f.id = some f :=
    (Keyed.find?_eq_some_iff hsound.feedbackIds).mpr ⟨hf, rfl⟩
  have hbegin : beginConvert s.shared f.id = .reading f trace := by
    simp [beginConvert, hfind, htrace, hconvertible]
  let expectedDocument := f.expectedDocumentId.bind s.shared.getDocument
  let committed := commitConvert render s.shared f trace expectedDocument
    (decide (questionId f.id ∈ s.shared.questions.map (·.questionId)))
  -- What the request has seen of the question is still so when it commits.
  have hcommit : committed.2 = .answered (.converted f.id) := by
    simp only [committed, commitConvert]
    rw [if_neg]
    rintro ⟨hexisting, hmem⟩
    exact of_decide_eq_false hexisting hmem
  refine ⟨⟨committed.1, Function.update s.loc i committed.2⟩, ?_, by simp [hcommit]⟩
  simp only [List.replicate, Parties.exec, System.exec, Parties.move, requests, hwaiting, begin,
    hbegin, Option.map_some, Option.bind_some, Function.update_self, Function.update_idem]
  rfl

/-- Whatever requests come, and in whatever order their statements run: identifiers are not stored
twice; a row is resolved exactly if it is converted, and then it is a complaint whose question is
stored; a request that has answered so has converted its row. Each question is stored once, and only
`upsert_questions` changes it later. A conversion that no other request comes between succeeds. -/
theorem conversions_sound {render : Json → Text} {s : Parties.State ι Database Call}
    {tr : List (Parties.State ι Database Call × (ι × Request))}
    (h : (system ι render).Run System.always tr s) :
    Sound s.shared ∧
      (∀ i id, s.loc i = .answered (.converted id) →
        ∃ f ∈ s.shared.feedback, f.id = id ∧ f.resolved = true ∧ f.convertedToEvaluation = true) ∧
      (∀ q, System.changes (fun s : Parties.State ι Database Call =>
        decide (q ∈ s.shared.questions.map (·.questionId))) tr s ≤ 1) ∧
      (∀ i request s', (system ι render).step s (i, request) s' →
        (∀ session, s.loc i ≠ .upserting session) →
          s.shared.questions <+: s'.shared.questions) ∧
      ∀ i, s.loc i = .waiting → ∀ f ∈ s.shared.feedback, f.feedbackType.isConvertible = true →
        ∃ s', (requests ι render).exec s (List.replicate 4 (i, .convert f.id)) = some s' ∧
          s'.loc i = .answered (.converted f.id) := by
  obtain ⟨hsound, hholds⟩ := holds h
  refine ⟨hsound, fun i id hi => ?_, fun q => ?_, fun i request s' hstep hcall => ?_,
    fun i hi f hf hconvertible => exec_convert hsound hi hf hconvertible⟩
  · have hconverted := hholds i
    rw [hi] at hconverted
    obtain ⟨f, hf, hid, hc⟩ := hconverted
    exact ⟨f, hf, hid, (hsound.flags f hf).trans hc, hc⟩
  · refine h.changes_le_one ?_
    rintro tr s ⟨i, request⟩ s' hrun hstep hmem
    simp only [decide_eq_true_eq] at hmem ⊢
    exact (step_grows hrun hstep).questions q hmem
  · exact questions_prefix hcall (Parties.next_of_step hstep)

end Runs

/-- A refused question whose user expected an answer. -/
def oneComplaint : Parties.State (Fin 2) Database Call where
  shared :=
    { questions := []
      feedback := [⟨1, str "trace-1", some 1, .notHelpful, some (str " the deadline is missing "),
        some 7, false, false⟩]
      traces := [⟨str "trace-1", str "When does it end?", str "rag", [], []⟩]
      documents := [(7, str "doc-7")]
      nextId := 2 }
  loc _ := .waiting

theorem sound_oneComplaint : Sound oneComplaint.shared := by
  constructor <;> decide

/-- Two administrators convert it, and both ask for the question before one of them stores it. -/
def twoConversions : List (Fin 2 × Request) :=
  [0, 0, 0, 1, 1, 1, 0, 1].map fun i => (i, .convert 1)

theorem conversions_sound_twoConversions :
    ∃ s, (requests (Fin 2) fun _ => []).exec oneComplaint twoConversions = some s ∧
      Sound s.shared := by
  have hexec : ((requests (Fin 2) fun _ => []).exec oneComplaint twoConversions).isSome := by
    decide
  obtain ⟨s, hs⟩ := Option.isSome_iff_exists.mp hexec
  exact ⟨s, hs, (conversions_sound
    ⟨_, ⟨sound_oneComplaint, fun _ => rfl⟩, System.exec_path hs⟩).1⟩

end Odirag.Feedback
