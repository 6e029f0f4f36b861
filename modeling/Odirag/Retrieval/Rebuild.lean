import Odirag.Foundations.Parties
import Odirag.Retrieval.Eligibility
import Mathlib.Data.Fintype.Pi

/-!
# Rebuilding the BM25 index

Reference: `backend/app/services/document_index.py`, `backend/app/services/bm25.py`, the routes of
`backend/app/api/routes/documents.py` with the services they call, and `reparse_html_document` of
`backend/app/services/parsing.py`.

A request that has changed what may be retrieved ends with a rebuild: it reads the whole table and,
when it resumes, assigns the index of the process. Between the two any other request may read the
table and assign its own index.
-/

namespace Odirag.Retrieval

open Documents Indexing

/-- The routes that change a document. -/
inductive Route
  | reindex
  | update (updates : MetadataUpdates)
  | reparse
  | delete

/-- A request, by the statement that it executes next. -/
inductive Request (δ : Type*)
  | start
  /-- In `index_document`. -/
  | indexing (c : Call)
  /-- Before the commit of a new version. -/
  | updating (m : Held Document)
  /-- Before `vector_point_ids_for_document`. -/
  | selectingPoints
  | deletingPoints (ids : Finset PointId)
  /-- Before `set_chunk_vector_status`. -/
  | markingStale
  | committingStale (keys : Finset ℕ)
  /-- Before the commit of the deletion. -/
  | deletingDocument
  /-- Before `list_indexed_chunks`. -/
  | listing
  /-- Before the assignment of the index of these chunks. -/
  | assigning (chunks : δ → Finset PointId)
  /-- Before the snapshot is saved. -/
  | saving
  /-- Before the last `get_detail`. -/
  | answering
  | returned
  | raised

namespace Route

/-- The versioned update of a route; `none` if it raises. -/
def versioned (T : TextTools) (parse : String → Option String) (route : Route)
    (document : Document) : Option (Document × VersioningResult) :=
  match route with
  | update updates => document.applyMetadataUpdate T updates
  | reparse =>
      match document.rawContent with
      | none | some "" => none
      | some raw => (parse raw).bind fun text => document.applyParsedUpdate T text []
  | _ => none

/-- Where a request goes once the points are deleted. -/
def afterPoints {δ : Type*} (route : Route) : Request δ :=
  match route with
  | delete => .deletingDocument
  | _ => .markingStale

/-- Where a request goes once the snapshot is saved. -/
def afterSaving {δ : Type*} (route : Route) : Request δ :=
  match route with
  | update _ | reparse => .answering
  | _ => .returned

end Route

/-- The step inserts rows that refer to the document. -/
def inserts (ix : Indexer) : Call → Bool
  | .replacing job => Indexer.replaceRequired job.existing (job.chunks ix)
  | .addingLineage _ _ | .committing _ (some _) => true
  | _ => false

/-- Where a request goes after a step of `index_document`. -/
def afterCall {δ : Type*} : Call → Request δ
  | .returned _ => .listing
  | .raised => .raised
  | c => .indexing c

variable {δ : Type*} [DecidableEq δ] (ix : Indexer) (T : TextTools)
  (parse : String → Option String)

/-- A step of `index_document`. The foreign keys refuse the rows of a deleted document. -/
def Site.indexStep (d : δ) (o : Outcome) (site : Site δ) (c : Call) :
    Option (Site δ × Request δ) :=
  if site.present d = false ∧ c = .start then some (site, .raised)
  else
    let o := if site.present d = false ∧ inserts ix c = true then .fails else o
    (c.step ix o (site.db d)).map fun r => (site.write d (site.present d) r.1, afterCall r.2)

/-- The first statement of a request. -/
def Site.begin (d : δ) (route : Route) (site : Site δ) : Request δ :=
  match route with
  | .reindex => .indexing .start
  | _ =>
      if site.present d = false then .raised
      else
        match route with
        | .delete => .selectingPoints
        | _ =>
            match route.versioned T parse (site.db d).document with
            | none => .raised
            | some (document, result) =>
                if result.changed then .updating ⟨(site.db d).document, document⟩ else .answering

/-- The next statement of a request on the document `d`. -/
def Request.next (d : δ) (route : Route) (o : Outcome) (site : Site δ) (r : Request δ) :
    Option (Site δ × Request δ) :=
  let db := site.db d
  match r, o with
  | .start, .ok => some (site, site.begin T parse d route)
  | .indexing c, o => site.indexStep ix d o c
  | .updating m, .ok =>
      let document := Document.save m db.document
      -- The row is gone, or its version number is taken.
      if site.present d = false ∨ ¬ (document.versions.map (·.version)).Nodup then
        some (site, .raised)
      else some (site.write d true { db with document }, .selectingPoints)
  | .selectingPoints, .ok =>
      some (site, if vectorPointIds db = ∅ then route.afterPoints
        else .deletingPoints (vectorPointIds db))
  | .deletingPoints ids, .ok => some (site.write d (site.present d) (db.delete ids), route.afterPoints)
  | .deletingPoints ids, .partially treated =>
      some (site.write d (site.present d) (db.delete (ids ∩ treated)), .raised)
  | .markingStale, .ok => some (site, .committingStale db.keys)
  | .committingStale keys, .ok =>
      some (site.write d (site.present d) (db.setVectorStatus .stale keys), .listing)
  | .deletingDocument, .ok =>
      some (site.write d false { db with attachments := [], chunks := [], lineage := ∅ }, .listing)
  | .listing, .ok => some (site, .assigning site.listIndexedChunks)
  | .assigning chunks, .ok => some ({ site with bm25 := chunks }, .saving)
  | .saving, .ok => some (site, route.afterSaving)
  | .answering, .ok => some (site, if site.present d = false then .raised else .returned)
  | .returned, _ | .raised, _ => none
  | _, .fails => some (site, .raised)
  | _, _ => none

variable {ι : Type*} [DecidableEq ι] (target : ι → δ × Route)

/-- Any number of requests, each on its document. -/
def requests : Parties ι (Site δ) (Request δ) Outcome where
  next i := Request.next ix T parse (target i).1 (target i).2

/-- The interleavings of the requests, from a site whose index is current. -/
def requestSystem : System (Parties.State ι (Site δ) (Request δ)) (ι × Outcome) :=
  (requests ix T parse target).system fun s =>
    s.shared.bm25 = s.shared.listIndexedChunks ∧ ∀ i, s.loc i = .start

namespace Request

/-- The request has made a change that it has yet to read back, or it has failed. -/
def Owes : Request δ → Prop
  | start | assigning _ | saving | answering | returned => False
  | _ => True

/-- The request has passed its assignment. -/
def Installed : Request δ → Prop
  | saving | answering | returned => True
  | _ => False

/-- The step is the SELECT of `list_indexed_chunks`. -/
def reads (r : Request δ) (o : Outcome) : Bool :=
  match r, o with
  | listing, .ok => true
  | _, _ => false

end Request

section Order

variable {δ ι : Type*}

/-- The requests that have read the table, the last one first. -/
def readers (tr : List (Parties.State ι (Site δ) (Request δ) × (ι × Outcome))) : List ι :=
  (tr.filter fun e => (e.1.loc e.2.1).reads e.2.2).map (·.2.1)

/-- A request that assigns its index finds that no request which has read the table after it has
assigned already, or the table still lists the same chunks. -/
def AssignsInOrder (tr : List (Parties.State ι (Site δ) (Request δ) × (ι × Outcome)))
    (s : Parties.State ι (Site δ) (Request δ)) (l : ι × Outcome) : Prop :=
  l.2 = .ok → ∀ chunks, s.loc l.1 = .assigning chunks →
    chunks = s.shared.listIndexedChunks ∨
      ∀ later earlier, readers tr = later ++ l.1 :: earlier →
        ∀ j ∈ later, ¬ (s.loc j).Installed

end Order

/-! ## One statement -/

section Step

variable {ix T parse}
variable {d : δ} {route : Route} {o : Outcome} {site site' : Site δ} {r r' : Request δ}

omit [DecidableEq δ] in
theorem owes_afterCall (c : Call) : (afterCall c : Request δ).Owes := by
  cases c <;> trivial

omit [DecidableEq δ] in
theorem owes_afterPoints (route : Route) : (route.afterPoints : Request δ).Owes := by
  cases route <;> trivial

omit [DecidableEq δ] in
theorem installed_afterSaving (route : Route) : (route.afterSaving : Request δ).Installed := by
  cases route <;> trivial

omit [DecidableEq δ] in
/-- A request starts to work, or it has nothing to do. -/
theorem Site.begin_cases (T : TextTools) (parse : String → Option String) (d : δ) (route : Route)
    (site : Site δ) :
    (site.begin T parse d route).Owes ∨ site.begin T parse d route = .answering := by
  unfold Site.begin
  split
  · exact .inl trivial
  · split
    · exact .inl trivial
    · split
      · exact .inl trivial
      · split
        · exact .inl trivial
        · split
          · exact .inl trivial
          · exact .inr rfl

/-- A step of `index_document` leaves the BM25 index alone, and the request has to rebuild it. -/
theorem Site.indexStep_spec {c : Call} (h : site.indexStep ix d o c = some (site', r')) :
    site'.bm25 = site.bm25 ∧ r'.Owes := by
  unfold Site.indexStep at h
  split at h
  · cases h
    exact ⟨rfl, trivial⟩
  · obtain ⟨⟨db, c'⟩, -, heq⟩ := Option.map_eq_some_iff.mp h
    cases heq
    exact ⟨rfl, owes_afterCall c'⟩

/-- What a statement does: it reads the table, it assigns the index, it leaves the request with a
rebuild to do, or it changes nothing. -/
theorem Request.next_cases (h : r.next ix T parse d route o site = some (site', r')) :
    (r.reads o = true ∧ site' = site ∧ r' = .assigning site.listIndexedChunks) ∨
      (∃ chunks, r = .assigning chunks ∧ o = .ok ∧ site' = { site with bm25 := chunks } ∧
        r' = .saving) ∨
      (r.reads o = false ∧ site'.bm25 = site.bm25 ∧ r'.Owes) ∨
      (r.reads o = false ∧ site' = site ∧ r'.Installed ∧ (r = .start ∨ r.Installed)) := by
  -- The branches in the order of `Request.next`.
  unfold Request.next at h
  dsimp only at h
  split at h
  · cases h
    rcases Site.begin_cases T parse d route site with howes | hanswering
    · exact .inr (.inr (.inl ⟨rfl, rfl, howes⟩))
    · rw [hanswering]
      exact .inr (.inr (.inr ⟨rfl, rfl, trivial, .inl rfl⟩))
  · obtain ⟨hbm25, howes⟩ := Site.indexStep_spec h
    exact .inr (.inr (.inl ⟨rfl, hbm25, howes⟩))
  · split at h
    · cases h
      exact .inr (.inr (.inl ⟨rfl, rfl, trivial⟩))
    · cases h
      exact .inr (.inr (.inl ⟨rfl, rfl, trivial⟩))
  · cases h
    refine .inr (.inr (.inl ⟨rfl, rfl, ?_⟩))
    split
    · exact owes_afterPoints route
    · trivial
  · cases h
    exact .inr (.inr (.inl ⟨rfl, rfl, owes_afterPoints route⟩))
  · cases h
    exact .inr (.inr (.inl ⟨rfl, rfl, trivial⟩))
  · cases h
    exact .inr (.inr (.inl ⟨rfl, rfl, trivial⟩))
  · cases h
    exact .inr (.inr (.inl ⟨rfl, rfl, trivial⟩))
  · cases h
    exact .inr (.inr (.inl ⟨rfl, rfl, trivial⟩))
  · cases h
    exact .inl ⟨rfl, rfl, rfl⟩
  · next chunks =>
      cases h
      exact .inr (.inl ⟨chunks, rfl, rfl, rfl, rfl⟩)
  · cases h
    exact .inr (.inr (.inr ⟨rfl, rfl, installed_afterSaving route, .inr trivial⟩))
  · cases h
    split
    · exact .inr (.inr (.inl ⟨rfl, rfl, trivial⟩))
    · exact .inr (.inr (.inr ⟨rfl, rfl, trivial, .inr trivial⟩))
  · cases h
  · cases h
  · cases h
    refine .inr (.inr (.inl ⟨?_, rfl, trivial⟩))
    unfold Request.reads
    split <;> simp_all
  · cases h

end Step

/-! ## The last reader -/

/-- The index is what the table lists; or a request has yet to rebuild it or has failed; or the
request that has read the table last is about to assign what the table still lists. -/
structure Rebuilt (tr : List (Parties.State ι (Site δ) (Request δ) × (ι × Outcome)))
    (s : Parties.State ι (Site δ) (Request δ)) : Prop where
  read : ∀ i chunks, s.loc i = .assigning chunks → i ∈ readers tr
  current : (∃ i, (s.loc i).Owes) ∨
    (readers tr = [] ∧ s.shared.bm25 = s.shared.listIndexedChunks) ∨
    ∃ i earlier, readers tr = i :: earlier ∧
      (s.loc i = .assigning s.shared.listIndexedChunks ∨
        (s.loc i).Installed ∧ s.shared.bm25 = s.shared.listIndexedChunks)

section Last

variable {tr : List (Parties.State ι (Site δ) (Request δ) × (ι × Outcome))}
  {s s' : Parties.State ι (Site δ) (Request δ)} {i : ι} {o : Outcome}

omit [DecidableEq δ] [DecidableEq ι] in
theorem readers_cons_of_reads (h : (s.loc i).reads o = true) :
    readers ((s, (i, o)) :: tr) = i :: readers tr := by
  simp [readers, h]

omit [DecidableEq δ] [DecidableEq ι] in
theorem readers_cons_of_not_reads (h : (s.loc i).reads o = false) :
    readers ((s, (i, o)) :: tr) = readers tr := by
  simp [readers, h]

omit [DecidableEq δ] [DecidableEq ι] in
/-- Every request that is about to assign has read the table. -/
theorem Rebuilt.read_step (h : Rebuilt tr s)
    (hother : ∀ j, j ≠ i → s'.loc j = s.loc j)
    (hown : ∀ chunks, s'.loc i = .assigning chunks → (s.loc i).reads o = true) :
    ∀ j chunks, s'.loc j = .assigning chunks → j ∈ readers ((s, (i, o)) :: tr) := by
  intro j chunks hj
  by_cases hreads : (s.loc i).reads o = true
  · rw [readers_cons_of_reads hreads]
    by_cases hji : j = i
    · exact hji ▸ List.mem_cons_self
    · rw [hother j hji] at hj
      exact List.mem_cons_of_mem _ (h.read j chunks hj)
  · rw [readers_cons_of_not_reads (by simpa using hreads)]
    by_cases hji : j = i
    · subst hji
      exact absurd (hown chunks hj) hreads
    · rw [hother j hji] at hj
      exact h.read j chunks hj

omit [DecidableEq δ] in
/-- An assignment in order leaves the index current, or the last reader still has to assign. -/
theorem Rebuilt.assign {chunks : δ → Finset PointId} (h : Rebuilt tr s)
    (hassigning : s.loc i = .assigning chunks) (horder : AssignsInOrder tr s (i, .ok))
    (hshared : s'.shared = { s.shared with bm25 := chunks }) (hown : s'.loc i = .saving)
    (hother : ∀ j, j ≠ i → s'.loc j = s.loc j) :
    (∃ j, (s'.loc j).Owes) ∨ ∃ j earlier, readers tr = j :: earlier ∧
      (s'.loc j = .assigning s'.shared.listIndexedChunks ∨
        (s'.loc j).Installed ∧ s'.shared.bm25 = s'.shared.listIndexedChunks) := by
  have hlist : s'.shared.listIndexedChunks = s.shared.listIndexedChunks := by
    rw [hshared]
    rfl
  have hbm25 : s'.shared.bm25 = chunks := by rw [hshared]
  have hread := h.read i chunks hassigning
  rw [hlist, hbm25]
  rcases h.current with ⟨k, hk⟩ | ⟨hnone, -⟩ | ⟨k, earlier, hreaders, hk⟩
  · -- Another request still owes its rebuild.
    have hki : k ≠ i := by
      rintro rfl
      rw [hassigning] at hk
      exact hk
    exact .inl ⟨k, by rwa [hother k hki]⟩
  · rw [hnone] at hread
    cases hread
  · refine .inr ⟨k, earlier, hreaders, ?_⟩
    by_cases hki : k = i
    · subst hki
      rcases hk with hcurrent | ⟨hinstalled, -⟩
      · rw [hassigning] at hcurrent
        cases hcurrent
        exact .inr ⟨hown ▸ trivial, rfl⟩
      · rw [hassigning] at hinstalled
        exact hinstalled.elim
    · rw [hother k hki]
      rcases hk with hcurrent | ⟨hinstalled, -⟩
      · exact .inl hcurrent
      · refine .inr ⟨hinstalled, ?_⟩
        rcases horder rfl chunks hassigning with hsame | hfirst
        · exact hsame
        · -- The last reader has read after this request and has assigned already.
          rw [hreaders, List.mem_cons] at hread
          obtain ⟨later, before, hsplit⟩ := List.append_of_mem (hread.resolve_left (Ne.symm hki))
          refine absurd hinstalled (hfirst (k :: later) before ?_ k List.mem_cons_self)
          rw [hreaders, hsplit, List.cons_append]

variable {ix T parse target}

/-- One statement in order keeps the invariant. -/
theorem Rebuilt.step (h : Rebuilt tr s) (horder : AssignsInOrder tr s (i, o))
    (hstep : (requestSystem ix T parse target).step s (i, o) s') :
    Rebuilt ((s, (i, o)) :: tr) s' := by
  have hnext : (s.loc i).next ix T parse (target i).1 (target i).2 o s.shared =
      some (s'.shared, s'.loc i) := Parties.next_of_step hstep
  have hother : ∀ j, j ≠ i → s'.loc j = s.loc j := fun j hj => Parties.loc_of_ne hstep hj
  -- Reading, assigning, owing a rebuild, and a statement that changes nothing.
  rcases Request.next_cases hnext with ⟨hreads, hshared, hown⟩ |
    ⟨chunks, hassigning, rfl, hshared, hown⟩ | ⟨hreads, hbm25, howes⟩ |
      ⟨hreads, hshared, hown, hbefore⟩
  · refine ⟨h.read_step hother fun _ _ => hreads, .inr (.inr ⟨i, readers tr, ?_, .inl ?_⟩)⟩
    · exact readers_cons_of_reads hreads
    · rw [hown, hshared]
  · have hreads : (s.loc i).reads .ok = false := by
      rw [hassigning]
      rfl
    have hnone : ∀ chunks, s'.loc i ≠ .assigning chunks := fun _ hj => by
      rw [hown] at hj
      cases hj
    refine ⟨h.read_step hother fun chunks hj => absurd hj (hnone chunks), ?_⟩
    rw [readers_cons_of_not_reads hreads]
    rcases h.assign hassigning horder hshared hown hother with howes | hlast
    · exact .inl howes
    · exact .inr (.inr hlast)
  · refine ⟨h.read_step hother fun _ hj => ?_, .inl ⟨i, howes⟩⟩
    rw [hj] at howes
    exact howes.elim
  · refine ⟨h.read_step hother fun _ hj => ?_, ?_⟩
    · rw [hj] at hown
      exact hown.elim
    · rw [readers_cons_of_not_reads hreads, hshared]
      -- Who was the last to read is unchanged, and so is what the index holds.
      have hidle : ∀ r : Request δ, (r = .start ∨ r.Installed) → ¬ r.Owes ∧
          ∀ chunks, r ≠ .assigning chunks := by
        intro r hr
        cases r <;> simp_all [Request.Installed, Request.Owes]
      obtain ⟨hnotOwes, hnotAssigning⟩ := hidle _ hbefore
      rcases h.current with ⟨k, hk⟩ | hnone | ⟨k, earlier, hreaders, hk⟩
      · have hki : k ≠ i := fun heq => hnotOwes (heq ▸ hk)
        exact .inl ⟨k, by rwa [hother k hki]⟩
      · exact .inr (.inl hnone)
      · refine .inr (.inr ⟨k, earlier, hreaders, ?_⟩)
        by_cases hki : k = i
        · subst hki
          rcases hk with hcurrent | ⟨-, hcurrent⟩
          · exact absurd hcurrent (hnotAssigning _)
          · exact .inr ⟨hown, hcurrent⟩
        · rwa [hother k hki]

/-- In every interleaving in which the requests assign their index in the order in which they have
read the table, once all requests that have started have completed the BM25 index contains exactly
the chunks that `list_indexed_chunks` returns. -/
theorem bm25_not_rolled_back
    (h : (requestSystem ix T parse target).Run (fun tr s l _ => AssignsInOrder tr s l) tr s)
    (hcompleted : ∀ i, s.loc i = .start ∨ s.loc i = .returned) :
    s.shared.bm25 = s.shared.listIndexedChunks := by
  have hrebuilt : Rebuilt tr s := by
    refine h.invariant (I := Rebuilt) ?_ ?_
    · rintro s ⟨hcurrent, hstart⟩
      refine ⟨fun i chunks hi => ?_, .inr (.inl ⟨rfl, hcurrent⟩)⟩
      rw [hstart i] at hi
      cases hi
    · rintro tr s ⟨i, o⟩ s' _ hI horder hstep
      exact hI.step horder hstep
  rcases hrebuilt.current with ⟨i, howes⟩ | ⟨-, hcurrent⟩ | ⟨i, -, -, hassigning | ⟨-, hcurrent⟩⟩
  · rcases hcompleted i with hi | hi <;> rw [hi] at howes <;> exact howes.elim
  · exact hcurrent
  · rcases hcompleted i with hi | hi <;> rw [hi] at hassigning <;> cases hassigning
  · exact hcurrent

end Last

/-! ## Two requests -/

/-- The request has completed successfully. -/
def Request.isReturned {δ : Type*} : Request δ → Bool
  | .returned => true
  | _ => false

theorem Request.eq_returned {δ : Type*} {r : Request δ} (h : r.isReturned = true) :
    r = .returned := by
  cases r with
  | returned => rfl
  | _ => cases h

/-- An indexed document with its only chunk. -/
def indexedDb : IndexDb :=
  let document := { approvedDocument with indexStatus := .indexed }
  let chunk := fun draft => { wholeText.makeChunk document draft with vectorStatus := .indexed }
  { document
    chunks := (wholeText.drafts document []).map fun draft => ⟨0, chunk draft⟩
    nextKey := 1 }

/-- Two documents, of which `false` is indexed. -/
def twoDocuments : Site Bool :=
  Site.rebuild {
    present := fun _ => true
    db := fun d => if d then { document := { approvedDocument with documentId := "doc-2" } }
      else indexedDb
    bm25 := fun _ => ∅ }

/-- Each of two requests gives its document a new title. -/
def newTitles : Bool → Bool × Route := fun i => (i, .update [("title", some "New title")])

/-- The two requests before they start. -/
def twoRequests : Parties.State Bool (Site Bool) (Request Bool) := ⟨twoDocuments, fun _ => .start⟩

theorem twoRequests_init :
    (requestSystem wholeText digests some newTitles).init twoRequests := ⟨rfl, fun _ => rfl⟩

/-- The statements of a request, for its turns. -/
def turns (i : Bool) (n : ℕ) : List (Bool × Outcome) := List.replicate n (i, .ok)

/-- The request on the indexed document starts while the other one has read the table, and reads it
after the other one has assigned its index. -/
theorem bm25_not_rolled_back_two :
    ∃ tr s, (requestSystem wholeText digests some newTitles).Run
        (fun tr s l _ => AssignsInOrder tr s l) tr s ∧
      (∀ i, s.loc i = .returned) ∧ s.shared.bm25 = s.shared.listIndexedChunks := by
  let sched := turns true 5 ++ turns false 2 ++ turns true 3 ++ turns false 8 ++ turns true 1
  let next := fun s (l : Bool × Outcome) =>
    (requests wholeText digests some newTitles).move s l.1 l.2
  obtain ⟨s, hs⟩ := Option.isSome_iff_exists.mp
    (by decide : (System.exec next twoRequests sched).isSome = true)
  have hcheck : (System.exec next twoRequests sched).map (fun s =>
      (s.loc false).isReturned && (s.loc true).isReturned) = some true := by
    decide
  rw [hs] at hcheck
  obtain ⟨hfalse, htrue⟩ := Bool.and_eq_true_iff.mp (Option.some.inj hcheck)
  have hreturned : ∀ i, s.loc i = .returned := fun i => by
    cases i
    · exact Request.eq_returned hfalse
    · exact Request.eq_returned htrue
  have horder : (System.traceOf next twoRequests sched).all (fun e =>
      match e.1.loc e.2.1 with
      | .assigning chunks => decide (chunks = e.1.shared.listIndexedChunks)
      | _ => true) = true := by
    decide
  have hrun : (requestSystem wholeText digests some newTitles).Run
      (fun tr s l _ => AssignsInOrder tr s l) (System.traceOf next twoRequests sched) s := by
    refine ⟨_, twoRequests_init, (System.exec_path_of (C := fun s l =>
      ∀ chunks, s.loc l.1 = .assigning chunks → chunks = s.shared.listIndexedChunks) hs ?_).mono ?_⟩
    · intro e he chunks hassigning
      have hsame := List.all_eq_true.mp horder e he
      rw [hassigning] at hsame
      exact of_decide_eq_true hsame
    · intro tr s l s' hsame _ chunks hassigning
      exact .inl (hsame chunks hassigning)
  exact ⟨_, s, hrun, hreturned, bm25_not_rolled_back hrun fun i => .inr (hreturned i)⟩

/-- A request that has read the table before the other one has started assigns its index last: the
chunk of a stale document is back in the index. -/
theorem bm25_rolled_back :
    ∃ tr s, (requestSystem wholeText digests some newTitles).Run System.always tr s ∧
      (∀ i, s.loc i = .returned) ∧ s.shared.bm25 ≠ s.shared.listIndexedChunks := by
  let sched := turns true 6 ++ turns false 10 ++ turns true 3
  let next := fun s (l : Bool × Outcome) =>
    (requests wholeText digests some newTitles).move s l.1 l.2
  obtain ⟨s, hs⟩ := Option.isSome_iff_exists.mp
    (by decide : (System.exec next twoRequests sched).isSome = true)
  have hcheck : (System.exec next twoRequests sched).map (fun s =>
      ((s.loc false).isReturned && (s.loc true).isReturned) &&
        decide (s.shared.bm25 ≠ s.shared.listIndexedChunks)) = some true := by
    decide
  rw [hs] at hcheck
  obtain ⟨hreturned, hne⟩ := Bool.and_eq_true_iff.mp (Option.some.inj hcheck)
  obtain ⟨hfalse, htrue⟩ := Bool.and_eq_true_iff.mp hreturned
  refine ⟨_, s, ⟨_, twoRequests_init, System.exec_path hs⟩, fun i => ?_, of_decide_eq_true hne⟩
  cases i
  · exact Request.eq_returned hfalse
  · exact Request.eq_returned htrue

end Odirag.Retrieval
