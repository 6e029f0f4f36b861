import Odirag.Release.Deploy

/-!
# The stages of a release transaction

Reference: `deploy/production/scripts/deploy-release.sh` and `release-common.sh`.

The journal is the commit point of a transaction. Without one, everything is as before the
transaction or the transaction is committed. While a readable one exists, it records where to go
back to, the old state file exists in one of two places, and `current` points to the old or the
candidate release (`Unfinished`). `Host.Sound` says that one of the stages holds and that a
recovery is reported only when everything is as before; it is the invariant of all invocations.
-/

namespace Odirag.Release

variable {ρ : Type}

/-- The files of a host. -/
abbrev Files (ρ : Type) : Type := Path ρ → Option (Node ρ)

/-- What the two links and the state file of a release show. -/
structure Shows (r : ρ) (current previous state : Option (Node ρ)) (f : Files ρ) : Prop where
  current : f (.link .current) = current
  previous : f (.link .previous) = previous
  state : f (.state r) = state

/-- Both links and the candidate's state file are as before the transaction. -/
abbrev Former (t : Transaction ρ) (f : Files ρ) : Prop :=
  Shows t.candidate t.current t.previous t.state f

/-- The transaction has taken effect. -/
abbrev Committed (t : Transaction ρ) (f : Files ρ) : Prop :=
  Shows t.candidate (some (.link t.candidate)) t.current (some (.file t.payload)) f

/-- The last line printed reports a successful recovery. -/
def Host.Reports (h : Host ρ) : Prop :=
  ∃ text, h.output.head? = some (.recovered text)

/-- The release transaction is atomic on a host. -/
structure Host.Atomic (h : Host ρ) : Prop where
  settled : ∀ t, h.transaction = some t → h.files .journal = none →
    Former t h.files ∨ Committed t h.files
  reported : ∀ t, h.transaction = some t → h.Reports → Former t h.files
  current : ∀ t, h.transaction = some t → h.files (.link .current) ≠ none ∧
    (h.files (.link .current) = t.current ∨
      h.files (.link .current) = some (.link t.candidate))

/-- The journal records the files before the transaction. -/
structure Records (t : Transaction ρ) (j : Journal ρ) : Prop where
  target : j.target_dir = t.candidate
  current : t.current = some (.link j.original_current)
  previous : t.previous = j.original_previous.map .link
  state : j.target_state_sha256.isSome = t.state.isSome

/-- There is a journal, and the files that it needs to go back. -/
structure Unfinished (t : Transaction ρ) (j : Journal ρ) (f : Files ρ) : Prop where
  records : Records t j
  journal : f .journal = some (.journal (some j))
  state : t.state ≠ none → f (.backup t.candidate) = t.state ∨
    f (.backup t.candidate) = none ∧ f (.state t.candidate) = t.state
  current : f (.link .current) = t.current ∨ f (.link .current) = some (.link t.candidate)

/-- The stages of a transaction. -/
inductive Stage (t : Transaction ρ) (f : Files ρ) : Prop
  | before (journal : f .journal = none) (former : Former t f)
  | unreadable (journal : f .journal = some (.journal none)) (former : Former t f)
  | unfinished (j : Journal ρ) (unfinished : Unfinished t j f)
  | committed (journal : f .journal = none) (committed : Committed t f)

/-- The last transaction is `t`, its files satisfy `F`, and a report of recovery is true. -/
structure Host.At (t : Transaction ρ) (F : Files ρ → Prop) (h : Host ρ) : Prop where
  transaction : h.transaction = some t
  old : ∃ r, t.current = some (.link r)
  files : F h.files
  reports : h.Reports → Former t h.files

/-- The invariant: no journal before the first transaction, and one of the stages since. -/
def Host.Sound (h : Host ρ) : Prop :=
  (h.transaction = none ∧ h.files .journal = none) ∨ ∃ t, h.At t (Stage t)

/-- On a sound host the transaction is atomic. -/
theorem Host.Sound.atomic {h : Host ρ} (hsound : h.Sound) : h.Atomic := by
  have hat : ∀ t, h.transaction = some t → h.At t (Stage t) := by
    intro t ht
    rcases hsound with ⟨hnone, -⟩ | ⟨t', hat⟩
    · rw [hnone] at ht
      cases ht
    · have heq := hat.transaction.symm.trans ht
      cases heq
      exact hat
  refine ⟨fun t ht hjournal => ?_, fun t ht => (hat t ht).reports, fun t ht => ?_⟩
  · cases (hat t ht).files with
    | before _ former => exact .inl former
    | unreadable journal _ => simp [hjournal] at journal
    | unfinished j unfinished => simp [unfinished.journal] at hjournal
    | committed _ committed => exact .inr committed
  · obtain ⟨r, hr⟩ := (hat t ht).old
    have hcurrent : h.files (.link .current) = t.current ∨
        h.files (.link .current) = some (.link t.candidate) := by
      cases (hat t ht).files with
      | before _ former => exact .inl former.current
      | unreadable _ former => exact .inl former.current
      | unfinished j unfinished => exact unfinished.current
      | committed _ committed => exact .inr committed.current
    refine ⟨?_, hcurrent⟩
    rcases hcurrent with h | h
    · simp [h, hr]
    · simp [h]

variable [DecidableEq ρ] {t : Transaction ρ} {j : Journal ρ} {f : Files ρ} {p : Path ρ}
  {n : Option (Node ρ)}

/-! ## What a change of one path keeps -/

/-- The temporary files of links and journal, which no stage depends on. -/
def Path.Scratch : Path ρ → Prop
  | .journalTmp _ => True
  | .linkTmp _ _ => True
  | _ => False

theorem Shows.update {r : ρ} {current previous state : Option (Node ρ)}
    (h : Shows r current previous state f)
    (hp : p ∉ [.link .current, .link .previous, .state r]) :
    Shows r current previous state (Function.update f p n) := by
  simp only [List.mem_cons, List.not_mem_nil, or_false, not_or] at hp
  obtain ⟨hcurrent, hprevious, hstate⟩ := hp
  refine ⟨?_, ?_, ?_⟩
  · rw [Function.update_of_ne (Ne.symm hcurrent), h.current]
  · rw [Function.update_of_ne (Ne.symm hprevious), h.previous]
  · rw [Function.update_of_ne (Ne.symm hstate), h.state]

theorem Unfinished.update (h : Unfinished t j f)
    (hp : p ∉ [.journal, .backup t.candidate, .state t.candidate, .link .current]) :
    Unfinished t j (Function.update f p n) := by
  simp only [List.mem_cons, List.not_mem_nil, or_false, not_or] at hp
  obtain ⟨hjournal, hbackup, hstate, hcurrent⟩ := hp
  refine ⟨h.records, ?_, ?_, ?_⟩
  · rw [Function.update_of_ne (Ne.symm hjournal), h.journal]
  · rw [Function.update_of_ne (Ne.symm hbackup), Function.update_of_ne (Ne.symm hstate)]
    exact h.state
  · rw [Function.update_of_ne (Ne.symm hcurrent)]
    exact h.current

/-- No stage depends on other paths than these. -/
theorem Stage.update (h : Stage t f) (hp : p ∉ [.journal, .backup t.candidate,
    .state t.candidate, .link .current, .link .previous]) :
    Stage t (Function.update f p n) := by
  simp only [List.mem_cons, List.not_mem_nil, or_false, not_or] at hp
  obtain ⟨hjournal, hbackup, hstate, hcurrent, hprevious⟩ := hp
  cases h with
  | before journal former =>
      refine .before ?_ (former.update (by simp [hcurrent, hprevious, hstate]))
      rw [Function.update_of_ne (Ne.symm hjournal), journal]
  | unreadable journal former =>
      refine .unreadable ?_ (former.update (by simp [hcurrent, hprevious, hstate]))
      rw [Function.update_of_ne (Ne.symm hjournal), journal]
  | unfinished j unfinished =>
      exact .unfinished j (unfinished.update (by simp [hjournal, hbackup, hstate, hcurrent]))
  | committed journal committed =>
      refine .committed ?_ (committed.update (by simp [hcurrent, hprevious, hstate]))
      rw [Function.update_of_ne (Ne.symm hjournal), journal]

/-- A change elsewhere keeps a report of recovery true. -/
theorem Host.At.set {F G : Files ρ → Prop} {h : Host ρ} (hat : h.At t F)
    (hG : G (Function.update h.files p n))
    (hp : p ∉ [.link .current, .link .previous, .state t.candidate]) : (h.set p n).At t G :=
  ⟨hat.transaction, hat.old, hG, fun hr => (hat.reports hr).update hp⟩

/-! ## Phases -/

/-- A phase of the scripts: a sound condition on the host that neither a line other than a report
nor a scratch file ends. -/
structure Phase (P : Host ρ → Prop) : Prop where
  sound : ∀ h, P h → h.Sound
  print : ∀ h m, (∀ text, m ≠ .recovered text) → P h → P (h.print m)
  scratch : ∀ h p n, p.Scratch → P h → P (h.set p n)

omit [DecidableEq ρ] in
/-- A line other than a report reports nothing. -/
theorem Host.not_reports_print {h : Host ρ} {m : Message} (hm : ∀ text, m ≠ .recovered text) :
    ¬ (h.print m).Reports := by
  rintro ⟨text, htext⟩
  exact hm text (by simpa [Host.print] using htext)

omit [DecidableEq ρ] in
/-- A scratch file is none of the others. -/
theorem Path.Scratch.ne {p q : Path ρ} (hp : p.Scratch) (hq : ¬ q.Scratch) : p ≠ q := by
  rintro rfl
  exact hq hp

omit [DecidableEq ρ] in
/-- Scratch files are not among the paths of a stage. -/
theorem Path.Scratch.notMem (hp : p.Scratch) {paths : List (Path ρ)}
    (hpaths : ∀ q ∈ paths, ¬ q.Scratch) : p ∉ paths :=
  fun hmem => hpaths p hmem hp

/-- Files in a stage, described independently of the scratch files, are a phase. -/
theorem Phase.ofStage {F : Files ρ → Prop} (hstage : ∀ f, F f → Stage t f)
    (hscratch : ∀ f p n, p.Scratch → F f → F (Function.update f p n)) :
    Phase (Host.At t F) where
  sound h hP := .inr ⟨t, hP.transaction, hP.old, hstage _ hP.files, hP.reports⟩
  print h m hm hP :=
    ⟨hP.transaction, hP.old, hP.files, fun hr => absurd hr (Host.not_reports_print hm)⟩
  scratch h p n hp hP :=
    hP.set (hscratch _ p n hp hP.files) (hp.notMem (by simp [Path.Scratch]))

/-- A condition on the files that does not depend on the scratch files narrows a phase. -/
theorem Phase.and {P : Host ρ → Prop} {F : Files ρ → Prop} (hP : Phase P)
    (hF : ∀ f p n, p.Scratch → F f → F (Function.update f p n)) :
    Phase fun h => P h ∧ F h.files where
  sound h h' := hP.sound h h'.1
  print h m hm h' := ⟨hP.print h m hm h'.1, h'.2⟩
  scratch h p n hp h' := ⟨hP.scratch h p n hp h'.1, hF _ p n hp h'.2⟩

/-- What is at another path narrows a phase. -/
theorem Phase.file {P : Host ρ → Prop} (hP : Phase P) {q : Path ρ} (hq : ¬ q.Scratch)
    (n : Option (Node ρ)) : Phase fun h => P h ∧ h.files q = n :=
  hP.and (F := fun f => f q = n) fun f p m hp hf => by
    rw [Function.update_of_ne (hp.ne hq).symm, hf]

/-- A phase in which nothing has been reported. -/
theorem Phase.quiet {P : Host ρ → Prop} (hP : Phase P) : Phase fun h => P h ∧ ¬ h.Reports where
  sound h h' := hP.sound h h'.1
  print h m hm h' := ⟨hP.print h m hm h'.1, Host.not_reports_print hm⟩
  scratch h p n hp h' := ⟨hP.scratch h p n hp h'.1, h'.2⟩

/-- The invariant itself is a phase. -/
theorem Phase.invariant : Phase (ρ := ρ) Host.Sound where
  sound _ h := h
  print h m hm := by
    rintro (⟨hnone, hjournal⟩ | ⟨t, hat⟩)
    · exact .inl ⟨hnone, hjournal⟩
    · exact .inr ⟨t, hat.transaction, hat.old, hat.files, fun hr =>
        absurd hr (Host.not_reports_print hm)⟩
  scratch h p n hp := by
    rintro (⟨hnone, hjournal⟩ | ⟨t, hat⟩)
    · refine .inl ⟨hnone, ?_⟩
      rw [Host.set_files, Function.update_of_ne (hp.ne id).symm, hjournal]
    · exact .inr ⟨t, hat.set (hat.files.update (hp.notMem (by simp [Path.Scratch])))
        (hp.notMem (by simp [Path.Scratch]))⟩

end Odirag.Release
