import Odirag.Release.Keeps

/-!
# Going back

Reference: `deploy/production/scripts/release-common.sh` and `deploy-release.sh`.

Recovery puts back the candidate's state file, then `previous`, then `current`, and clears the
journal last. Each of these writes the value from before the transaction, so recovery may stop
anywhere and start again, and what has been put back stays. Only when all three are back does it
report success.
-/

namespace Odirag.Release

open Script

variable {ρ : Type} [DecidableEq ρ] {P Q : Host ρ → Prop} {t : Transaction ρ} {j : Journal ρ}

/-! ## Functions that change one path -/

/-- Removing what is not there changes nothing. -/
theorem Host.set_none {h : Host ρ} {path : Path ρ} (hnone : h.files path = none) :
    h.set path none = h := by
  have hfiles : Function.update h.files path none = h.files := by
    rw [← hnone, Function.update_eq_self]
  cases h
  simp_all [Host.set]

namespace Keeps

/-- A function that removes what is at a path is done if nothing is there. -/
theorem remove {path : Path ρ} {f : Option (Node ρ) → Sh ρ Bool} (hP : ∀ h, P h → h.Sound)
    (h : ∀ h, P h → Q (h.set path none)) (hnone : f none = Pure.pure true)
    (hsome : ∀ n, Keeps P (f (some n)) (Ends P Q)) :
    Keeps P (Release.node path >>= f) (Ends P Q) := by
  refine node hP fun n => ?_
  cases n with
  | none =>
      rw [hnone]
      refine pure (fun h hn => hP h hn.1) fun host hn => ?_
      rw [← Host.set_none hn.2]
      exact h host hn.1
  | some n => exact (hsome n).pre fun _ hn => hn.1

theorem remove_regular (hP : Phase P) (hQ : Phase Q) {path : Path ρ} {refusal : String}
    (h : ∀ h, P h → Q (h.set path none)) :
    Keeps P (Release.remove_regular path refusal) (Ends P Q) :=
  remove hP.sound h rfl fun _ =>
    ite (fun _ => rm hP.sound hQ.sound h) fun _ => die hP fun _ hP' => hP'

theorem load_release_journal (hP : Phase P) :
    Keeps P Release.load_release_journal fun r h =>
      P h ∧ ∀ j, r = some j → h.files .journal = some (.journal (some j)) := by
  have hnone : ∀ h, P h → P h ∧ ∀ j, (none : Option (Journal ρ)) = some j →
      h.files .journal = some (.journal (some j)) := fun h hP' => ⟨hP', by simp⟩
  have hrefuse : ∀ text, Keeps P (do let _ ← release_die text; return none) fun r h =>
      P h ∧ ∀ j, r = some j → h.files .journal = some (.journal (some j)) := fun text =>
    (die (T := fun _ => P) hP fun _ hP' => hP').bind fun _ => pure hP.sound hnone
  refine test (validate_file_permissions hP _ id) ?_ (pure hP.sound hnone)
  refine test (external hP.sound _) ?_ (hrefuse _)
  refine node hP.sound fun n => ?_
  split
  next j =>
    have hfile := hP.file (q := .journal) id (some (.journal (some j)))
    refine test (external hfile.sound _) ?_ ?_
    · exact pure hfile.sound fun h hn => ⟨hn.1, fun j' hj => by cases hj; exact hn.2⟩
    · exact pure hfile.sound fun h hn => hnone h hn.1
  next => exact (hrefuse _).pre fun _ hn => hn.1

/-! ## Links -/

theorem atomic_set_release_link (hP : Phase P) (hQ : Phase Q) {pid : ℕ} {l : Link} {r : ρ}
    (h : ∀ h, P h → Q (h.set (.link l) (some (.link r)))) :
    Keeps P (Release.atomic_set_release_link pid l r) (Ends P Q) := by
  have hscratch : (Path.linkTmp l pid : Path ρ).Scratch := trivial
  refine look hP fun n => ite (fun _ => die hP fun _ hP' => hP') fun _ => ?_
  have hln : Keeps P (issue (.ln r (.linkTmp l pid)))
      (Ends P fun h => P h ∧ h.files (.linkTmp l pid) = some (.link r)) :=
    ln hP.sound (fun h hn => hP.sound h hn.1) fun h hP' =>
      ⟨hP.scratch h _ _ hscratch hP', by simp⟩
  refine test hln ?_ (pure hP.sound fun _ hP' => hP')
  refine test (mv (fun h hn => hP.sound h hn.1) hQ.sound fun host n hn hsource => ?_) ?_ ?_
  · -- what is renamed is the link just made
    have heq := hn.2.symm.trans hsource
    cases heq
    exact hQ.scratch _ _ _ hscratch (h host hn.1)
  · exact pure hQ.sound fun _ hQ' => hQ'
  · have hunlink : Keeps P (issue (.unlink (.linkTmp l pid))) (Ends P P) :=
      unlink hP.sound hP.sound fun h hP' => hP.scratch h _ _ hscratch hP'
    refine (hunlink.pre fun _ hn => hn.1).bind fun b => pure ?_ ?_
    · exact fun h => ends_sound hP.sound hP.sound b h
    · exact Ends.weaken (fun _ hP' => hP') (fun _ hP' => hP') b

theorem atomic_clear_release_link (hP : Phase P) (hQ : Phase Q) {l : Link}
    (h : ∀ h, P h → Q (h.set (.link l) none)) :
    Keeps P (Release.atomic_clear_release_link l) (Ends P Q) := by
  refine remove hP.sound h rfl fun n => ?_
  cases n with
  | link r => exact unlink hP.sound hQ.sound h
  | journal j => exact die hP fun _ hP' => hP'
  | file f => exact die hP fun _ hP' => hP'

theorem set_or_clear_release_link (hP : Phase P) (hQ : Phase Q) {pid : ℕ} {l : Link}
    {target : Option ρ} (h : ∀ h, P h → Q (h.set (.link l) (target.map .link))) :
    Keeps P (Release.set_or_clear_release_link pid l target) (Ends P Q) := by
  cases target with
  | none => exact atomic_clear_release_link hP hQ h
  | some r => exact atomic_set_release_link hP hQ h

end Keeps

/-! ## An unfinished transaction -/

/-- The host of an unfinished transaction. -/
def Open (t : Transaction ρ) (j : Journal ρ) (h : Host ρ) : Prop :=
  h.At t (Unfinished t j)

/-- An unfinished transaction is a phase. -/
theorem Open.phase : Phase (Open t j) :=
  Phase.ofStage (fun _ h => .unfinished j h) fun _ _ _ hp h =>
    h.update (hp.notMem (by simp [Path.Scratch]))

/-- A file in no stage may change. -/
theorem Open.other {h : Host ρ} (hopen : Open t j h) {p : Path ρ} {n : Option (Node ρ)}
    (hp : p ∉ [.journal, .backup t.candidate, .state t.candidate, .link .current,
      .link .previous]) : Open t j (h.set p n) := by
  simp only [List.mem_cons, List.not_mem_nil, or_false, not_or] at hp
  obtain ⟨hjournal, hbackup, hstate, hcurrent, hprevious⟩ := hp
  exact hopen.set (hopen.files.update (by simp [hjournal, hbackup, hstate, hcurrent]))
    (by simp [hcurrent, hprevious, hstate])

/-- Where there is an unfinished transaction, its journal records what was there before. -/
theorem Keeps.of_records {α : Type} {p : Sh ρ α} {R : α → Host ρ → Prop}
    (hP : ∀ h, P h → Open t j h) (h : Records t j → Keeps P p R) : Keeps P p R :=
  (Keeps.of_and h).pre fun host hhost => ⟨hhost, (hP host hhost).files.records⟩

omit [DecidableEq ρ] in
/-- A host whose journal can be read has an unfinished transaction. -/
theorem Host.Sound.unfinished {h : Host ρ} (hsound : h.Sound)
    (hjournal : h.files .journal = some (.journal (some j))) : ∃ t, Open t j h := by
  rcases hsound with ⟨-, hnone⟩ | ⟨t, hat⟩
  · rw [hnone] at hjournal
    cases hjournal
  · refine ⟨t, hat.transaction, hat.old, ?_, hat.reports⟩
    cases hat.files with
    | before hnone _ => simp [hnone] at hjournal
    | unreadable hnone _ => simp [hnone] at hjournal
    | unfinished j' unfinished =>
        have heq := unfinished.journal.symm.trans hjournal
        cases heq
        exact unfinished
    | committed hnone _ => simp [hnone] at hjournal

/-! ## Putting things back -/

/-- The state file is back. -/
def StateBack (t : Transaction ρ) (j : Journal ρ) (h : Host ρ) : Prop :=
  Open t j h ∧ h.files (.state t.candidate) = t.state

theorem StateBack.phase : Phase (StateBack t j) :=
  Open.phase.file id _

/-- The backup becomes the state file. -/
theorem Open.state_back {h : Host ρ} (hopen : Open t j h) {n : Node ρ}
    (hstate : t.state = some n) :
    StateBack t j ((h.set (.state t.candidate) (some n)).set (.backup t.candidate) none) := by
  refine ⟨⟨hopen.transaction, hopen.old, ⟨hopen.files.records, ?_, ?_, ?_⟩, fun hr => ?_⟩, ?_⟩
  · simpa using hopen.files.journal
  · intro _
    right
    simp [hstate]
  · simpa using hopen.files.current
  · have hformer := hopen.reports hr
    exact ⟨by simpa using hformer.current, by simpa using hformer.previous, by simp [hstate]⟩
  · simp [hstate]

/-- There was no state file before, and there is none again. -/
theorem Open.state_removed {h : Host ρ} (hopen : Open t j h) (hstate : t.state = none) :
    StateBack t j (h.set (.state t.candidate) none) := by
  refine ⟨⟨hopen.transaction, hopen.old, ⟨hopen.files.records, ?_, ?_, ?_⟩, fun hr => ?_⟩, ?_⟩
  · simpa using hopen.files.journal
  · exact fun hne => absurd hstate hne
  · simpa using hopen.files.current
  · have hformer := hopen.reports hr
    exact ⟨by simpa using hformer.current, by simpa using hformer.previous, by simp [hstate]⟩
  · simp [hstate]

omit [DecidableEq ρ] in
/-- Without a backup the state file has not changed yet, or it is back already. -/
theorem Open.state_of_no_backup {h : Host ρ} (hopen : Open t j h) (hstate : t.state ≠ none)
    (hbackup : h.files (.backup t.candidate) = none) : StateBack t j h := by
  refine ⟨hopen, ?_⟩
  rcases hopen.files.state hstate with hsome | ⟨-, hback⟩
  · rw [hbackup] at hsome
    exact absurd hsome.symm hstate
  · exact hback

/-- With a backup, it becomes the state file. -/
theorem restore_backup_keeps (hstate : t.state ≠ none) :
    Keeps (Open t j) (issue (.mv (.backup t.candidate) (.state t.candidate)))
      (Ends (Open t j) (StateBack t j)) := by
  refine Keeps.mv Open.phase.sound StateBack.phase.sound fun h n hopen hsource => ?_
  rcases hopen.files.state hstate with hbackup | ⟨hbackup, -⟩
  · exact hopen.state_back (hbackup.symm.trans hsource)
  · simp [hbackup] at hsource

/-- The leftover of an unfinished backup goes last. -/
theorem remove_leftover_keeps {refusal : String} :
    Keeps (StateBack t j) (remove_regular (.backupTmp t.candidate) refusal)
      (Ends (Open t j) (StateBack t j)) := by
  refine Keeps.ends (Q := StateBack t j) (Keeps.remove_regular StateBack.phase StateBack.phase
    fun h hback => ?_) (fun _ hback => hback.1) fun _ hback => hback
  exact ⟨hback.1.other (by simp), by simpa using hback.2⟩

theorem restore_candidate_state_from_journal_keeps (sha256 : List UInt8 → BitVec 256) :
    Keeps (Open t j) (restore_candidate_state_from_journal sha256 j)
      (Ends (Open t j) (StateBack t j)) := by
  refine Keeps.of_records (fun _ h => h) fun hrecords => ?_
  have hfail : Keeps (Open t j) (return false) (Ends (Open t j) (StateBack t j)) :=
    Keeps.pure Open.phase.sound fun _ h => h
  unfold restore_candidate_state_from_journal
  rw [hrecords.target]
  cases hsha : j.target_state_sha256 with
  | none =>
      have hstate : t.state = none := by
        rw [← Option.not_isSome_iff_eq_none, ← hrecords.state, hsha]
        simp
      exact Keeps.remove_regular Open.phase StateBack.phase fun h hopen =>
        hopen.state_removed hstate
  | some digest =>
      have hstate : t.state ≠ none := by
        intro hnone
        simpa [hsha, hnone] using hrecords.state
      refine Keeps.node Open.phase.sound fun n => Keeps.ite (fun hsome => ?_) fun hnone => ?_
      · refine Keeps.pre (P := Open t j) ?_ fun _ h => h.1
        refine Keeps.test (Keeps.validate_sha256_file Open.phase _ _ _ id) ?_ hfail
        exact Keeps.test (restore_backup_keeps hstate) remove_leftover_keeps hfail
      · have hn : n = none := by simpa using hnone
        refine Keeps.pre (P := StateBack t j) ?_ fun h hbackup =>
          hbackup.1.state_of_no_backup hstate (hn ▸ hbackup.2)
        refine Keeps.test (Keeps.validate_file_permissions StateBack.phase _ id) ?_
          (hfail.pre fun _ h => h.1)
        refine (Keeps.sha256sum StateBack.phase _ _).bind fun digest' => ?_
        exact Keeps.ite (fun _ => remove_leftover_keeps) fun _ =>
          Keeps.die StateBack.phase fun _ h => h.1

/-- The state file and `previous` are back. -/
def PreviousBack (t : Transaction ρ) (j : Journal ρ) (h : Host ρ) : Prop :=
  StateBack t j h ∧ h.files (.link .previous) = t.previous

theorem PreviousBack.phase : Phase (PreviousBack t j) :=
  StateBack.phase.file id _

/-- Everything is back; the journal is still there. -/
def Restored (t : Transaction ρ) (j : Journal ρ) (h : Host ρ) : Prop :=
  PreviousBack t j h ∧ h.files (.link .current) = t.current

theorem Restored.phase : Phase (Restored t j) :=
  PreviousBack.phase.file id _

omit [DecidableEq ρ] in
theorem Restored.former {h : Host ρ} (hback : Restored t j h) : Former t h.files :=
  ⟨hback.2, hback.1.2, hback.1.1.2⟩

theorem restore_release_links_keeps {pid : ℕ} (hrecords : Records t j) :
    Keeps (StateBack t j) (restore_release_links pid j.original_current j.original_previous)
      (Ends (StateBack t j) (Restored t j)) := by
  have hprevious : Keeps (StateBack t j)
      (set_or_clear_release_link pid .previous j.original_previous)
      (Ends (StateBack t j) (PreviousBack t j)) := by
    refine Keeps.set_or_clear_release_link StateBack.phase PreviousBack.phase fun h hback => ?_
    rw [← hrecords.previous]
    refine ⟨⟨⟨hback.1.transaction, hback.1.old, hback.1.files.update (by simp), fun hr => ?_⟩,
      by simpa using hback.2⟩, by simp⟩
    have hformer := hback.1.reports hr
    exact ⟨by simpa using hformer.current, by simp, by simpa using hformer.state⟩
  have hcurrent : Keeps (PreviousBack t j)
      (set_or_clear_release_link pid .current (some j.original_current))
      (Ends (PreviousBack t j) (Restored t j)) := by
    refine Keeps.set_or_clear_release_link PreviousBack.phase Restored.phase fun h hback => ?_
    have hvalue : (some j.original_current).map Node.link = t.current := hrecords.current.symm
    rw [hvalue]
    refine ⟨⟨⟨⟨hback.1.1.transaction, hback.1.1.old, ⟨hrecords, ?_, ?_, ?_⟩, fun hr => ?_⟩,
      ?_⟩, ?_⟩, by simp⟩
    · simpa using hback.1.1.files.journal
    · simpa using hback.1.1.files.state
    · simp
    · have hformer := hback.1.1.reports hr
      exact ⟨by simp, by simpa using hformer.previous, by simpa using hformer.state⟩
    · simpa using hback.1.2
    · simpa using hback.2
  refine Keeps.test hprevious ?_ (Keeps.pure StateBack.phase.sound fun _ h => h)
  exact hcurrent.ends (fun _ h => h.1) fun _ h => h

theorem restore_original_from_loaded_journal_keeps (sha256 : List UInt8 → BitVec 256)
    {pid : ℕ} :
    Keeps (Open t j) (restore_original_from_loaded_journal sha256 pid j)
      (Ends (Open t j) (Restored t j)) := by
  refine Keeps.of_records (fun _ h => h) fun hrecords => ?_
  have hfail : Keeps (Open t j) (return false) (Ends (Open t j) (Restored t j)) :=
    Keeps.pure Open.phase.sound fun _ h => h
  -- what follows the activation of the original images
  have hfiles : Keeps (Open t j) (do
      unless ← restore_candidate_state_from_journal sha256 j do return false
      unless ← restore_release_links pid j.original_current j.original_previous do return false
      unless (← resolve_optional_release_link .current) = some (some j.original_current) do
        return ← release_die "automatic recovery current pointer mismatch"
      issue (.print (.recovered "automatic recovery succeeded")))
      (Ends (Open t j) (Restored t j)) := by
    refine Keeps.test (restore_candidate_state_from_journal_keeps sha256) ?_ hfail
    refine Keeps.test (restore_release_links_keeps hrecords) ?_
      (Keeps.pure StateBack.phase.sound fun _ h => h.1)
    refine (Keeps.resolve_optional_release_link Restored.phase .current).bind fun r => ?_
    refine Keeps.pre (P := Restored t j) ?_ fun _ h => h.1
    refine Keeps.ite (fun _ => ?_) fun _ => Keeps.die Restored.phase fun _ h => h.1.1.1
    refine (Keeps.report Restored.phase Restored.phase.sound fun h hback => ?_).ends
      (fun _ h => h.1.1.1) fun _ h => h
    exact ⟨⟨⟨⟨hback.1.1.1.transaction, hback.1.1.1.old, hback.1.1.1.files,
      fun _ => hback.former⟩, hback.1.1.2⟩, hback.1.2⟩, hback.2⟩
  unfold restore_original_from_loaded_journal
  cases j.mode with
  | release =>
      refine Keeps.test (Keeps.externals Open.phase _) ?_ hfail
      refine Keeps.test (Keeps.external Open.phase.sound _) ?_
        (Keeps.die Open.phase fun _ h => h)
      exact Keeps.test (Keeps.externals Open.phase _) hfiles hfail
  | legacyBootstrap =>
      exact Keeps.test (Keeps.externals Open.phase _) hfiles hfail

/-- Everything is as before, without a journal. -/
def Settled (t : Transaction ρ) (h : Host ρ) : Prop :=
  h.At t fun f => f .journal = none ∧ Former t f

theorem Settled.phase : Phase (Settled t) := by
  refine Phase.ofStage (fun f h => .before h.1 h.2) fun f p n hp h => ⟨?_, ?_⟩
  · rw [Function.update_of_ne (hp.ne id).symm, h.1]
  · exact h.2.update (hp.notMem (by simp [Path.Scratch]))

theorem clear_restored_journal_keeps :
    Keeps (Restored t j) clear_release_journal (Ends (Restored t j) (Settled t)) := by
  refine Keeps.remove_regular Restored.phase Settled.phase fun h hback => ?_
  exact hback.1.1.1.set ⟨by simp, hback.former.update (by simp)⟩ (by simp)

/-- A sound host without a journal. -/
def AtRest (h : Host ρ) : Prop :=
  h.Sound ∧ h.files .journal = none

theorem AtRest.phase : Phase (AtRest (ρ := ρ)) :=
  Phase.invariant.file id none

omit [DecidableEq ρ] in
theorem Settled.atRest {h : Host ρ} (hsettled : Settled t h) : AtRest h :=
  ⟨.inr ⟨t, hsettled.transaction, hsettled.old, .before hsettled.files.1 hsettled.files.2,
    hsettled.reports⟩, hsettled.files.1⟩

/-- The report of a finished recovery. -/
theorem report_settled_keeps {text : String} :
    Keeps (Settled t) (issue (.print (.recovered text))) (Ends (Settled t) (Settled t)) :=
  Keeps.report Settled.phase Settled.phase.sound fun _ h =>
    ⟨h.transaction, h.old, h.files, fun _ => h.files.2⟩

/-- Recovery that succeeds has put everything back, unless there was no journal. -/
theorem recover_unfinished_transaction_keeps (sha256 : List UInt8 → BitVec 256) {pid : ℕ}
    (hP : ∀ h, P h → h.Sound) :
    Keeps P (recover_unfinished_transaction sha256 pid)
      (Ends Host.Sound fun h => (∃ t, Settled t h) ∨ P h ∧ h.files .journal = none) := by
  have hdone : ∀ h : Host ρ, ((∃ t, Settled t h) ∨ P h ∧ h.files .journal = none) → h.Sound := by
    rintro h (⟨t, hsettled⟩ | hrest)
    · exact Settled.phase.sound h hsettled
    · exact hP h hrest.1
  refine Keeps.node hP fun n => Keeps.ite (fun hnone => ?_) fun _ => ?_
  · have hn : n = none := by simpa using hnone
    exact Keeps.pure (fun h hjournal => hP h hjournal.1) fun h hjournal =>
      .inr ⟨hjournal.1, hn ▸ hjournal.2⟩
  · refine Keeps.pre (P := Host.Sound) ?_ fun h hjournal => hP h hjournal.1
    refine (Keeps.log Phase.invariant _).bind fun _ =>
      Keeps.pre (P := Host.Sound) ?_ fun _ h => h.1
    refine (Keeps.load_release_journal Phase.invariant).bind fun loaded => ?_
    cases loaded with
    | none => exact Keeps.pure (fun _ h => h.1) fun _ h => h.1
    | some j =>
        refine Keeps.pre (Keeps.of_exists fun t => ?_) (P := fun h => ∃ t, Open t j h)
          fun h hloaded => hloaded.1.unfinished (hloaded.2 j rfl)
        refine Keeps.test (restore_original_from_loaded_journal_keeps sha256) ?_
          (Keeps.pure Open.phase.sound Open.phase.sound)
        refine Keeps.test clear_restored_journal_keeps ?_
          (Keeps.pure Restored.phase.sound Restored.phase.sound)
        exact report_settled_keeps.ends Settled.phase.sound fun h hsettled =>
          .inl ⟨t, hsettled⟩

theorem run_recovery_only_keeps (sha256 : List UInt8 → BitVec 256) {pid : ℕ} :
    Keeps Host.Sound (run_recovery_only (ρ := ρ) sha256 pid) fun _ => Host.Sound := by
  refine Keeps.node (fun _ h => h) fun n => Keeps.ite (fun _ => ?_) fun hsome => ?_
  · refine Keeps.pre (P := Host.Sound) ?_ fun _ h => h.1
    exact (Keeps.log Phase.invariant _).bind fun _ => Keeps.pure (fun _ h => h.1) fun _ h => h.1
  · -- there is a journal, so that success means that everything is back
    refine Keeps.test (recover_unfinished_transaction_keeps sha256 fun _ h => h.1) ?_
      (Keeps.pure (fun _ h => h) fun _ h => h)
    refine Keeps.pre (Keeps.of_exists fun t => report_settled_keeps.post fun b h hends => ?_)
      (P := fun h => ∃ t, Settled t h) ?_
    · exact Ends.weaken Settled.phase.sound Settled.phase.sound b h hends
    · rintro h (hsettled | ⟨hjournal, hnone⟩)
      · exact hsettled
      · rw [hjournal.2] at hnone
        simp [hnone] at hsome

end Odirag.Release
