import Odirag.Release.Recovery

/-!
# A release transaction is atomic

Reference: `deploy/production/scripts/deploy-release.sh` and `release-common.sh`.

The journal is written before anything changes and removed after everything has; in between, the
old state file lies in its backup before the new one replaces it. `prepare_release_state` is where
the scripts trust too much: it is called where `set -e` is off, and it ends with a `printf`, so
that the failure of the `python3` that writes the new state file is lost and a truncated file is
put in place and committed. Apart from that the transaction is atomic, wherever the scripts are
cut off.
-/

namespace Odirag.Release

open Script

variable {ρ : Type} [DecidableEq ρ] {P : Host ρ → Prop} {t : Transaction ρ} {j : Journal ρ}

/-! ## Before the journal -/

theorem recovery_mode_for_keeps (hP : Phase P) (operation : Operation) (target : ρ)
    (old_previous : Option ρ) :
    Keeps P (recovery_mode_for operation target old_previous) fun _ => P := by
  have hreturn : ∀ mode : Option Mode, Keeps P (return mode : Sh ρ (Option Mode)) fun _ => P :=
    fun _ => Keeps.pure hP.sound fun _ h => h
  have hrefuse : ∀ text, Keeps P (do let _ ← release_die text; return none)
      fun (_ : Option Mode) => P := fun text =>
    (Keeps.die (T := fun _ => P) hP fun _ h => h).bind fun _ => hreturn none
  have hexternal := fun what => Keeps.external hP.sound what
  refine Keeps.ite (fun _ => ?_) fun _ => ?_
  · refine Keeps.ite (fun _ => ?_) fun _ => hrefuse _
    refine Keeps.test (hexternal _) ?_ (hrefuse _)
    refine Keeps.test (hexternal _) ?_ (hreturn none)
    exact Keeps.test (hexternal _) (hreturn _) (hrefuse _)
  · refine Keeps.test (hexternal _) ?_ ?_
    · refine Keeps.test (hexternal _) ?_ (hreturn none)
      exact Keeps.test (hexternal _) (hreturn _) (hrefuse _)
    · exact Keeps.test (hexternal _) (hreturn _) (hreturn none)

/-- Only a host with a current release is deployed to. -/
theorem prepare_recovery_path_keeps (hP : Phase P) (operation : Operation) (target : ρ)
    (old old_previous : Option ρ) :
    Keeps P (prepare_recovery_path operation target old old_previous) fun r h =>
      P h ∧ (r ≠ none → old ≠ none) := by
  have hnone : Keeps P (return none : Sh ρ (Option Mode)) fun r h =>
      P h ∧ (r ≠ none → old ≠ none) :=
    Keeps.pure hP.sound fun _ h => ⟨h, fun hr => absurd rfl hr⟩
  have hrefuse : ∀ text, Keeps P (do let _ ← release_die text; return none)
      fun (r : Option Mode) h => P h ∧ (r ≠ none → old ≠ none) := fun text =>
    (Keeps.die (T := fun _ => P) hP fun _ h => h).bind fun _ => hnone
  refine Keeps.ite (fun _ => hrefuse _) fun hold => ?_
  have hold : old ≠ none := by simpa using hold
  refine (recovery_mode_for_keeps hP operation target old_previous).bind fun mode => ?_
  cases mode with
  | none => exact hnone
  | some mode =>
      refine Keeps.test (Keeps.external hP.sound _) ?_ hnone
      refine Keeps.test (Keeps.external hP.sound _) ?_ (hrefuse _)
      refine Keeps.test (Keeps.log hP _) ?_ (hnone.pre fun _ h => h.1)
      exact Keeps.pure (fun h hlog => hP.sound h hlog.1) fun _ h => ⟨h.1, fun _ => hold⟩

/-- What was read about the host when the transaction is begun. -/
structure Begun (t : Transaction ρ) (target : ρ) (old old_previous : Option ρ)
    (payload : File) : Prop where
  candidate : t.candidate = target
  current : t.current = old.map .link
  previous : t.previous = old_previous.map .link
  payload : t.payload = payload

theorem remember_keeps {target : ρ} {old old_previous : Option ρ} {payload : File}
    (hold : old ≠ none) :
    Keeps (fun h => (AtRest h ∧ h.files (.link .current) = old.map .link) ∧
        h.files (.link .previous) = old_previous.map .link)
      (issue (.remember target payload))
      fun _ h => ∃ t, Settled t h ∧ Begun t target old old_previous payload := by
  refine Keeps.command (fun h hrest => hrest.1.1.1) ?_ fun s e hrest _ => ?_
  · rintro b h ⟨t, hsettled, -⟩
    exact Settled.phase.sound h hsettled
  · have hcurrent : (s.host.snapshot target payload).current = old.map .link := hrest.1.2
    refine ⟨s.host.snapshot target payload, ⟨rfl, ?_, ⟨hrest.1.1.2, rfl, rfl, rfl⟩, ?_⟩,
      ⟨rfl, hcurrent, hrest.2, rfl⟩⟩
    · obtain ⟨r, hr⟩ := Option.ne_none_iff_exists'.mp hold
      exact ⟨r, by rw [hcurrent, hr]; rfl⟩
    · exact fun _ => ⟨rfl, rfl, rfl⟩

/-! ## The journal -/

/-- Nothing is left of the backup of an earlier transaction. -/
def Cleared (t : Transaction ρ) (h : Host ρ) : Prop :=
  Settled t h ∧ h.files (.backup t.candidate) = none

theorem Cleared.phase : Phase (Cleared t) :=
  Settled.phase.file id none

/-- A file in no stage may change. -/
theorem Settled.other {h : Host ρ} (hsettled : Settled t h) {p : Path ρ} {n : Option (Node ρ)}
    (hjournal : p ≠ .journal) (hp : p ∉ [.link .current, .link .previous, .state t.candidate]) :
    Settled t (h.set p n) := by
  refine hsettled.set ⟨?_, hsettled.files.2.update hp⟩ hp
  rw [Function.update_of_ne hjournal.symm, hsettled.files.1]

theorem clear_orphan_keeps {Q : Host ρ → Prop} {path : Path ρ} (hP : Phase P) (hQ : Phase Q)
    (h : ∀ h, P h → Q (h.set path none)) : Keeps P (clear_orphan path) (Ends P Q) := by
  have hdie : ∀ text, Keeps P (release_die text) (Ends P Q) := fun _ => Keeps.die hP fun _ h => h
  refine Keeps.remove hP.sound h rfl fun n => Keeps.look hP fun _ => ?_
  refine Keeps.ite (fun _ => hdie _) fun _ => ?_
  exact Keeps.ite (fun _ => Keeps.rm hP.sound hQ.sound h) fun _ => hdie _

theorem clear_orphan_candidate_state_backup_keeps :
    Keeps (Settled t) (clear_orphan_candidate_state_backup t.candidate)
      (Ends (Settled t) (Cleared t)) := by
  have hbackup : Keeps (Settled t) (clear_orphan (.backup t.candidate))
      (Ends (Settled t) (Cleared t)) :=
    clear_orphan_keeps Settled.phase Cleared.phase fun h hsettled =>
      ⟨hsettled.other (by simp) (by simp), by simp⟩
  have htmp : Keeps (Cleared t) (clear_orphan (.backupTmp t.candidate))
      (Ends (Cleared t) (Cleared t)) :=
    clear_orphan_keeps Cleared.phase Cleared.phase fun h hcleared =>
      ⟨hcleared.1.other (by simp) (by simp), by simpa using hcleared.2⟩
  refine Keeps.test hbackup ?_ (Keeps.pure Settled.phase.sound fun _ h => h)
  exact htmp.ends (fun _ h => h.1) fun _ h => h

/-- The checksum is there if the state file is. -/
theorem candidate_state_checksum_keeps (sha256 : List UInt8 → BitVec 256) :
    Keeps (Cleared t) (candidate_state_checksum sha256 t.candidate) fun r h =>
      Cleared t h ∧ ∀ o, r = some o → o.isSome = t.state.isSome := by
  refine Keeps.node Cleared.phase.sound fun n => ?_
  have hread : ∀ h, Cleared t h ∧ h.files (.state t.candidate) = n → t.state = n :=
    fun h hn => hn.1.1.files.2.state.symm.trans hn.2
  have hfile := (Cleared.phase (t := t)).file (q := .state t.candidate) id n
  have hnone : Keeps (fun h => Cleared t h ∧ h.files (.state t.candidate) = n)
      (return none : Sh ρ (Option (Option (BitVec 256)))) fun r h =>
        Cleared t h ∧ ∀ o, r = some o → o.isSome = t.state.isSome :=
    Keeps.pure hfile.sound fun h hn => ⟨hn.1, by simp⟩
  cases n with
  | none =>
      refine Keeps.pure hfile.sound fun h hn => ⟨hn.1, fun o ho => ?_⟩
      cases ho
      rw [hread h hn]
      rfl
  | some n =>
      refine Keeps.test (Keeps.validate_file_permissions hfile _ id) ?_ hnone
      refine (Keeps.sha256sum hfile sha256 _).bind fun digest => ?_
      cases digest with
      | none => exact hnone
      | some digest =>
          refine Keeps.pure hfile.sound fun h hn => ⟨hn.1, fun o ho => ?_⟩
          cases ho
          rw [hread h hn]
          rfl

/-- The journal has been written, perhaps not so that it can be read, and nothing else has
changed. -/
def Written (t : Transaction ρ) (h : Host ρ) : Prop :=
  h.At t fun f => (Former t f ∧ f (.backup t.candidate) = none) ∧
    (f .journal = some (.journal none) ∨
      ∃ j, Records t j ∧ f .journal = some (.journal (some j)))

omit [DecidableEq ρ] in
/-- Before anything has changed, a journal that records what is there is one to go back by. -/
theorem Unfinished.fresh {f : Files ρ} (hrecords : Records t j) (hformer : Former t f)
    (hbackup : f (.backup t.candidate) = none) (hjournal : f .journal = some (.journal (some j))) :
    Unfinished t j f :=
  ⟨hrecords, hjournal, fun _ => .inr ⟨hbackup, hformer.state⟩, .inl hformer.current⟩

theorem Written.phase : Phase (Written t) := by
  refine Phase.ofStage ?_ fun f p n hp h => ⟨⟨?_, ?_⟩, ?_⟩
  · rintro f ⟨⟨hformer, hbackup⟩, hjournal | ⟨j, hrecords, hjournal⟩⟩
    · exact .unreadable hjournal hformer
    · exact .unfinished j (.fresh hrecords hformer hbackup hjournal)
  · exact h.1.1.update (hp.notMem (by simp [Path.Scratch]))
  · rw [Function.update_of_ne (hp.ne id).symm, h.1.2]
  · rw [Function.update_of_ne (hp.ne id).symm]
    exact h.2

theorem write_release_journal_keeps {pid : ℕ} {mode : Mode} {old old_previous : Option ρ}
    {payload : File} (hbegun : Begun t t.candidate old old_previous payload)
    {state_sha : Option (BitVec 256)} (hsha : state_sha.isSome = t.state.isSome) :
    Keeps (Cleared t)
      (write_release_journal pid mode t.candidate old old_previous state_sha)
      (Ends (Cleared t) (Written t)) := by
  have htmp : (Path.journalTmp pid : Path ρ).Scratch := trivial
  have hfail : Keeps (Cleared t) (return false) (Ends (Cleared t) (Written t)) :=
    Keeps.pure Cleared.phase.sound fun _ h => h
  refine Keeps.look Cleared.phase fun n => Keeps.ite (fun _ => Keeps.die Cleared.phase fun _ h => h)
    fun _ => ?_
  cases hold : old with
  | none => exact Keeps.die Cleared.phase fun _ h => h
  | some original_current =>
      refine Keeps.look Cleared.phase fun n =>
        Keeps.ite (fun _ => Keeps.die Cleared.phase fun _ h => h) fun _ => ?_
      refine (Keeps.filling Cleared.phase.sound fun h n hcleared =>
        Cleared.phase.scratch h _ n htmp hcleared).bind fun _ => ?_
      let entries : Journal ρ :=
        { mode
          target_dir := t.candidate
          original_current
          original_previous := old_previous
          target_state_sha256 := state_sha }
      have hrecords : Records t entries :=
        ⟨rfl, by rw [hbegun.current, hold]; rfl, hbegun.previous, hsha⟩
      have hprintf : Keeps (Cleared t) (issue (.printf (.journalTmp pid) entries))
          (Ends (Cleared t) fun h => Cleared t h ∧ (h.files (.journalTmp pid) =
            some (.journal none) ∨ h.files (.journalTmp pid) = some (.journal (some entries)))) := by
        refine Keeps.printf Cleared.phase.sound (fun h hn => Cleared.phase.sound h hn.1)
          (fun h n hcleared => Cleared.phase.scratch h _ n htmp hcleared) fun h j' hcleared hj => ?_
        refine ⟨Cleared.phase.scratch h _ _ htmp hcleared, ?_⟩
        rcases hj with rfl | rfl
        · exact .inl (by simp)
        · exact .inr (by simp)
      refine Keeps.test hprintf ?_ hfail
      -- whatever was written, the rename makes it the journal
      have hwritten : ∀ h, (Cleared t h ∧ (h.files (.journalTmp pid) = some (.journal none) ∨
          h.files (.journalTmp pid) = some (.journal (some entries)))) → h.Sound :=
        fun h hn => Cleared.phase.sound h hn.1
      refine Keeps.test (Keeps.external hwritten _) ?_ (hfail.pre fun _ h => h.1)
      refine (Keeps.mv hwritten Written.phase.sound fun h m hn hsource => ?_).ends
        (fun _ h => h.1) fun _ h => h
      obtain ⟨hcleared, hjournal⟩ := hn
      rw [hsource] at hjournal
      have hformer : Former t ((h.set .journal (some m)).set (.journalTmp pid) none).files :=
        (hcleared.1.files.2.update (by simp)).update (by simp)
      refine ⟨hcleared.1.transaction, hcleared.1.old, ⟨⟨hformer, ?_⟩, ?_⟩, fun _ => hformer⟩
      · simpa using hcleared.2
      · rcases hjournal with hj | hj
        · exact .inl (by simpa using hj)
        · exact .inr ⟨entries, hrecords, by simpa using hj⟩

/-! ## The backup -/

/-- The old state file can be found in the backup. -/
def Backed (t : Transaction ρ) (j : Journal ρ) (h : Host ρ) : Prop :=
  Open t j h ∧ (t.state ≠ none → h.files (.backup t.candidate) = t.state)

theorem Backed.phase : Phase (Backed t j) :=
  Open.phase.and (F := fun f => t.state ≠ none → f (.backup t.candidate) = t.state)
    fun f p n hp h hstate => by rw [Function.update_of_ne (hp.ne id).symm, h hstate]

/-- The journal is there and nothing else has changed. -/
def Fresh (t : Transaction ρ) (j : Journal ρ) (h : Host ρ) : Prop :=
  (Open t j h ∧ h.files (.backup t.candidate) = none) ∧ h.files (.state t.candidate) = t.state

theorem Fresh.phase : Phase (Fresh t j) :=
  (Open.phase.file id none).file id _

theorem Fresh.set {h : Host ρ} (hfresh : Fresh t j h) {n : Option (Node ρ)} :
    Fresh t j (h.set (.backupTmp t.candidate) n) :=
  ⟨⟨hfresh.1.1.other (by simp), by simpa using hfresh.1.2⟩, by simpa using hfresh.2⟩

omit [DecidableEq ρ] in
theorem Written.fresh {h : Host ρ} (hwritten : Written t h)
    (hjournal : h.files .journal = some (.journal (some j))) : Fresh t j h := by
  obtain ⟨⟨hformer, hbackup⟩, hnone | ⟨j', hrecords, hj⟩⟩ := hwritten.files
  · simp [hnone] at hjournal
  · have heq := hj.symm.trans hjournal
    cases heq
    exact ⟨⟨⟨hwritten.transaction, hwritten.old, .fresh hrecords hformer hbackup hjournal,
      hwritten.reports⟩, hbackup⟩, hformer.state⟩

theorem prepare_candidate_state_backup_keeps (sha256 : List UInt8 → BitVec 256) :
    Keeps (Fresh t j) (prepare_candidate_state_backup sha256 t.candidate j)
      (Ends (Open t j) (Backed t j)) := by
  have hopen : ∀ h, Fresh t j h → Open t j h := fun _ h => h.1.1
  have hdie : ∀ text, Keeps (Fresh t j) (release_die text) (Ends (Open t j) (Backed t j)) :=
    fun _ => Keeps.die Fresh.phase hopen
  have hfail : Keeps (Fresh t j) (return false) (Ends (Open t j) (Backed t j)) :=
    Keeps.pure Fresh.phase.sound hopen
  refine Keeps.look Fresh.phase fun _ => Keeps.ite (fun _ => hdie _) fun _ => ?_
  refine Keeps.look Fresh.phase fun _ => Keeps.ite (fun _ => hdie _) fun _ => ?_
  cases hsha : j.target_state_sha256 with
  | none =>
      -- there is no state file to back up
      refine Keeps.pure Fresh.phase.sound fun h hfresh => ⟨hopen h hfresh, fun hstate => ?_⟩
      have hnone := hfresh.1.1.files.records.state
      rw [hsha] at hnone
      exact absurd (Option.not_isSome_iff_eq_none.mp (by simp [← hnone])) hstate
  | some digest =>
      refine Keeps.test (Keeps.validate_file_permissions Fresh.phase _ id) ?_ hfail
      refine (Keeps.sha256sum Fresh.phase sha256 _).bind fun _ => ?_
      refine Keeps.ite (fun _ => ?_) fun _ => hdie _
      refine (Keeps.filling Fresh.phase.sound fun h n hfresh => hfresh.set).bind fun _ => ?_
      have hcopied : Phase fun h => Fresh t j h ∧ h.files (.backupTmp t.candidate) = t.state :=
        Fresh.phase.file id _
      have hcp : Keeps (Fresh t j) (issue (.cp (.state t.candidate) (.backupTmp t.candidate)))
          (Ends (Fresh t j)
            fun h => Fresh t j h ∧ h.files (.backupTmp t.candidate) = t.state) :=
        Keeps.cp Fresh.phase.sound hcopied.sound (fun h n hfresh => hfresh.set)
          fun h hfresh => ⟨hfresh.set, by simpa using hfresh.2⟩
      refine Keeps.test hcp ?_ hfail
      refine Keeps.test (Keeps.validate_sha256_file hcopied _ _ _ id) ?_ (hfail.pre fun _ h => h.1)
      refine (Keeps.mv hcopied.sound Backed.phase.sound fun h m hn hsource => ?_).ends
        (fun h hn => hopen h hn.1) fun _ h => h
      obtain ⟨⟨⟨hopen, hbackup⟩, hstate⟩, htmp⟩ := hn
      have hm : some m = t.state := hsource.symm.trans htmp
      refine ⟨⟨hopen.transaction, hopen.old, ⟨hopen.files.records, ?_, ?_, ?_⟩, fun hr => ?_⟩, ?_⟩
      · simpa using hopen.files.journal
      · exact fun _ => .inl (by simp [hm])
      · simpa using hopen.files.current
      · exact ((hopen.reports hr).update (by simp)).update (by simp)
      · exact fun _ => by simp [hm]

theorem prepare_transaction_journal_keeps (sha256 : List UInt8 → BitVec 256) {pid : ℕ}
    {mode : Mode} {old old_previous : Option ρ} {payload : File}
    (hbegun : Begun t t.candidate old old_previous payload) :
    Keeps (Settled t)
      (prepare_transaction_journal sha256 pid mode t.candidate old old_previous) fun r h =>
        h.Sound ∧ ∀ j, r = some j → Backed t j h := by
  have hnone : ∀ {P : Host ρ → Prop}, (∀ h, P h → h.Sound) →
      Keeps P (return none : Sh ρ (Option (Journal ρ))) fun r h =>
        h.Sound ∧ ∀ j, r = some j → Backed t j h :=
    fun hP => Keeps.pure hP fun h hP' => ⟨hP h hP', by simp⟩
  refine Keeps.test clear_orphan_candidate_state_backup_keeps ?_ (hnone Settled.phase.sound)
  refine (candidate_state_checksum_keeps sha256).bind fun checksum => ?_
  cases checksum with
  | none => exact hnone fun h hn => Cleared.phase.sound h hn.1
  | some state_sha =>
      refine Keeps.pre (P := fun h => Cleared t h ∧ state_sha.isSome = t.state.isSome) ?_
        fun _ h => ⟨h.1, h.2 _ rfl⟩
      refine Keeps.of_and fun hsha => ?_
      refine Keeps.test (write_release_journal_keeps hbegun hsha) ?_ (hnone Cleared.phase.sound)
      refine (Keeps.load_release_journal Written.phase).bind fun loaded => ?_
      cases loaded with
      | none => exact hnone fun h hn => Written.phase.sound h hn.1
      | some j =>
          refine Keeps.pre (P := Fresh t j) ?_ fun h hn => hn.1.fresh (hn.2 j rfl)
          refine (Keeps.assign Fresh.phase _).bind fun _ => ?_
          refine Keeps.test (prepare_candidate_state_backup_keeps sha256) ?_
            (hnone Open.phase.sound)
          exact Keeps.pure Backed.phase.sound fun h hbacked =>
            ⟨Backed.phase.sound h hbacked, fun j' hj => by cases hj; exact hbacked⟩

/-! ## The candidate -/

/-- The old state file is safe, and nothing has been reported. -/
def Ready (t : Transaction ρ) (j : Journal ρ) (h : Host ρ) : Prop :=
  Backed t j h ∧ ¬ h.Reports

theorem Ready.phase : Phase (Ready t j) :=
  Backed.phase.quiet

/-- A file in no stage may change. -/
theorem Ready.other {h : Host ρ} (hready : Ready t j h) {p : Path ρ} {n : Option (Node ρ)}
    (hp : p ∉ [.journal, .backup t.candidate, .state t.candidate, .link .current,
      .link .previous]) : Ready t j (h.set p n) := by
  refine ⟨⟨hready.1.1.other hp, fun hstate => ?_⟩, hready.2⟩
  have hne : Path.backup t.candidate ≠ p := by
    rintro rfl
    simp at hp
  rw [Host.set_files, Function.update_of_ne hne, hready.1.2 hstate]

/-- The pending state file is whole, missing or unacceptable. -/
def Staged (t : Transaction ρ) (j : Journal ρ) (pid : ℕ) (h : Host ρ) : Prop :=
  Ready t j h ∧ ∀ n, h.files (.pending t.candidate pid) = some n →
    n = .file t.payload ∨ n.acceptable = false

theorem Staged.phase {pid : ℕ} : Phase (Staged t j pid) :=
  Ready.phase.and (F := fun f => ∀ n, f (.pending t.candidate pid) = some n →
    n = .file t.payload ∨ n.acceptable = false) fun f p n hp h => by
      rw [Function.update_of_ne (hp.ne id).symm]
      exact h

/-- `previous` points to the old release. -/
def Demoted (t : Transaction ρ) (j : Journal ρ) (pid : ℕ) (h : Host ρ) : Prop :=
  Staged t j pid h ∧ h.files (.link .previous) = t.current

theorem Demoted.phase {pid : ℕ} : Phase (Demoted t j pid) :=
  Staged.phase.file id _

/-- Both links have been promoted. -/
def Promoted (t : Transaction ρ) (j : Journal ρ) (pid : ℕ) (h : Host ρ) : Prop :=
  Demoted t j pid h ∧ h.files (.link .current) = some (.link t.candidate)

theorem Promoted.phase {pid : ℕ} : Phase (Promoted t j pid) :=
  Demoted.phase.file id _

/-- Everything is new; the journal is still there. -/
def Done (t : Transaction ρ) (j : Journal ρ) (h : Host ρ) : Prop :=
  Ready t j h ∧ Committed t h.files

theorem Done.phase : Phase (Done t j) :=
  Ready.phase.and (F := Committed t) fun _ _ _ hp h =>
    h.update (hp.notMem (by simp [Path.Scratch]))

/-- The transaction is committed. -/
def Closed (t : Transaction ρ) (h : Host ρ) : Prop :=
  h.At t fun f => f .journal = none ∧ Committed t f

theorem Closed.phase : Phase (Closed t) := by
  refine Phase.ofStage (fun f h => .committed h.1 h.2) fun f p n hp h => ⟨?_, ?_⟩
  · rw [Function.update_of_ne (hp.ne id).symm, h.1]
  · exact h.2.update (hp.notMem (by simp [Path.Scratch]))

/-- Here the failure of `python3` is lost, which does no harm if what it leaves is refused
later. -/
theorem prepare_release_state_keeps {pid : ℕ} :
    Keeps (Ready t j) (prepare_release_state pid t.candidate t.payload)
      (Ends (Ready t j) (Staged t j pid)) := by
  refine Keeps.look Ready.phase fun _ => Keeps.ite (fun _ => Keeps.die Ready.phase fun _ h => h)
    fun _ => ?_
  refine (Keeps.filling Ready.phase.sound fun h n hready => hready.other (by simp)).bind fun _ => ?_
  have hpython : Keeps (Ready t j) (issue (.python3 (.pending t.candidate pid) t.payload))
      fun _ => Staged t j pid :=
    Keeps.python3 Ready.phase.sound Staged.phase.sound fun h n hready hwhole =>
      ⟨hready.other (by simp), fun m hm => hwhole m (by simpa using hm)⟩
  exact hpython.bind fun _ => Keeps.pure Staged.phase.sound fun _ h => h

theorem promote_release_links_keeps {pid : ℕ} {old old_previous : Option ρ} {payload : File}
    (hbegun : Begun t t.candidate old old_previous payload) :
    Keeps (Staged t j pid) (promote_release_links pid t.candidate old)
      (Ends (Ready t j) (Promoted t j pid)) := by
  have hprevious : Keeps (Staged t j pid) (set_or_clear_release_link pid .previous old)
      (Ends (Staged t j pid) (Demoted t j pid)) := by
    refine Keeps.set_or_clear_release_link Staged.phase Demoted.phase fun h hstaged => ?_
    obtain ⟨⟨⟨hopen, hbackup⟩, hquiet⟩, hpending⟩ := hstaged
    rw [← hbegun.current]
    refine ⟨⟨⟨⟨⟨hopen.transaction, hopen.old, hopen.files.update (by simp), ?_⟩, ?_⟩, ?_⟩, ?_⟩,
      by simp⟩
    · exact fun hr => absurd hr hquiet
    · simpa using hbackup
    · exact hquiet
    · simpa using hpending
  have hcurrent : Keeps (Demoted t j pid) (atomic_set_release_link pid .current t.candidate)
      (Ends (Demoted t j pid) (Promoted t j pid)) := by
    refine Keeps.atomic_set_release_link Demoted.phase Promoted.phase fun h hdemoted => ?_
    obtain ⟨⟨⟨⟨hopen, hbackup⟩, hquiet⟩, hpending⟩, hprevious⟩ := hdemoted
    refine ⟨⟨⟨⟨⟨⟨hopen.transaction, hopen.old, ⟨hopen.files.records, ?_, ?_, ?_⟩, ?_⟩, ?_⟩, ?_⟩,
      ?_⟩, ?_⟩, by simp⟩
    · simpa using hopen.files.journal
    · simpa using hopen.files.state
    · exact .inr (by simp)
    · exact fun hr => absurd hr hquiet
    · simpa using hbackup
    · exact hquiet
    · simpa using hpending
    · simpa using hprevious
  refine Keeps.test hprevious ?_ (Keeps.pure Staged.phase.sound fun _ h => h.1)
  exact hcurrent.ends (fun _ h => h.1.1) fun _ h => h

theorem commit_release_state_keeps {pid : ℕ} :
    Keeps (Promoted t j pid) (commit_release_state t.candidate (.pending t.candidate pid))
      (Ends (Ready t j) (Done t j)) := by
  have hready : ∀ h, Promoted t j pid h → Ready t j h := fun _ h => h.1.1.1
  have hfail : Keeps (Promoted t j pid) (return false) (Ends (Ready t j) (Done t j)) :=
    Keeps.pure Promoted.phase.sound hready
  have hpath : Keeps (Promoted t j pid)
      (validate_pending_state_path (some t.candidate) (.pending t.candidate pid))
      fun _ => Promoted t j pid :=
    Keeps.ite (fun _ => Keeps.pure Promoted.phase.sound fun _ h => h) fun _ =>
      Keeps.die Promoted.phase fun _ h => h
  refine Keeps.test hpath ?_ hfail
  refine Keeps.test (Keeps.validate_file_permissions_accepts Promoted.phase id) ?_
    (hfail.pre fun _ h => h.1)
  refine (Keeps.mv (fun h hn => Promoted.phase.sound h hn.1) Done.phase.sound
    fun h m hn hsource => ?_).ends (fun h hn => hready h hn.1) fun _ h => h
  obtain ⟨⟨⟨⟨⟨⟨hopen, hbackup⟩, hquiet⟩, hpending⟩, hprevious⟩, hcurrent⟩, haccepted⟩ := hn
  -- what is renamed is the whole new state file
  have hm : m = .file t.payload := by
    obtain ⟨n, hn, hacceptable⟩ := haccepted rfl
    have heq := hsource.symm.trans hn
    cases heq
    exact (hpending m hsource).resolve_right (by simp [hacceptable])
  refine ⟨⟨⟨⟨hopen.transaction, hopen.old, ⟨hopen.files.records, ?_, ?_, ?_⟩, ?_⟩, ?_⟩, ?_⟩, ?_⟩
  · simpa using hopen.files.journal
  · exact fun hstate => .inl (by simpa using hbackup hstate)
  · simpa using hopen.files.current
  · exact fun hr => absurd hr hquiet
  · simpa using hbackup
  · exact hquiet
  · exact ⟨by simpa using hcurrent, by simpa using hprevious, by simp [hm]⟩

theorem discard_candidate_state_backup_keeps (hrecords : Records t j) :
    Keeps (Closed t) (discard_candidate_state_backup j) fun _ => Closed t := by
  have hset : ∀ h (p : Path ρ), p ≠ .journal →
      p ∉ [.link .current, .link .previous, .state t.candidate] →
      Closed t h → Closed t (h.set p none) := by
    intro h p hjournal hp hclosed
    refine hclosed.set ⟨?_, hclosed.files.2.update hp⟩ hp
    rw [Function.update_of_ne hjournal.symm, hclosed.files.1]
  have hweaken : ∀ b h, Ends (Closed t) (Closed t) b h → Closed t h :=
    Ends.weaken (fun _ h => h) fun _ h => h
  have htmp : Keeps (Closed t) (remove_regular (.backupTmp t.candidate)
      "refusing to remove an invalid temporary state backup") fun _ => Closed t :=
    (Keeps.remove_regular Closed.phase Closed.phase fun h => hset h _ (by simp) (by simp)).post hweaken
  unfold discard_candidate_state_backup
  rw [hrecords.target]
  cases j.target_state_sha256 with
  | none => exact Keeps.pure Closed.phase.sound fun _ h => h
  | some digest =>
      refine Keeps.look Closed.phase fun n => ?_
      cases n with
      | none => exact htmp
      | some n =>
          refine Keeps.ite (fun _ => ?_) fun _ => Keeps.die Closed.phase fun _ h => h
          refine (Keeps.rm Closed.phase.sound Closed.phase.sound fun h =>
            hset h _ (by simp) (by simp)).bind
            fun b => htmp.pre (hweaken b)

/-- The candidate is committed or the transaction stays unfinished. -/
theorem activate_and_commit_candidate_keeps {pid : ℕ} {old old_previous : Option ρ}
    (hbegun : Begun t t.candidate old old_previous t.payload) :
    Keeps (Ready t j) (activate_and_commit_candidate pid t.candidate old j t.payload)
      fun _ => Host.Sound := by
  refine Keeps.of_records (fun _ h => h.1.1) fun hrecords => ?_
  have hdie : ∀ text, Keeps (Ready t j) (release_die text) fun _ => Host.Sound :=
    fun _ => Keeps.die Ready.phase Ready.phase.sound
  have hexternal := fun what => Keeps.external (P := Ready t j) Ready.phase.sound what
  refine Keeps.test (hexternal _) ?_ (hdie _)
  refine Keeps.test (hexternal _) ?_ (hdie _)
  refine Keeps.test (hexternal _) ?_ (hdie _)
  refine Keeps.test (hexternal _) ?_ (hdie _)
  refine Keeps.test (hexternal _) ?_ (hdie _)
  refine (Keeps.assign Ready.phase _).bind fun _ => ?_
  refine Keeps.test prepare_release_state_keeps ?_ (hdie _)
  refine Keeps.test (promote_release_links_keeps hbegun) ?_ (hdie _)
  refine Keeps.test commit_release_state_keeps ?_ (hdie _)
  refine (Keeps.assign Done.phase _).bind fun _ => ?_
  refine (Keeps.assign Done.phase _).bind fun _ => ?_
  -- the commit point
  have hclear : Keeps (Done t j) clear_release_journal (Ends (Done t j) (Closed t)) := by
    refine Keeps.remove_regular Done.phase Closed.phase fun h hdone => ?_
    exact hdone.1.1.1.set ⟨by simp, hdone.2.update (by simp)⟩ (by simp)
  refine Keeps.test hclear ?_ (Keeps.die Done.phase Done.phase.sound)
  refine (Keeps.assign Closed.phase _).bind fun _ => ?_
  refine (Keeps.assign Closed.phase _).bind fun _ => ?_
  have hlog : ∀ text, Keeps (Closed t) (release_log text) fun _ => Host.Sound := fun _ =>
    (Keeps.log Closed.phase _).post fun _ h hlog => Closed.phase.sound h hlog.1
  refine Keeps.test (discard_candidate_state_backup_keeps hrecords) (hlog _) ?_
  exact (Keeps.log Closed.phase _).bind fun _ => (hlog _).pre fun _ h => h.1

/-! ## Whole invocations -/

theorem discard_release_state_keeps (hP : Phase P)
    (h : ∀ h r pid, P h → P (h.set (.pending r pid) none)) (target : Option ρ)
    (pending : Option (Path ρ)) :
    Keeps P (discard_release_state target pending) fun _ => P := by
  cases pending with
  | none => exact Keeps.pure hP.sound fun _ hP' => hP'
  | some pending =>
      -- only a pending state file passes
      have hpath : Keeps P (validate_pending_state_path target pending) fun b h =>
          P h ∧ (b = true → ∃ r pid, pending = .pending r pid) := by
        unfold validate_pending_state_path
        split
        next r pid =>
          refine Keeps.ite (fun _ => ?_) fun _ => ?_
          · exact Keeps.pure hP.sound fun _ hP' => ⟨hP', fun _ => ⟨r, pid, rfl⟩⟩
          · exact Keeps.die hP fun _ hP' => ⟨hP', by simp⟩
        next => exact Keeps.die hP fun _ hP' => ⟨hP', by simp⟩
      refine Keeps.test hpath (Keeps.of_and fun hpending => ?_)
        (Keeps.pure (fun h hn => hP.sound h hn.1) fun _ hn => hn.1)
      obtain ⟨r, pid, rfl⟩ := hpending rfl
      refine Keeps.look hP fun n => ?_
      cases n with
      | none => exact Keeps.pure hP.sound fun _ hP' => hP'
      | some n =>
          refine Keeps.ite (fun _ => ?_) fun _ => Keeps.pure hP.sound fun _ hP' => hP'
          exact (Keeps.rm hP.sound hP.sound fun host => h host r pid).post
            (Ends.weaken (fun _ hP' => hP') fun _ hP' => hP')

/-- The invariant does not depend on pending state files. -/
theorem Host.Sound.discard {h : Host ρ} (hsound : h.Sound) (r : ρ) (pid : ℕ) :
    (h.set (.pending r pid) none).Sound := by
  rcases hsound with ⟨hnone, hjournal⟩ | ⟨t, hat⟩
  · exact .inl ⟨hnone, by simpa using hjournal⟩
  · exact .inr ⟨t, hat.set (hat.files.update (by simp)) (by simp)⟩

/-- Everything is back, for some journal. -/
def Recovered (h : Host ρ) : Prop :=
  ∃ t j, Restored t j h

theorem Recovered.phase : Phase (Recovered (ρ := ρ)) where
  sound := by
    rintro h ⟨t, j, hback⟩
    exact Restored.phase.sound h hback
  print := by
    rintro h m hm ⟨t, j, hback⟩
    exact ⟨t, j, Restored.phase.print h m hm hback⟩
  scratch := by
    rintro h p n hp ⟨t, j, hback⟩
    exact ⟨t, j, Restored.phase.scratch h p n hp hback⟩

theorem Recovered.discard {h : Host ρ} (hrecovered : Recovered h) (r : ρ) (pid : ℕ) :
    Recovered (h.set (.pending r pid) none) := by
  obtain ⟨t, j, ⟨⟨⟨hopen, hstate⟩, hprevious⟩, hcurrent⟩⟩ := hrecovered
  exact ⟨t, j, ⟨⟨⟨hopen.other (by simp), by simpa using hstate⟩, by simpa using hprevious⟩,
    by simpa using hcurrent⟩⟩

/-- The exit handler may take over at any moment. -/
theorem release_exit_handler_keeps (sha256 : List UInt8 → BitVec 256) (status : ℕ) :
    Keeps Host.Sound (release_exit_handler (ρ := ρ) sha256 status) fun _ => Host.Sound := by
  have hreturn : ∀ n : ℕ, Keeps Host.Sound (return n : Sh ρ ℕ) fun _ => Host.Sound :=
    fun _ => Keeps.pure (fun _ h => h) fun _ h => h
  have hvars : Keeps Host.Sound (inspect Shell.vars : Sh ρ (Vars ρ)) fun _ => Host.Sound := by
    unfold Keeps
    exact (Triple.inspect fun _ hs => hs).post fun _ _ hs => hs.1
  refine hvars.bind fun v => Keeps.ite (fun _ => ?_) fun _ => hreturn status
  refine Keeps.look Phase.invariant fun n => Keeps.ite (fun _ => ?_) fun _ => ?_
  · exact (Keeps.assign Phase.invariant _).bind fun _ => hreturn status
  refine Keeps.ite (fun _ => hreturn status) fun _ => ?_
  refine (Keeps.assign Phase.invariant _).bind fun _ => ?_
  refine (Keeps.log Phase.invariant _).bind fun _ => Keeps.pre (P := Host.Sound) ?_ fun _ h => h.1
  have hrestore : Keeps Host.Sound (attempt_recovery sha256 v.pid)
      (Ends Host.Sound (Recovered (ρ := ρ))) := by
    refine (Keeps.load_release_journal Phase.invariant).bind fun loaded => ?_
    cases loaded with
    | none => exact Keeps.pure (fun _ h => h.1) fun _ h => h.1
    | some j =>
        refine Keeps.pre (Keeps.of_exists fun t => ?_) (P := fun h => ∃ t, Open t j h)
          fun h hloaded => hloaded.1.unfinished (hloaded.2 j rfl)
        exact (restore_original_from_loaded_journal_keeps sha256).ends Open.phase.sound
          fun h hback => ⟨t, j, hback⟩
  refine hrestore.bind fun restored => ?_
  -- the pending state file goes whether or not the recovery succeeded
  have hdiscard : Keeps (Ends Host.Sound (Recovered (ρ := ρ)) restored)
      (discard_release_state v.target v.pending_state)
      fun _ => Ends Host.Sound (Recovered (ρ := ρ)) restored := by
    cases restored with
    | false =>
        exact discard_release_state_keeps Phase.invariant (fun _ r pid h => h.discard r pid) _ _
    | true =>
        exact discard_release_state_keeps Recovered.phase (fun _ r pid h => h.discard r pid) _ _
  have hclear : Keeps (Ends Host.Sound (Recovered (ρ := ρ)) restored)
      (clear_if restored) fun _ => Host.Sound := by
    cases restored with
    | false => exact Keeps.pure (fun _ h => h) fun _ h => h
    | true =>
        refine Keeps.of_exists fun t => Keeps.of_exists fun j => ?_
        exact clear_restored_journal_keeps.post
          (Ends.weaken Settled.phase.sound Restored.phase.sound)
  refine hdiscard.bind fun _ => hclear.bind fun recovered => ?_
  refine Keeps.ite (fun _ => hreturn status) fun _ => ?_
  exact (Keeps.log Phase.invariant _).bind fun _ => (hreturn 1).pre fun _ h => h.1

theorem main_release_keeps (sha256 : List UInt8 → BitVec 256) (i : Invocation ρ)
    (operation : Operation) (target : ρ) (old old_previous : Option ρ) :
    Keeps (fun h => (AtRest h ∧ h.files (.link .current) = old.map .link) ∧
        h.files (.link .previous) = old_previous.map .link)
      (main.release sha256 i operation target old old_previous) fun _ => Host.Sound := by
  have hread : Phase fun h : Host ρ => (AtRest h ∧ h.files (.link .current) = old.map .link) ∧
      h.files (.link .previous) = old_previous.map .link :=
    (AtRest.phase.file id _).file id _
  have hreturn : ∀ {P : Host ρ → Prop} (n : ℕ), (∀ h, P h → h.Sound) →
      Keeps P (return n : Sh ρ ℕ) fun _ => Host.Sound := fun _ hP => Keeps.pure hP hP
  refine Keeps.ite (fun _ => ?_) fun _ => ?_
  · exact (Keeps.die (T := fun _ => Host.Sound) hread hread.sound).bind fun _ =>
      hreturn 1 fun _ h => h
  refine Keeps.test (Keeps.externals hread _) ?_ (hreturn 1 hread.sound)
  refine (prepare_recovery_path_keeps hread operation target old old_previous).bind fun mode => ?_
  cases mode with
  | none => exact hreturn 1 fun h hn => hread.sound h hn.1
  | some mode =>
      refine Keeps.of_and fun hmode => ?_
      have hold : old ≠ none := hmode (by simp)
      refine (remember_keeps hold).bind fun _ => Keeps.of_exists fun t => ?_
      refine Keeps.of_and fun hbegun => ?_
      obtain rfl := hbegun.candidate
      have hpayload : i.payload = t.payload := hbegun.payload.symm
      rw [hpayload] at hbegun ⊢
      refine (prepare_transaction_journal_keeps sha256 hbegun).bind fun loaded => ?_
      cases loaded with
      | none => exact hreturn 1 fun _ h => h.1
      | some j =>
          refine Keeps.pre (P := Backed t j) ?_ fun _ h => h.2 j rfl
          refine Keeps.test (Keeps.log Backed.phase _) ?_
            (hreturn 1 fun h hn => Backed.phase.sound h hn.1)
          refine Keeps.pre (P := Ready t j) ?_ fun _ h => ⟨h.1, h.2 rfl⟩
          refine Keeps.test (activate_and_commit_candidate_keeps hbegun)
            (hreturn 0 fun _ h => h) ?_
          exact (Keeps.log Phase.invariant _).bind fun _ => hreturn 1 fun _ h => h.1

theorem main_keeps (sha256 : List UInt8 → BitVec 256) (i : Invocation ρ) :
    Keeps Host.Sound (main sha256 i) fun _ => Host.Sound := by
  have hreturn : ∀ {P : Host ρ → Prop} (n : ℕ), (∀ h, P h → h.Sound) →
      Keeps P (return n : Sh ρ ℕ) fun _ => Host.Sound := fun _ hP => Keeps.pure hP hP
  unfold main
  refine Keeps.test (Keeps.externals Phase.invariant _) ?_ (hreturn 1 fun _ h => h)
  cases i.request with
  | recoveryOnly =>
      exact Keeps.test (run_recovery_only_keeps sha256) (hreturn 0 fun _ h => h)
        (hreturn 1 fun _ h => h)
  | release requested operation =>
      refine Keeps.test (recover_unfinished_transaction_keeps sha256 fun _ h => h) ?_
        (hreturn 1 fun _ h => h)
      refine Keeps.pre (P := AtRest) ?_ ?_
      · refine (Keeps.resolve_release_dir AtRest.phase requested).bind fun resolved => ?_
        cases resolved with
        | none => exact hreturn 1 AtRest.phase.sound
        | some target =>
            refine (Keeps.assign AtRest.phase _).bind fun _ => ?_
            refine (Keeps.resolve_optional_release_link AtRest.phase .current).bind fun old => ?_
            cases old with
            | none => exact hreturn 1 fun h hn => AtRest.phase.sound h hn.1
            | some old =>
                have hcurrent := AtRest.phase.file (q := .link .current) id (old.map Node.link)
                refine Keeps.pre (P := fun h => AtRest h ∧ h.files (.link .current) =
                  old.map Node.link) ?_ fun h hn => ⟨hn.1, hn.2 old rfl⟩
                refine (Keeps.resolve_optional_release_link hcurrent .previous).bind fun prev => ?_
                cases prev with
                | none => exact hreturn 1 fun h hn => hcurrent.sound h hn.1
                | some old_previous =>
                    exact (main_release_keeps sha256 i operation target old old_previous).pre
                      fun h hn => ⟨hn.1, hn.2 old_previous rfl⟩
      · rintro h (⟨t, hsettled⟩ | hrest)
        · exact hsettled.atRest
        · exact hrest

/-- **Release transactions are atomic.** In every sequence of invocations, interrupted or killed
anywhere, in which no `python3` fails and leaves an acceptable part of the new state file: while
there is no journal, everything is as before the last transaction or that transaction is committed; a
recovery that reports success has put everything back; and `current` points to the old release or to
the candidate at every moment. -/
theorem release_transaction_atomic (sha256 : List UInt8 → BitVec 256)
    {tr : List (World (Cmd ρ) (Shell ρ) (Host ρ) × Event Outcome (Invocation ρ))}
    {w : World (Cmd ρ) (Shell ρ) (Host ρ)}
    (h : (releases sha256).Run (fun _ w e _ => (service sha256).Allowed w e) tr w) :
    ((service sha256).hostOf w).Atomic := by
  have hweaken : ∀ {p : Sh ρ ℕ} {s : Shell ρ},
      p.wp commands (fun s => s.host.Sound) (fun _ s => s.host.Sound) s →
      p.wp commands (fun s => s.host.Sound) (fun _ _ => True) s :=
    fun hp => wp_mono hp fun _ _ _ => trivial
  refine Host.Sound.atomic (Service.invariant h ?_ ?_ ?_)
  · rintro w ⟨host, rfl, hjournal, hnone⟩
    exact .inl ⟨hnone, hjournal⟩
  · exact fun i host hsound => hweaken (main_keeps sha256 i _ hsound)
  · exact fun status s hsound => hweaken (release_exit_handler_keeps sha256 status s hsound)

/-- A host on which the release `false` is current. -/
def sampleHost : Host Bool where
  files := Function.update (fun _ => none) (.link .current) (some (.link false))
  output := []
  transaction := none

/-- A deployment of the release `true`. -/
def sampleInvocation : Invocation Bool where
  pid := 1
  request := .release (.directory true) .deploy
  payload := ⟨[123, 125], 0o444⟩

/-- The checksum plays no part, as the candidate has no state file. -/
abbrev sampleService : Service (Cmd Bool) (Shell Bool) Outcome (Host Bool) (Invocation Bool) :=
  service fun _ => 0

/-- The host after these events. -/
def sampleResult (events : List (Event Outcome (Invocation Bool))) : Option (Host Bool) :=
  (System.exec sampleService.next (.idle sampleHost) events).map sampleService.hostOf

/-- What a `python3` leaves that fails before it has written anything. -/
def emptyFile : File := ⟨[], 0o600⟩

/-- The `python3` of a deployment fails and leaves an empty file, which is refused once both links
have been promoted; the exit handler is killed in the middle of its recovery, and a later
invocation recovers. -/
def recoveredEvents : List (Event Outcome (Invocation Bool)) :=
  .start sampleInvocation ::
    (List.replicate 43 (.outcome .ok) ++ .outcome (.failed (some emptyFile)) ::
      (List.replicate 24 (.outcome .ok) ++ .kill ::
        .start { sampleInvocation with pid := 2, request := .recoveryOnly } ::
          List.replicate 31 (.outcome .ok)))

omit [DecidableEq ρ] in
/-- A file without content is never committed. -/
theorem stateFileWhole_emptyFile (c : Cmd ρ) : StateFileWhole c (.failed (some emptyFile)) := by
  cases c with
  | python3 path payload => exact .inr rfl
  | _ => trivial

/-- A deployment that fails after its promotion, whose recovery is killed and made up for by a later
invocation, leaves everything as it was. -/
theorem release_transaction_atomic_recovered :
    ∃ tr w, (releases fun _ => 0).Run (fun _ w e _ => (service fun _ => 0).Allowed w e) tr w ∧
      ((service fun _ => 0).hostOf w).files (.link .current) = some (.link false) ∧
      ((service (ρ := Bool) fun _ => 0).hostOf w).Reports ∧
      ((service (ρ := Bool) fun _ => 0).hostOf w).Atomic := by
  obtain ⟨w, hw⟩ := Option.isSome_iff_exists.mp (by decide +kernel :
    (System.exec sampleService.next (.idle sampleHost) recoveredEvents).isSome = true)
  have hcheck : (sampleResult recoveredEvents).map
      (fun h => (h.files (.link .current), h.output.head?)) =
      some (some (.link false),
        some (.recovered "release_recovery_only=PASS-LIVE recovered=true")) := by
    decide +kernel
  rw [sampleResult, hw] at hcheck
  simp only [Option.map_some, Option.some.injEq, Prod.mk.injEq] at hcheck
  have hrun : (releases fun _ => 0).Run
      (fun _ w e _ => sampleService.Allowed w e) (System.traceOf sampleService.next
        (.idle sampleHost) recoveredEvents) w := by
    refine ⟨.idle sampleHost, ⟨sampleHost, rfl, rfl, rfl⟩, System.exec_path_of hw fun e he => ?_⟩
    refine Service.allowed_of fun c s e' houtcome => ?_
    have hmem : Event.outcome e' ∈ recoveredEvents := houtcome ▸ System.mem_traceOf he
    have hcases : e' = .ok ∨ e' = .failed (some emptyFile) ∨ e' = .ok := by
      simpa [recoveredEvents] using hmem
    rcases hcases with rfl | rfl | rfl
    · cases c <;> trivial
    · exact stateFileWhole_emptyFile c
    · cases c <;> trivial
  exact ⟨_, w, hrun, hcheck.1, ⟨_, hcheck.2⟩, release_transaction_atomic _ hrun⟩

/-- A deployment all of whose commands succeed but its `python3`, which leaves a part of the state
file. -/
def truncatedEvents : List (Event Outcome (Invocation Bool)) :=
  .start sampleInvocation ::
    (List.replicate 43 (.outcome .ok) ++ .outcome (.failed (some ⟨[123], 0o600⟩)) ::
      List.replicate 19 (.outcome .ok))

/-- The `python3` of a deployment fails after a part of the state file has been written: the
deployment goes on and commits that part. -/
theorem truncated_state_committed :
    ∃ tr w, (releases fun _ => 0).Run System.always tr w ∧
      ¬ ((service (ρ := Bool) fun _ => 0).hostOf w).Atomic := by
  obtain ⟨w, hw⟩ := Option.isSome_iff_exists.mp (by decide +kernel :
    (System.exec sampleService.next (.idle sampleHost) truncatedEvents).isSome = true)
  have hcheck : (sampleResult truncatedEvents).map (fun h =>
      (h.files .journal, h.files (.link .current), h.files (.state true), h.transaction)) =
      some (none, some (.link true), some (.file ⟨[123], 0o600⟩),
        some (sampleHost.snapshot true sampleInvocation.payload)) := by
    decide +kernel
  rw [sampleResult, hw] at hcheck
  simp only [Option.map_some, Option.some.injEq, Prod.mk.injEq] at hcheck
  obtain ⟨hjournal, hcurrent, hstate, htransaction⟩ := hcheck
  refine ⟨_, w, ⟨.idle sampleHost, ⟨sampleHost, rfl, rfl, rfl⟩, System.exec_path hw⟩, ?_⟩
  intro hatomic
  rcases hatomic.settled _ htransaction hjournal with hformer | hcommitted
  · have hsame := hformer.current.symm.trans hcurrent
    revert hsame
    decide
  · have hwhole := hcommitted.state.symm.trans hstate
    revert hwhole
    decide

end Odirag.Release
