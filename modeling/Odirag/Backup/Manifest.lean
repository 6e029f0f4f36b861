import Odirag.Foundations.Rows
import Mathlib.Logic.Function.Basic

/-!
# The manifest of the backups

Reference: `deploy/production/scripts/backup-common.sh`, `verify-backup-manifest.sh`.

A backup script writes its artifact and appends a row with its size and its checksum to a table of
tab-separated fields; the verification reads the table back and looks at every artifact. What it says
is what became of the artifacts since they were recorded (`verify_spec`).
-/

namespace Odirag.Backup

/-- A field that `read` takes whole. -/
abbrev Field := { field : Text // Rows.IsWord '\t' field }

/-- The arguments of `record_manifest`. A backup id is a time. -/
structure Recorded where
  backupId : Field
  timestamp : Field
  component : Field
  source : Field
  artifact : Field
  version : Field
  restoreProcedure : Field
  retention : Field
  not_header : backupId.1 ≠ str "backup_id"

/-- What `stat` and `sha256sum` say of a file. -/
structure Digests (α : Type) where
  sizeFile : α → Field
  sha256File : α → Field

/-- The manifest and the other files of a host. -/
structure Disk (α : Type) where
  manifest : Option Text
  files : Text → Option α

/-- The names of the columns. -/
def columns : List Text :=
  [str "backup_id", str "timestamp", str "component", str "source", str "artifact",
    str "size_bytes", str "sha256", str "software_version", str "restore_procedure",
    str "retention_class"]

variable {α : Type} (G : Digests α)

/-- The manifest of `ensure_backup_layout`. -/
def ensureBackupLayout (disk : Disk α) : Disk α :=
  { disk with manifest := some (disk.manifest.getD (Rows.row '\t' columns)) }

/-- The fields of a row, for an artifact with this content. -/
def Recorded.fields (r : Recorded) (content : α) : List Text :=
  [r.backupId, r.timestamp, r.component, r.source, r.artifact, G.sizeFile content,
    G.sha256File content, r.version, r.restoreProcedure, r.retention]

/-- `record_manifest`, and whether it goes through. -/
def recordManifest (r : Recorded) (disk : Disk α) : Bool × Disk α :=
  match disk.files r.artifact with
  | none => (false, disk)
  | some content =>
      (true, { disk with
        manifest := some (disk.manifest.getD [] ++ Rows.row '\t' (r.fields G content)) })

/-- How the verification ends. -/
inductive Verdict
  | passed (artifactsVerified : ℕ)
  | noArtifact
  | missing (artifact : Text)
  | sizeMismatch (artifact : Text)
  | shaMismatch (artifact : Text)
  | noRows
deriving DecidableEq, Repr

/-- The artifact that the verification complains of. -/
def Verdict.accused : Verdict → Option Text
  | .missing artifact | .sizeMismatch artifact | .shaMismatch artifact => some artifact
  | _ => none

/-- The loop over the lines. -/
def verifyRows (files : Text → Option α) : List Text → ℕ → Verdict
  | [], checked => if 0 < checked then .passed checked else .noRows
  | line :: lines, checked =>
      match Rows.readFields '\t' 10 line with
      | [backupId, _, _, _, artifact, size, expectedSha, _, _, _] =>
          if backupId = str "backup_id" then verifyRows files lines checked
          else if artifact = [] then .noArtifact
          else
            match files artifact with
            | none => .missing artifact
            | some content =>
                if (G.sizeFile content).1 ≠ size then .sizeMismatch artifact
                else if (G.sha256File content).1 ≠ expectedSha then .shaMismatch artifact
                else verifyRows files lines (checked + 1)
      | _ => .noArtifact

/-- `verify-backup-manifest.sh`. -/
def verifyBackupManifest (disk : Disk α) : Verdict :=
  let disk := ensureBackupLayout disk
  verifyRows G disk.files (Rows.lines (disk.manifest.getD [])) 0

/-- What happens to a host: a backup script starts, records an artifact, or any file but the manifest
is written or taken away. -/
inductive Happening (α : Type)
  | layout
  | record (r : Recorded)
  | write (path : Text) (content : α)
  | remove (path : Text)

/-- A host and what its backup scripts have recorded, newest first. -/
structure Host (α : Type) where
  disk : Disk α
  recorded : List (Recorded × α) := []

/-- One of these. -/
def Host.step (host : Host α) : Happening α → Host α
  | .layout => { host with disk := ensureBackupLayout host.disk }
  | .record r =>
      match host.disk.files r.artifact with
      | none => { host with disk := (recordManifest G r host.disk).2 }
      | some content => ⟨(recordManifest G r host.disk).2, (r, content) :: host.recorded⟩
  | .write path content =>
      { host with disk :=
          { host.disk with files := Function.update host.disk.files path (some content) } }
  | .remove path =>
      { host with disk := { host.disk with files := Function.update host.disk.files path none } }

/-- All of them, from a host without a manifest. -/
def runHost (files : Text → Option α) (happenings : List (Happening α)) : Host α :=
  happenings.foldl (Host.step G) ⟨⟨none, files⟩, []⟩

variable {G}

/-! ## Rows -/

theorem isWord_columns : ∀ field ∈ columns, Rows.IsWord '\t' field := by
  decide

theorem Recorded.isWord_fields (r : Recorded) (content : α) :
    ∀ field ∈ r.fields G content, Rows.IsWord '\t' field := by
  simp only [fields, List.forall_mem_cons]
  exact ⟨r.backupId.2, r.timestamp.2, r.component.2, r.source.2, r.artifact.2,
    (G.sizeFile content).2, (G.sha256File content).2, r.version.2, r.restoreProcedure.2,
    r.retention.2, by simp⟩

/-- The artifact is as it was when it was recorded, as far as size and checksum say. -/
def Intact (G : Digests α) (files : Text → Option α) (entry : Recorded × α) : Prop :=
  ∃ content, files entry.1.artifact = some content ∧ G.sizeFile content = G.sizeFile entry.2 ∧
    G.sha256File content = G.sha256File entry.2

/-- The header is passed over. -/
theorem verifyRows_columns (files : Text → Option α) (lines : List Text) (checked : ℕ) :
    verifyRows G files (['\t'].intercalate columns :: lines) checked =
      verifyRows G files lines checked := by
  have hread := Rows.readFields_row isWord_columns
  rw [verifyRows]
  rw [show Rows.readFields '\t' 10 (['\t'].intercalate columns) = columns from hread]
  exact if_pos rfl

/-- A row counts if its artifact is intact, and ends the verification otherwise. -/
theorem verifyRows_fields (files : Text → Option α) (entry : Recorded × α) (lines : List Text)
    (checked n : ℕ) :
    verifyRows G files (['\t'].intercalate (entry.1.fields G entry.2) :: lines) checked =
        .passed n ↔
      Intact G files entry ∧ verifyRows G files lines (checked + 1) = .passed n := by
  have hread : Rows.readFields '\t' 10 (['\t'].intercalate (entry.1.fields G entry.2)) =
      entry.1.fields G entry.2 := Rows.readFields_row (entry.1.isWord_fields entry.2)
  rw [verifyRows, hread]
  simp only [Recorded.fields, if_neg entry.1.not_header, if_neg entry.1.artifact.2.1]
  unfold Intact
  cases hfile : files entry.1.artifact.1 with
  | none => simp
  | some content =>
      simp only [Option.some.injEq, exists_eq_left', Subtype.ext_iff]
      split_ifs with hsize hsha
      · simp [hsize]
      · simp [hsha]
      · simp [not_not.mp hsize, not_not.mp hsha]

theorem verifyRows_iff (files : Text → Option α) (entries : List (Recorded × α)) (checked n : ℕ) :
    verifyRows G files (entries.map fun entry => ['\t'].intercalate (entry.1.fields G entry.2))
        checked = .passed n ↔
      (∀ entry ∈ entries, Intact G files entry) ∧ n = checked + entries.length ∧ 0 < n := by
  induction entries generalizing checked with
  | nil =>
      simp only [List.map_nil, verifyRows]
      split_ifs with hpos
      · simp only [Verdict.passed.injEq, List.not_mem_nil, false_implies, implies_true, true_and,
          List.length_nil]
        omega
      · simp only [List.not_mem_nil, false_implies, implies_true, true_and,
          List.length_nil, false_iff]
        omega
  | cons entry entries ih =>
      rw [List.map_cons, verifyRows_fields, ih (checked + 1), List.forall_mem_cons,
        List.length_cons]
      constructor
      · rintro ⟨hentry, hentries, hn, hpos⟩
        exact ⟨⟨hentry, hentries⟩, by omega, hpos⟩
      · rintro ⟨⟨hentry, hentries⟩, hn, hpos⟩
        exact ⟨hentry, hentries, by omega, hpos⟩

/-- What the verification complains of was recorded and is not intact. -/
theorem accused_verifyRows (files : Text → Option α) (entries : List (Recorded × α)) (checked : ℕ)
    {artifact : Text}
    (h : (verifyRows G files (entries.map fun entry =>
      ['\t'].intercalate (entry.1.fields G entry.2)) checked).accused = some artifact) :
    ∃ entry ∈ entries, entry.1.artifact.1 = artifact ∧ ¬ Intact G files entry := by
  induction entries generalizing checked with
  | nil =>
      simp only [List.map_nil, verifyRows] at h
      split_ifs at h <;> cases h
  | cons entry entries ih =>
      have hread : Rows.readFields '\t' 10 (['\t'].intercalate (entry.1.fields G entry.2)) =
          entry.1.fields G entry.2 := Rows.readFields_row (entry.1.isWord_fields entry.2)
      rw [List.map_cons, verifyRows, hread] at h
      simp only [Recorded.fields, if_neg entry.1.not_header, if_neg entry.1.artifact.2.1] at h
      have hfirst : ¬ Intact G files entry → entry.1.artifact.1 = artifact →
          ∃ e ∈ entry :: entries, e.1.artifact.1 = artifact ∧ ¬ Intact G files e :=
        fun hbroken heq => ⟨entry, List.mem_cons_self, heq, hbroken⟩
      cases hfile : files entry.1.artifact.1 with
      | none =>
          rw [hfile] at h
          refine hfirst ?_ (Option.some_inj.mp h)
          rintro ⟨content, hcontent, -⟩
          rw [hfile] at hcontent
          cases hcontent
      | some content =>
          have hsame : ∀ {content'}, files entry.1.artifact.1 = some content' →
              content' = content := fun hcontent => Option.some_inj.mp (hcontent.symm.trans hfile)
          simp only [hfile] at h
          split_ifs at h with hsize hsha
          · refine hfirst ?_ (Option.some_inj.mp h)
            rintro ⟨content', hcontent, heq, -⟩
            rw [hsame hcontent] at heq
            exact hsize (congrArg Subtype.val heq)
          · refine hfirst ?_ (Option.some_inj.mp h)
            rintro ⟨content', hcontent, -, heq⟩
            rw [hsame hcontent] at heq
            exact hsha (congrArg Subtype.val heq)
          · obtain ⟨e, he, hartifact, hbroken⟩ := ih (checked + 1) h
            exact ⟨e, List.mem_cons_of_mem _ he, hartifact, hbroken⟩

/-! ## Runs -/

/-- The manifest has the rows that were recorded, after the header or without it. -/
def Host.Consistent (G : Digests α) (host : Host α) : Prop :=
  (host.disk.manifest = none ∧ host.recorded = []) ∨
    ∃ header, (header = [] ∨ header = [columns]) ∧
      host.disk.manifest = some ((header ++ host.recorded.reverse.map fun entry =>
        entry.1.fields G entry.2).flatMap (Rows.row '\t'))

theorem Host.Consistent.step {host : Host α} (h : host.Consistent G) (happening : Happening α) :
    (host.step G happening).Consistent G := by
  cases happening with
  | layout =>
      refine .inr ?_
      rcases h with ⟨hnone, hempty⟩ | ⟨header, hheader, hmanifest⟩
      · exact ⟨[columns], .inr rfl, by simp [Host.step, ensureBackupLayout, hnone, hempty]⟩
      · exact ⟨header, hheader, by simp [Host.step, ensureBackupLayout, hmanifest]⟩
  | record r =>
      cases hfile : host.disk.files r.artifact with
      | none =>
          simp only [Host.step, hfile, recordManifest]
          exact h
      | some content =>
          refine .inr ?_
          simp only [Host.step, hfile, recordManifest]
          rcases h with ⟨hnone, hempty⟩ | ⟨header, hheader, hmanifest⟩
          · exact ⟨[], .inl rfl, by simp [hnone, hempty]⟩
          · exact ⟨header, hheader, by simp [hmanifest]⟩
  | write path content => exact h
  | remove path => exact h

theorem Host.Consistent.run {host : Host α} (h : host.Consistent G) (happenings : List (Happening α)) :
    (happenings.foldl (Host.step G) host).Consistent G := by
  induction happenings generalizing host with
  | nil => exact h
  | cons happening happenings ih => exact ih (h.step happening)

/-- The verification reads the rows that were recorded. -/
theorem Host.Consistent.verify {host : Host α} (h : host.Consistent G) :
    verifyBackupManifest G host.disk = verifyRows G host.disk.files
      (host.recorded.reverse.map fun entry => ['\t'].intercalate (entry.1.fields G entry.2)) 0 := by
  -- The rows behind this header are read as they were written.
  have hrows : ∀ header, header = [] ∨ header = [columns] →
      verifyRows G host.disk.files (Rows.lines ((header ++ host.recorded.reverse.map fun entry =>
        entry.1.fields G entry.2).flatMap (Rows.row '\t'))) 0 =
      verifyRows G host.disk.files (host.recorded.reverse.map fun entry =>
        ['\t'].intercalate (entry.1.fields G entry.2)) 0 := by
    intro header hheader
    rw [Rows.lines_rows ?_ (by decide), List.map_append, List.map_map]
    · rcases hheader with rfl | rfl
      · rfl
      · exact verifyRows_columns _ _ _
    · intro fields hfields
      rcases List.mem_append.mp hfields with hfields | hfields
      · rcases hheader with rfl | rfl
        · cases hfields
        · rw [List.mem_singleton.mp hfields]
          exact isWord_columns
      · obtain ⟨entry, -, rfl⟩ := List.mem_map.mp hfields
        exact entry.1.isWord_fields entry.2
  rcases h with ⟨hnone, hempty⟩ | ⟨header, hheader, hmanifest⟩
  · have hheader := hrows [columns] (.inr rfl)
    rw [hempty] at hheader ⊢
    simpa [verifyBackupManifest, ensureBackupLayout, hnone] using hheader
  · rw [verifyBackupManifest, ensureBackupLayout, hmanifest]
    exact hrows header hheader

/-- Whatever has been recorded, written and taken away on a host: the verification passes exactly if
something was recorded and every recorded artifact is there with the size and the checksum that it
had then, and counts the records; an artifact that it complains of was recorded and is not. -/
theorem verify_spec (G : Digests α) (files : Text → Option α) (happenings : List (Happening α)) :
    let host := runHost G files happenings
    (∀ n, verifyBackupManifest G host.disk = .passed n ↔
      (∀ entry ∈ host.recorded, ∃ content, host.disk.files entry.1.artifact = some content ∧
        G.sizeFile content = G.sizeFile entry.2 ∧ G.sha256File content = G.sha256File entry.2) ∧
      n = host.recorded.length ∧ 0 < n) ∧
    ∀ artifact, (verifyBackupManifest G host.disk).accused = some artifact →
      ∃ entry ∈ host.recorded, entry.1.artifact.1 = artifact ∧
        ¬ ∃ content, host.disk.files artifact = some content ∧
          G.sizeFile content = G.sizeFile entry.2 ∧ G.sha256File content = G.sha256File entry.2 := by
  intro host
  have hconsistent : host.Consistent G := Host.Consistent.run (.inl ⟨rfl, rfl⟩) happenings
  rw [hconsistent.verify]
  refine ⟨fun n => ?_, fun artifact haccused => ?_⟩
  · rw [verifyRows_iff, Nat.zero_add, List.length_reverse]
    simp only [List.mem_reverse]
    exact Iff.rfl
  · obtain ⟨entry, hentry, rfl, hbroken⟩ := accused_verifyRows _ _ _ haccused
    exact ⟨entry, List.mem_reverse.mp hentry, rfl, hbroken⟩

end Odirag.Backup
