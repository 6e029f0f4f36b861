import Odirag.Release.Common

/-!
# Deploying, rolling back and recovering

Reference: `deploy/production/scripts/deploy-release.sh`.

`main` is the script from the point where its arguments are parsed, `release_exit_handler` its
`EXIT` trap. A signal, or a command that fails where `set -e` is on, is an `interrupt` of the
service: it hands over to the exit handler between two steps. The handler removes the traps first,
so that a second signal ends it.
-/

namespace Odirag.Release

open Script

variable {ρ : Type} [DecidableEq ρ]

inductive Operation
  | deploy
  | rollback
  deriving DecidableEq, Repr

inductive Request (ρ : Type)
  | recoveryOnly
  | release (requested : Requested ρ) (operation : Operation)

/-- One invocation: its process id, its arguments, and the state file that its `python3` is given
to write (which holds the duration and the time of the verification). -/
structure Invocation (ρ : Type) where
  pid : ℕ
  request : Request ρ
  payload : File

/-- An assignment. -/
def assign (f : Vars ρ → Vars ρ) : Sh ρ Unit := do
  let _ ← issue (.assign f)

def restore_original_from_loaded_journal (sha256 : List UInt8 → BitVec 256) (pid : ℕ)
    (j : Journal ρ) : Sh ρ Bool := do
  match j.mode with
  | .release =>
      unless ← externals ["load_release_manifest", "validate_loaded_recovery_descriptor"] do
        return false
      unless ← external "assert_loaded_journal_image_identity" do
        return ← release_die "recovery image identity changed after transaction preparation"
      unless ← externals ["activate_loaded_release false", "verify_loaded_release false"] do
        return false
  | .legacyBootstrap =>
      unless ← externals ["load_release_manifest", "activate_legacy_recovery"] do return false
  unless ← restore_candidate_state_from_journal sha256 j do return false
  unless ← restore_release_links pid j.original_current j.original_previous do return false
  unless (← resolve_optional_release_link .current) = some (some j.original_current) do
    return ← release_die "automatic recovery current pointer mismatch"
  issue (.print (.recovered "automatic recovery succeeded"))

def recover_unfinished_transaction (sha256 : List UInt8 → BitVec 256) (pid : ℕ) :
    Sh ρ Bool := do
  if (← node .journal).isNone then return true
  let _ ← release_log
    "unfinished release transaction detected; restoring its recorded original release"
  match ← load_release_journal with
  | none => return false
  | some j =>
      unless ← restore_original_from_loaded_journal sha256 pid j do return false
      unless ← clear_release_journal do return false
      issue (.print (.recovered "unfinished_release_recovery=PASS-LIVE"))

def run_recovery_only (sha256 : List UInt8 → BitVec 256) (pid : ℕ) : Sh ρ Bool := do
  if (← node .journal).isNone then
    let _ ← release_log "release_recovery_only=PASS-CONFIG recovered=false reason=no-journal"
    return true
  unless ← recover_unfinished_transaction sha256 pid do return false
  issue (.print (.recovered "release_recovery_only=PASS-LIVE recovered=true"))

/-- The part of `prepare_recovery_path` that looks at the current release. -/
def recovery_mode_for (operation : Operation) (target : ρ) (old_previous : Option ρ) :
    Sh ρ (Option Mode) := do
  if operation = .rollback then
    unless some target = old_previous do
      let _ ← release_die "rollback target must be the locked previous release"
      return none
    unless ← external "-f manifest.env" do
      let _ ← release_die "rollback requires a manifest-backed current release"
      return none
    unless ← external "load_release_manifest" do return none
    unless ← external "validate_loaded_recovery_descriptor" do
      let _ ← release_die "current release recovery descriptor is invalid"
      return none
    return some .release
  if ← external "-f manifest.env" then
    unless ← external "load_release_manifest" do return none
    unless ← external "verify_loaded_release true" do
      let _ ← release_die "current release is not a verified rollback target"
      return none
    return some .release
  unless ← external "capture_legacy_recovery_state" do return none
  return some .legacyBootstrap

def prepare_recovery_path (operation : Operation) (target : ρ) (old old_previous : Option ρ) :
    Sh ρ (Option Mode) := do
  if old.isNone then
    let _ ← release_die "deployment requires a current release that can be recovered"
    return none
  match ← recovery_mode_for operation target old_previous with
  | none => return none
  | some mode =>
      unless ← external "load_release_manifest" do return none
      unless ← external "run_release_integrity_check" do
        let _ ← release_die "pre-deployment production data baseline failed"
        return none
      if ← release_log "recovery_preflight=PASS-CONFIG" then return some mode else return none

/-- The checksum of the candidate's state file, `some none` if there is no such file. -/
def candidate_state_checksum (sha256 : List UInt8 → BitVec 256) (target : ρ) :
    Sh ρ (Option (Option (BitVec 256))) := do
  match ← node (.state target) with
  | none => return some none
  | some _ =>
      unless ← validate_file_permissions (.state target) do return none
      match ← sha256sum sha256 (.state target) with
      | none => return none
      | some digest => return some (some digest)

def prepare_transaction_journal (sha256 : List UInt8 → BitVec 256) (pid : ℕ) (mode : Mode)
    (target : ρ) (old old_previous : Option ρ) : Sh ρ (Option (Journal ρ)) := do
  unless ← clear_orphan_candidate_state_backup target do return none
  match ← candidate_state_checksum sha256 target with
  | none => return none
  | some state_sha =>
      unless ← write_release_journal pid mode target old old_previous state_sha do return none
      match ← load_release_journal with
      | none => return none
      | some j =>
          assign fun v => { v with transaction_started := true }
          unless ← prepare_candidate_state_backup sha256 target j do return none
          return some j

def activate_and_commit_candidate (pid : ℕ) (target : ρ) (old : Option ρ) (j : Journal ρ)
    (payload : File) : Sh ρ Bool := do
  unless ← external "chmod 0444 manifest.env" do
    return ← release_die "candidate manifest protection failed"
  unless ← external "activate_loaded_release true" do
    return ← release_die "candidate activation failed"
  unless ← external "verify_loaded_release true" do
    return ← release_die "candidate integrity/provider validation failed"
  unless ← external "date" do
    return ← release_die "candidate duration timestamp failed"
  unless ← external "awk" do
    return ← release_die "candidate duration calculation failed"
  assign fun v => { v with pending_state := some (.pending target pid) }
  unless ← prepare_release_state pid target payload do
    return ← release_die "candidate state preparation failed"
  unless ← promote_release_links pid target old do
    return ← release_die "candidate pointer promotion failed"
  unless ← commit_release_state target (.pending target pid) do
    return ← release_die "candidate state commit failed"
  assign fun v => { v with pending_state := none }
  assign fun v => { v with candidate_state_committed := true }
  unless ← clear_release_journal do
    return ← release_die "release journal commit failed"
  assign fun v => { v with transaction_committed := true }
  assign fun v => { v with transaction_started := false }
  unless ← discard_candidate_state_backup j do
    let _ ← release_log "WARNING: committed release retained an orphan state backup"
  release_log "release=PASS-LIVE"

/-- The handler's `load_release_journal` and, if that succeeds, its restore. -/
def attempt_recovery (sha256 : List UInt8 → BitVec 256) (pid : ℕ) : Sh ρ Bool := do
  match ← load_release_journal with
  | none => return false
  | some j => restore_original_from_loaded_journal sha256 pid j

/-- The handler clears the journal if everything has been restored. -/
def clear_if : Bool → Sh ρ Bool
  | true => clear_release_journal
  | false => pure false

def release_exit_handler (sha256 : List UInt8 → BitVec 256) (status : ℕ) : Sh ρ ℕ := do
  let v ← inspect Shell.vars
  if v.transaction_started && !v.transaction_committed then
    if (← node .journal).isNone && v.candidate_state_committed then
      assign fun v => { v with transaction_committed := true }
      return status
    if v.recovery_in_progress then return status
    assign fun v => { v with recovery_in_progress := true }
    let _ ← release_log "candidate transaction interrupted; attempting automatic recovery"
    let restored ← attempt_recovery sha256 v.pid
    let _ ← discard_release_state v.target v.pending_state
    unless ← clear_if restored do
      let _ ← release_log
        "ERROR: candidate failed and automatic recovery did not complete; journal retained"
      return 1
  return status

def main (sha256 : List UInt8 → BitVec 256) (i : Invocation ρ) : Sh ρ ℕ := do
  unless ← externals ["release_preflight", "acquire_release_lock"] do return 1
  match i.request with
  | .recoveryOnly =>
      if ← run_recovery_only sha256 i.pid then return 0 else return 1
  | .release requested operation =>
      unless ← recover_unfinished_transaction sha256 i.pid do return 1
      match ← resolve_release_dir requested with
      | none => return 1
      | some target =>
          assign fun v => { v with target := some target }
          match ← resolve_optional_release_link .current with
          | none => return 1
          | some old =>
              match ← resolve_optional_release_link .previous with
              | none => return 1
              | some old_previous =>
                  release i operation target old old_previous
where
  /-- The script after `target`, `old` and `old_previous` are known. -/
  release (i : Invocation ρ) (operation : Operation) (target : ρ) (old old_previous : Option ρ) :
      Sh ρ ℕ := do
    if some target = old then
      let _ ← release_die "target release is already current"
      return 1
    unless ← externals ["date", "load_release_manifest"] do return 1
    match ← prepare_recovery_path operation target old old_previous with
    | none => return 1
    | some mode =>
        let _ ← issue (.remember target i.payload)
        match ← prepare_transaction_journal sha256 i.pid mode target old old_previous with
        | none => return 1
        | some j =>
            unless ← release_log "activating release" do return 1
            if ← activate_and_commit_candidate i.pid target old j i.payload then return 0
            let _ ← release_log "candidate transaction failed"
            return 1

/-- The outcomes under which the exit status of `python3` need not be looked at: one that fails
leaves no state file, or leaves the whole of it, or leaves one that `commit_release_state` refuses
(an empty one, say). -/
def StateFileWhole : Cmd ρ → Outcome → Prop
  | .python3 _ payload, .failed (some left) =>
      left = payload ∨ (Node.file left : Node ρ).acceptable = false
  | _, _ => True

/-- What the commands of the scripts do. -/
def commands : Commands (Cmd ρ) (Shell ρ) Outcome where
  run := Cmd.run
  allowed c _ e := StateFileWhole c e

/-- The release scripts on a host. -/
def service (sha256 : List UInt8 → BitVec 256) :
    Service (Cmd ρ) (Shell ρ) Outcome (Host ρ) (Invocation ρ) where
  toCommands := commands
  host := Shell.host
  start i h := { host := h, vars := { pid := i.pid } }
  main := main sha256
  handler := release_exit_handler sha256

/-- All sequences of invocations under the lock, from a host without a transaction. -/
def releases (sha256 : List UInt8 → BitVec 256) :
    System (World (Cmd ρ) (Shell ρ) (Host ρ)) (Event Outcome (Invocation ρ)) :=
  System.ofNext (service sha256).next fun w =>
    ∃ h, w = .idle h ∧ h.files .journal = none ∧ h.transaction = none

end Odirag.Release
