import Odirag.Release.Host

/-!
# The functions of the release scripts

Reference: `deploy/production/scripts/release-common.sh`.

Each function keeps its name and returns whether its exit status is 0. Where the source writes
`f || return 1`, the function says `unless ← f do return false`. A command whose status the source
does not test at a place where `set -e` is off is issued with `let _ ←`.
-/

namespace Odirag.Release

open Script

variable {ρ : Type} [DecidableEq ρ]

/-! ## Checks -/

/-- A command that leaves the files of the transaction alone. -/
def external (what : String) : Sh ρ Bool :=
  issue (.external what)

/-- Several of them, up to the first that fails. -/
def externals : List String → Sh ρ Bool
  | [] => pure true
  | what :: rest => do
      unless ← external what do return false
      externals rest

/-- What is at a path. -/
def node (path : Path ρ) : Sh ρ (Option (Node ρ)) :=
  inspect fun s => s.host.files path

def release_log (text : String) : Sh ρ Bool :=
  issue (.print (.log text))

def release_die (text : String) : Sh ρ Bool := do
  let _ ← issue (.print (.error text))
  return false

/-- `-f` and not `-L`. -/
def Node.regular : Node ρ → Bool
  | .link _ => false
  | _ => true

/-- `-s` and not `-L`. -/
def Node.filled : Node ρ → Bool
  | .link _ => false
  | .journal _ => true
  | .file f => !f.bytes.isEmpty

/-- Writable for the group or the world. -/
def Node.shared : Node ρ → Bool
  | .file f => f.mode &&& 0o022 != 0
  | _ => false

/-- What `validate_file_permissions` accepts, the owner apart. -/
def Node.acceptable (n : Node ρ) : Bool :=
  n.filled && !n.shared

def validate_file_permissions (path : Path ρ) : Sh ρ Bool := do
  match ← node path with
  | none => release_die "required file is missing, empty, or a symlink"
  | some n =>
      unless n.filled do return ← release_die "required file is missing, empty, or a symlink"
      unless ← external "stat -c %u" do
        return ← release_die "required file must be owned by root"
      if n.shared then release_die "required file is group/world writable" else return true

/-- `sha256sum`, for the checksum `sha256`. -/
def sha256sum (sha256 : List UInt8 → BitVec 256) (path : Path ρ) :
    Sh ρ (Option (BitVec 256)) := do
  unless ← external "sha256sum" do return none
  match ← node path with
  | some (.file f) => return some (sha256 f.bytes)
  | _ => return none

def validate_sha256_file (sha256 : List UInt8 → BitVec 256) (path : Path ρ)
    (expected : Option (BitVec 256)) : Sh ρ Bool := do
  unless ← validate_file_permissions path do return false
  if (← sha256sum sha256 path) = expected then return true
  release_die "release file checksum mismatch"

/-- How a release is named on the command line: by its directory or by a link to it. -/
inductive Requested (ρ : Type)
  | directory (r : ρ)
  | link (l : Link)

def resolve_release_dir : Requested ρ → Sh ρ (Option ρ)
  | .directory r => do
      if ← external "realpath -e" then return some r else return none
  | .link l => do
      unless ← external "realpath -e" do return none
      match ← node (.link l) with
      | some (.link r) => return some r
      | _ => return none

/-- The release a link points to, `some none` if there is no link. -/
def resolve_optional_release_link (l : Link) : Sh ρ (Option (Option ρ)) := do
  match ← node (.link l) with
  | none => return some none
  | some (.link r) => do
      if ← external "realpath -e" then return some (some r) else return none
  | some _ => do
      let _ ← release_die "release pointer is not a symbolic link"
      return none

/-- Remove a file if it is there and regular. -/
def remove_regular (path : Path ρ) (refusal : String) : Sh ρ Bool := do
  match ← node path with
  | none => return true
  | some n =>
      unless n.regular do return ← release_die refusal
      issue (.rm path)

/-! ## The journal -/

def write_release_journal (pid : ℕ) (mode : Mode) (target : ρ)
    (original_current original_previous : Option ρ) (state_sha : Option (BitVec 256)) :
    Sh ρ Bool := do
  if (← node .journal).isSome then
    return ← release_die "an unfinished release transaction already exists"
  match original_current with
  | none => release_die "release journal values must be non-empty and whitespace-free"
  | some original_current =>
      if (← node (.journalTmp pid)).isSome then
        return ← release_die "temporary release journal already exists"
      let _ ← issue (.filling (.journalTmp pid))
      unless ← issue (.printf (.journalTmp pid)
          { mode
            target_dir := target
            original_current
            original_previous
            target_state_sha256 := state_sha }) do return false
      unless ← external "chmod 0600" do return false
      issue (.mv (.journalTmp pid) .journal)

def load_release_journal : Sh ρ (Option (Journal ρ)) := do
  unless ← validate_file_permissions .journal do return none
  unless ← external "stat -c %a" do
    let _ ← release_die "release journal ownership or mode is unsafe"
    return none
  match ← node .journal with
  | some (.journal (some j)) => do
      if ← external "resolve_release_dir" then return some j else return none
  | _ => do
      let _ ← release_die "release journal key is missing or duplicated"
      return none

def clear_release_journal : Sh ρ Bool :=
  remove_regular .journal "refusing to remove an invalid release journal"

/-! ## The candidate's state file -/

def prepare_candidate_state_backup (sha256 : List UInt8 → BitVec 256) (target : ρ)
    (j : Journal ρ) : Sh ρ Bool := do
  if (← node (.backup target)).isSome then
    return ← release_die "candidate state backup already exists"
  if (← node (.backupTmp target)).isSome then
    return ← release_die "temporary candidate state backup already exists"
  match j.target_state_sha256 with
  | none => return true
  | some _ =>
      unless ← validate_file_permissions (.state target) do return false
      unless (← sha256sum sha256 (.state target)) = j.target_state_sha256 do
        return ← release_die "candidate state changed before backup"
      let _ ← issue (.filling (.backupTmp target))
      unless ← issue (.cp (.state target) (.backupTmp target)) do return false
      unless ← validate_sha256_file sha256 (.backupTmp target) j.target_state_sha256 do
        return false
      issue (.mv (.backupTmp target) (.backup target))

/-- One round of the loop in `clear_orphan_candidate_state_backup`. -/
def clear_orphan (path : Path ρ) : Sh ρ Bool := do
  match ← node path with
  | none => return true
  | some n =>
      if (← node .journal).isSome then
        return ← release_die "candidate state backup belongs to an unfinished transaction"
      unless n.regular do return ← release_die "invalid orphan candidate state backup"
      issue (.rm path)

def clear_orphan_candidate_state_backup (target : ρ) : Sh ρ Bool := do
  unless ← clear_orphan (.backup target) do return false
  clear_orphan (.backupTmp target)

def restore_candidate_state_from_journal (sha256 : List UInt8 → BitVec 256) (j : Journal ρ) :
    Sh ρ Bool := do
  match j.target_state_sha256 with
  | some _ =>
      if (← node (.backup j.target_dir)).isSome then
        unless ← validate_sha256_file sha256 (.backup j.target_dir) j.target_state_sha256 do
          return false
        unless ← issue (.mv (.backup j.target_dir) (.state j.target_dir)) do return false
      else
        unless ← validate_file_permissions (.state j.target_dir) do return false
        unless (← sha256sum sha256 (.state j.target_dir)) = j.target_state_sha256 do
          return ← release_die "candidate state backup is missing after state changed"
      remove_regular (.backupTmp j.target_dir) "invalid temporary candidate state backup"
  | none =>
      remove_regular (.state j.target_dir) "refusing to remove an invalid candidate state"

def discard_candidate_state_backup (j : Journal ρ) : Sh ρ Bool := do
  match j.target_state_sha256 with
  | none => return true
  | some _ =>
      match ← node (.backup j.target_dir) with
      | none => pure ()
      | some n =>
          unless n.regular do
            return ← release_die "refusing to remove an invalid candidate state backup"
          -- a failure here is not looked at
          let _ ← issue (.rm (.backup j.target_dir))
      remove_regular (.backupTmp j.target_dir)
        "refusing to remove an invalid temporary state backup"

/-! ## The links -/

def atomic_set_release_link (pid : ℕ) (link : Link) (target : ρ) : Sh ρ Bool := do
  if (← node (.linkTmp link pid)).isSome then
    return ← release_die "temporary release pointer already exists"
  unless ← issue (.ln target (.linkTmp link pid)) do return false
  unless ← issue (.mv (.linkTmp link pid) (.link link)) do
    let _ ← issue (.unlink (.linkTmp link pid))
    return false
  return true

def atomic_clear_release_link (link : Link) : Sh ρ Bool := do
  match ← node (.link link) with
  | none => return true
  | some (.link _) => issue (.unlink (.link link))
  | some _ => release_die "refusing to remove a non-symlink release pointer"

def set_or_clear_release_link (pid : ℕ) (link : Link) : Option ρ → Sh ρ Bool
  | some target => atomic_set_release_link pid link target
  | none => atomic_clear_release_link link

def promote_release_links (pid : ℕ) (target : ρ) (old : Option ρ) : Sh ρ Bool := do
  unless ← set_or_clear_release_link pid .previous old do return false
  atomic_set_release_link pid .current target

def restore_release_links (pid : ℕ) (original_current : ρ) (original_previous : Option ρ) :
    Sh ρ Bool := do
  unless ← set_or_clear_release_link pid .previous original_previous do return false
  set_or_clear_release_link pid .current (some original_current)

/-! ## The new state file -/

def prepare_release_state (pid : ℕ) (target : ρ) (payload : File) : Sh ρ Bool := do
  if (← node (.pending target pid)).isSome then
    return ← release_die "pending deployment state already exists"
  let _ ← issue (.filling (.pending target pid))
  -- `set -e` is off here, and the function ends with a `printf`: the status of `python3` is lost
  let _ ← issue (.python3 (.pending target pid) payload)
  return true

def validate_pending_state_path (target : Option ρ) : Path ρ → Sh ρ Bool
  | .pending r _ =>
      if some r = target then return true
      else release_die "pending deployment state is outside the target release"
  | _ => release_die "pending deployment state is outside the target release"

def commit_release_state (target : ρ) (pending : Path ρ) : Sh ρ Bool := do
  unless ← validate_pending_state_path (some target) pending do return false
  unless ← validate_file_permissions pending do return false
  issue (.mv pending (.state target))

def discard_release_state (target : Option ρ) : Option (Path ρ) → Sh ρ Bool
  | none => return true
  | some pending => do
      unless ← validate_pending_state_path target pending do return false
      match ← node pending with
      | none => return true
      | some n => if n.regular then issue (.rm pending) else return true

end Odirag.Release
