import Mathlib.Logic.Function.Basic
import Odirag.Foundations.Script

/-!
# The files of a release transaction

Reference: `deploy/production/scripts/release-common.sh` and `deploy-release.sh`.

A release is a directory under the release root. Beside the root lie the two links `current` and
`previous` and the transaction journal; each release directory holds its `deployment-state.json`,
and during a transaction the backup of the old one and the pending new one. Temporary files carry
the process id `$$` in their names.

A command of the scripts is one step. `mv`, `ln`, `rm` and `unlink` are atomic and either take
effect or fail; `cp`, `python3` and the `printf` block that writes the journal fill a file while it
is already there. Everything else (docker, curl, `stat`, the manifest checks) leaves these files
alone and succeeds or fails.
-/

namespace Odirag.Release

/-- The two release pointers. -/
inductive Link
  | current
  | previous
  deriving DecidableEq, Repr

/-- The paths that a transaction touches, for releases `ρ`. -/
inductive Path (ρ : Type)
  /-- `.release-transaction.env` -/
  | journal
  /-- `.release-transaction.env.tmp.$$` -/
  | journalTmp (pid : ℕ)
  /-- `current` and `previous` -/
  | link (l : Link)
  /-- `current.tmp.$$` and `previous.tmp.$$` -/
  | linkTmp (l : Link) (pid : ℕ)
  /-- `deployment-state.json` -/
  | state (r : ρ)
  /-- `.deployment-state.json.pretransaction` -/
  | backup (r : ρ)
  /-- `.deployment-state.json.pretransaction.tmp` -/
  | backupTmp (r : ρ)
  /-- `.deployment-state.json.pending.$$` -/
  | pending (r : ρ) (pid : ℕ)
  deriving DecidableEq

/-- A regular file: its bytes and its permission bits. -/
structure File where
  bytes : List UInt8
  mode : ℕ
  deriving DecidableEq

/-- `ODIRAG_JOURNAL_MODE`. -/
inductive Mode
  | release
  | legacyBootstrap
  deriving DecidableEq, Repr

/-- The entries of a journal that recovery acts on. -/
structure Journal (ρ : Type) where
  mode : Mode
  target_dir : ρ
  original_current : ρ
  /-- `NONE` or a release. -/
  original_previous : Option ρ
  /-- `TARGET_STATE_EXISTED`, `TARGET_STATE_BACKUP` and `TARGET_STATE_SHA256`. Only two
  combinations are accepted: `false`, `NONE` and `NONE`, or `true`, the backup path of the target
  and a checksum. -/
  target_state_sha256 : Option (BitVec 256)
  deriving DecidableEq

/-- What is at a path. A journal with missing or mangled entries is `journal none`. -/
inductive Node (ρ : Type)
  | link (r : ρ)
  | journal (j : Option (Journal ρ))
  | file (f : File)
  deriving DecidableEq

/-- The lines the scripts print. -/
inductive Message
  /-- `release_die` -/
  | error (text : String)
  /-- `release_log` -/
  | log (text : String)
  /-- `release_log` with the news that a recovery succeeded -/
  | recovered (text : String)
  deriving DecidableEq

/-- What the statements below compare with: the candidate of the transaction that was begun last,
the files before it, and the state file that belongs to its success. -/
structure Transaction (ρ : Type) where
  candidate : ρ
  current : Option (Node ρ)
  previous : Option (Node ρ)
  state : Option (Node ρ)
  payload : File
  deriving DecidableEq

/-- The host: its files and what has been printed, newest first. No command reads `transaction`. -/
structure Host (ρ : Type) where
  files : Path ρ → Option (Node ρ)
  output : List Message
  transaction : Option (Transaction ρ)

/-- The global variables of `deploy-release.sh` that its exit handler reads. -/
structure Vars (ρ : Type) where
  /-- `$$` -/
  pid : ℕ
  target : Option ρ := none
  pending_state : Option (Path ρ) := none
  transaction_started : Bool := false
  transaction_committed : Bool := false
  candidate_state_committed : Bool := false
  recovery_in_progress : Bool := false

/-- A process on the host. -/
structure Shell (ρ : Type) where
  host : Host ρ
  vars : Vars ρ

variable {ρ : Type} [DecidableEq ρ]

/-- Put a node at a path, or remove what is there. -/
def Host.set (h : Host ρ) (path : Path ρ) (node : Option (Node ρ)) : Host ρ :=
  { h with files := Function.update h.files path node }

/-- Print a line. -/
def Host.print (h : Host ρ) (m : Message) : Host ρ :=
  { h with output := m :: h.output }

/-- The transaction that starts with the files of the host. -/
def Host.snapshot (h : Host ρ) (candidate : ρ) (payload : File) : Transaction ρ where
  candidate := candidate
  current := h.files (.link .current)
  previous := h.files (.link .previous)
  state := h.files (.state candidate)
  payload := payload

/-- Remember the files before a transaction. -/
def Host.remember (h : Host ρ) (candidate : ρ) (payload : File) : Host ρ :=
  { h with transaction := some (h.snapshot candidate payload) }

@[simp] theorem Host.set_files (h : Host ρ) (path : Path ρ) (node : Option (Node ρ)) :
    (h.set path node).files = Function.update h.files path node := rfl

@[simp] theorem Host.set_output (h : Host ρ) (path : Path ρ) (node : Option (Node ρ)) :
    (h.set path node).output = h.output := rfl

@[simp] theorem Host.set_transaction (h : Host ρ) (path : Path ρ) (node : Option (Node ρ)) :
    (h.set path node).transaction = h.transaction := rfl

omit [DecidableEq ρ] in
@[simp] theorem Host.print_files (h : Host ρ) (m : Message) : (h.print m).files = h.files := rfl

omit [DecidableEq ρ] in
@[simp] theorem Host.print_transaction (h : Host ρ) (m : Message) :
    (h.print m).transaction = h.transaction := rfl

/-! ## Commands -/

/-- The commands of the scripts. -/
inductive Cmd (ρ : Type)
  /-- a check or an action that leaves these files alone -/
  | external (what : String)
  /-- `mv -Tf` -/
  | mv (source target : Path ρ)
  /-- `ln -s` -/
  | ln (target : ρ) (link : Path ρ)
  /-- `rm -f` -/
  | rm (path : Path ρ)
  | unlink (path : Path ρ)
  /-- a file is being filled: a moment within the next command -/
  | filling (path : Path ρ)
  /-- `cp -p` -/
  | cp (source target : Path ρ)
  /-- the block of `printf`s in `write_release_journal` -/
  | printf (path : Path ρ) (journal : Journal ρ)
  /-- the program in `prepare_release_state`, which writes `payload` -/
  | python3 (path : Path ρ) (payload : File)
  /-- `release_log` and `release_die` -/
  | print (m : Message)
  /-- assignments -/
  | assign (f : Vars ρ → Vars ρ)
  /-- no command of the source: from here on the statements speak about this transaction -/
  | remember (candidate : ρ) (payload : File)

/-- How a command ends. A failed one may leave part of the file it fills; `slipped` is a block
whose last `printf` succeeds after another one failed, so that its exit status is 0. -/
inductive Outcome
  | ok
  | failed (left : Option File)
  | slipped
  deriving DecidableEq

/-- The exit status is 0. -/
def Outcome.status : Outcome → Bool
  | .failed _ => false
  | _ => true

/-- What a failed command leaves at the path it fills. -/
def Outcome.left : Outcome → Option File
  | .failed left => left
  | _ => none

/-- The process with another node at a path. -/
def Shell.set (s : Shell ρ) (path : Path ρ) (node : Option (Node ρ)) : Shell ρ :=
  { s with host := s.host.set path node }

/-- The exit status of a command and the process after it. -/
def Cmd.run : Cmd ρ → Shell ρ → Outcome → Bool × Shell ρ
  | .external _, s, e => (e.status, s)
  | .mv source target, s, e =>
      match s.host.files source with
      | none => (false, s)
      | some node =>
          if e.status then (true, (s.set target (some node)).set source none) else (false, s)
  | .ln target link, s, e =>
      if e.status ∧ s.host.files link = none then (true, s.set link (some (.link target)))
      else (false, s)
  | .rm path, s, e => if e.status then (true, s.set path none) else (false, s)
  | .unlink path, s, e =>
      if e.status ∧ s.host.files path ≠ none then (true, s.set path none) else (false, s)
  | .filling path, s, e => (true, s.set path (e.left.map .file))
  | .cp source target, s, e =>
      if e.status then (true, s.set target (s.host.files source))
      else (false, s.set target (e.left.map .file))
  | .printf path journal, s, e =>
      match e with
      | .ok => (true, s.set path (some (.journal (some journal))))
      | .slipped => (true, s.set path (some (.journal none)))
      | .failed left => (false, s.set path (left.map fun _ => .journal none))
  | .python3 path payload, s, e =>
      if e.status then (true, s.set path (some (.file payload)))
      else (false, s.set path (e.left.map .file))
  | .print m, s, e =>
      if e.status then (true, { s with host := s.host.print m }) else (false, s)
  | .assign f, s, _ => (true, { s with vars := f s.vars })
  | .remember candidate payload, s, _ =>
      (true, { s with host := s.host.remember candidate payload })

/-- The scripts. -/
abbrev Sh (ρ : Type) (α : Type) : Type := Script (Cmd ρ) (Shell ρ) α

end Odirag.Release
