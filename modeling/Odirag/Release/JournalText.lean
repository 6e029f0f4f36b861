import Odirag.Foundations.KeyFile
import Odirag.Foundations.Regex
import Odirag.Release.Host

/-!
# The text of the release journal

Reference: `deploy/production/scripts/release-common.sh` and `deploy-release.sh`.

Before a deployment changes anything it writes down what it is about to replace, one `KEY=value` in a
line, and reads the file back. Writer and reader check the values independently: the writer refuses
blanks, the reader has a pattern for each value and relations between them. Here the values are
texts, with everything that computes them; what they are used for afterwards is in the other modules.

The checksums of a legacy release are the first word that `sha256sum` prints. In front of a path with
a backslash that word is not 64 digits, and the reader refuses what the writer has accepted.
-/

namespace Odirag.Release.JournalText

open Url (rpartition)
open Regex (seqs lit char plus exactly between oneOf)

/-! ## Patterns -/

/-- `[0-9]` -/
def isDigit (c : Char) : Bool := '0' ≤ c && c ≤ '9'

/-- `[a-z]` -/
def isLower (c : Char) : Bool := 'a' ≤ c && c ≤ 'z'

/-- `[0-9a-f]` -/
def isHexDigit (c : Char) : Bool := isDigit c || ('a' ≤ c && c ≤ 'f')

/-- `[a-z0-9_.-]` -/
def isImageChar (c : Char) : Bool := isLower c || isDigit c || c == '_' || c == '.' || c == '-'

/-- `[0-9a-z_]` -/
def isHeadChar (c : Char) : Bool := isDigit c || isLower c || c == '_'

/-- `[A-Za-z0-9]` -/
def isAlnum (c : Char) : Bool := ('A' ≤ c && c ≤ 'Z') || isLower c || isDigit c

/-- `^[0-9a-f]{64}$` -/
def isSha256 (text : Text) : Bool := text.length == 64 && text.all isHexDigit

/-- `^sha256:[0-9a-f]{64}$` -/
def isImageId (text : Text) : Bool :=
  (str "sha256:").isPrefixOf text && isSha256 (text.drop 7)

/-- `^repository@sha256:[0-9a-f]{64}$` -/
def isLegacyRef (repository text : Text) : Bool :=
  (repository ++ str "@sha256:").isPrefixOf text && isSha256 (text.drop (repository.length + 8))

/-- `^ghcr\.io/[a-z0-9_.-]+/[a-z0-9_.-]+@sha256:[0-9a-f]{64}$` -/
def isGhcrRef (text : Text) : Bool :=
  (seqs [lit "ghcr.io/", plus (char isImageChar), lit "/", plus (char isImageChar),
    lit "@sha256:", exactly (char isHexDigit) 64]).fullmatch text

/-- `^[0-9a-z_]+$` -/
def isAlembicHead (text : Text) : Bool := !text.isEmpty && text.all isHeadChar

/-- `^[A-Za-z0-9][A-Za-z0-9._-]{0,79}$` -/
def isReleaseId (text : Text) : Bool :=
  (seqs [char isAlnum,
    between (char fun c => isAlnum c || c == '.' || c == '_' || c == '-') 0 79]).fullmatch text

/-- `^[0-9]{4}-[0-9]{2}-[0-9]{2}T[0-9]{2}:[0-9]{2}:[0-9]{2}([+-][0-9]{2}:[0-9]{2}|Z)$` -/
def isTimestamp (text : Text) : Bool :=
  let two := exactly (char isDigit) 2
  (seqs [exactly (char isDigit) 4, lit "-", two, lit "-", two, lit "T", two, lit ":", two, lit ":",
    two, oneOf [seqs [char fun c => c == '+' || c == '-', two, lit ":", two], lit "Z"]]).fullmatch text

/-! ## The server -/

/-- `[[:space:]]`. A locale adds blanks to those every locale has, and none of the graphic characters
that every locale has. -/
structure Locale where
  space : Char → Bool
  space_blank : space ' ' = true
  space_control : ∀ c : Char, 9 ≤ c.toNat → c.toNat ≤ 13 → space c = true
  space_graphic : ∀ c : Char, 33 ≤ c.toNat → c.toNat ≤ 126 → space c = false

inductive Kind
  | file (text : Text)
  | directory
  | link
  deriving DecidableEq

/-- What `stat` says of a path, links not followed. -/
structure Entry where
  kind : Kind
  mode : ℕ
  owner : ℕ
  deriving DecidableEq

/-- `-s` and not `-L`. -/
def Entry.filled (e : Entry) : Bool :=
  match e.kind with
  | .file text => !text.isEmpty
  | .directory => true
  | .link => false

/-- Owned by root and not writable for the group or the world. -/
def Entry.guarded (e : Entry) : Bool := e.owner == 0 && e.mode &&& 0o022 == 0

/-- What the docker commands print; `none` if they fail. -/
structure Docker where
  /-- The running containers of a service. -/
  ps : Text → List Text
  /-- `docker inspect` for the image of a container. -/
  container_image : Text → Option Text
  /-- `docker image inspect` for the id of an image. -/
  image_id : Text → Option Text
  /-- `docker image inspect` for a label of an image. -/
  label : Text → Text → Text
  repo_digests : Text → List Text
  /-- The source of the mount at `/etc/nginx/nginx.conf`. -/
  nginx_source : Text → Option Text
  /-- `SELECT version_num FROM alembic_version` -/
  alembic_version : Text → Option Text
  /-- Docker names an image by the digest of its configuration. -/
  container_image_form : ∀ container id, container_image container = some id → isImageId id = true
  image_id_form : ∀ image id, image_id image = some id → isImageId id = true

/-- The checks of a release that leave no value behind. -/
inductive Check
  | validate_runtime_environment
  | compose_config
  | validate_release_migration
  | wait_release_stack
  | validate_running_release_images
  | validate_running_nginx_config
  | run_release_integrity_check
  | run_release_provider_check

structure Server where
  locale : Locale
  /-- `id -u` -/
  uid : ℕ
  /-- `$$` -/
  pid : Text
  release_root : Text
  current_link : Text
  previous_link : Text
  release_journal : Text
  /-- `$(realpath -e -- path)`, for names that do not end in the newlines `$( )` takes off -/
  realpath : Text → Option Text
  realpath_resolved : ∀ path resolved, realpath path = some resolved →
    realpath resolved = some resolved
  lstat : Text → Option Entry
  /-- The text of the regular file a path leads to. -/
  contents : Text → Option Text
  /-- The digest of a text, in hexadecimal. -/
  sha256 : Text → Text
  sha256_form : ∀ text, isSha256 (sha256 text) = true
  docker : Docker
  passes : Check → Text → Bool
  /-- `rm -f` succeeds. -/
  rm : Text → Bool

def resolve_release_dir (server : Server) (requested : Text) : Option Text := do
  let resolved ← server.realpath requested
  let root_resolved ← server.realpath server.release_root
  -- `$resolved/` matches `$root_resolved/*/`.
  if (root_resolved ++ ['/']).isPrefixOf resolved then some resolved else none

/-- `some none` if there is no link. -/
def resolve_optional_release_link (server : Server) (link : Text) : Option (Option Text) :=
  match server.lstat link with
  | none => some none
  | some e =>
      if e.kind = .link then (resolve_release_dir server link).map some else none

def validate_file_permissions (server : Server) (path : Text) : Bool :=
  (server.lstat path).any fun e => e.filled && e.guarded

def validate_directory_permissions (server : Server) (path : Text) : Bool :=
  (server.lstat path).any fun e => decide (e.kind = .directory) && e.guarded

/-- The characters of a path that `sha256sum` escapes: backslash, newline, carriage return. -/
def isEscaped (c : Char) : Bool := c.toNat == 92 || c.toNat == 10 || c.toNat == 13

/-- The first word that `sha256sum path` prints. The line of an escaped path begins with a
backslash. -/
def sha256sum (server : Server) (path : Text) : Option Text :=
  (server.contents path).map fun text =>
    if path.any isEscaped then Char.ofNat 92 :: server.sha256 text else server.sha256 text

def validate_sha256_file (server : Server) (path expected : Text) : Bool :=
  validate_file_permissions server path && decide (sha256sum server path = some expected)

/-! ## Manifests -/

/-- The values of a `manifest.env`. -/
structure Manifest where
  release_id : Text
  commit : Text
  backend_ref : Text
  frontend_ref : Text
  alembic_head : Text
  compose_sha : Text
  nginx_sha : Text
  integrity_check_sha : Text
  provider_check_sha : Text
  build_created : Text

def manifestKeys : List Text :=
  strs ["ODIRAG_RELEASE_ID", "ODIRAG_SOURCE_COMMIT", "ODIRAG_BACKEND_IMAGE_REF",
    "ODIRAG_FRONTEND_IMAGE_REF", "ODIRAG_ALEMBIC_HEAD", "ODIRAG_COMPOSE_SHA256",
    "ODIRAG_NGINX_SHA256", "ODIRAG_INTEGRITY_CHECK_SHA256", "ODIRAG_PROVIDER_CHECK_SHA256",
    "ODIRAG_BUILD_CREATED"]

/-- A failure leaves the variable empty, since the callers have `set -e` off. -/
def manifest_value (text key : Text) : Text := (KeyFile.valueOf text key).getD []

def Manifest.read (text : Text) : Manifest where
  release_id := manifest_value text (str "ODIRAG_RELEASE_ID")
  commit := manifest_value text (str "ODIRAG_SOURCE_COMMIT")
  backend_ref := manifest_value text (str "ODIRAG_BACKEND_IMAGE_REF")
  frontend_ref := manifest_value text (str "ODIRAG_FRONTEND_IMAGE_REF")
  alembic_head := manifest_value text (str "ODIRAG_ALEMBIC_HEAD")
  compose_sha := manifest_value text (str "ODIRAG_COMPOSE_SHA256")
  nginx_sha := manifest_value text (str "ODIRAG_NGINX_SHA256")
  integrity_check_sha := manifest_value text (str "ODIRAG_INTEGRITY_CHECK_SHA256")
  provider_check_sha := manifest_value text (str "ODIRAG_PROVIDER_CHECK_SHA256")
  build_created := manifest_value text (str "ODIRAG_BUILD_CREATED")

/-- The patterns, and the name of the directory. -/
def Manifest.valid (m : Manifest) (release_dir : Text) : Bool :=
  isReleaseId m.release_id && decide ((rpartition '/' release_dir).2 = m.release_id) &&
    (m.commit.length == 40 && m.commit.all isHexDigit) && isGhcrRef m.backend_ref &&
    isGhcrRef m.frontend_ref && isAlembicHead m.alembic_head && isSha256 m.compose_sha &&
    isSha256 m.nginx_sha && isSha256 m.integrity_check_sha && isSha256 m.provider_check_sha &&
    isTimestamp m.build_created

def load_release_manifest (server : Server) (release_dir : Text) : Option Manifest := do
  guard (validate_directory_permissions server release_dir)
  guard (validate_directory_permissions server (release_dir ++ str "/deploy"))
  guard (validate_directory_permissions server (release_dir ++ str "/deploy/production"))
  guard (validate_directory_permissions server (release_dir ++ str "/deploy/production/scripts"))
  let manifest := release_dir ++ str "/manifest.env"
  guard (validate_file_permissions server manifest)
  let text := (server.contents manifest).getD []
  guard ((KeyFile.lines text).all fun line =>
    line.head? == some '#' || line.all server.locale.space ||
      KeyFile.expected server.locale.space manifestKeys line)
  let m := Manifest.read text
  guard (m.valid release_dir)
  guard (validate_sha256_file server (release_dir ++ str "/deploy/production/compose.yml")
    m.compose_sha)
  guard (validate_sha256_file server (release_dir ++ str "/deploy/production/nginx.conf") m.nginx_sha)
  guard (validate_sha256_file server
    (release_dir ++ str "/deploy/production/scripts/verify-production-integrity.py")
    m.integrity_check_sha)
  guard (validate_sha256_file server
    (release_dir ++ str "/deploy/production/scripts/verify-production-rag.py") m.provider_check_sha)
  some m

/-- The ids of the backend image and of the frontend image. -/
def validate_release_images (server : Server) (m : Manifest) : Option (Text × Text) := do
  let backend_id ← server.docker.image_id m.backend_ref
  let frontend_id ← server.docker.image_id m.frontend_ref
  let labelled (name value : Text) : Bool :=
    decide (server.docker.label m.backend_ref name = value) &&
      decide (server.docker.label m.frontend_ref name = value)
  guard (labelled (str "org.opencontainers.image.revision") m.commit)
  guard (labelled (str "org.opencontainers.image.version") m.release_id)
  guard (labelled (str "org.opencontainers.image.created") m.build_created)
  guard (decide (m.backend_ref ∈ server.docker.repo_digests m.backend_ref))
  guard (decide (m.frontend_ref ∈ server.docker.repo_digests m.frontend_ref))
  some (backend_id, frontend_id)

/-- With the providers. -/
def verify_loaded_release (server : Server) (release_dir : Text) (m : Manifest) :
    Option (Text × Text) := do
  guard (server.passes .validate_runtime_environment release_dir)
  guard (server.passes .compose_config release_dir)
  let ids ← validate_release_images server m
  guard (server.passes .validate_release_migration release_dir)
  guard (server.passes .wait_release_stack release_dir)
  guard (server.passes .validate_running_release_images release_dir)
  guard (server.passes .validate_running_nginx_config release_dir)
  guard (server.passes .run_release_integrity_check release_dir)
  guard (server.passes .run_release_provider_check release_dir)
  some ids

def validate_loaded_recovery_descriptor (server : Server) (release_dir : Text) (m : Manifest) :
    Option (Text × Text) := do
  guard (server.passes .validate_runtime_environment release_dir)
  guard (server.passes .compose_config release_dir)
  let ids ← validate_release_images server m
  guard (server.passes .validate_release_migration release_dir)
  some ids

/-! ## Legacy releases -/

/-- The `LEGACY_` variables. -/
structure Legacy where
  compose : Text
  nginx : Text
  compose_sha : Text
  nginx_sha : Text
  backend_ref : Text
  frontend_ref : Text
  backend_image_id : Text
  frontend_image_id : Text
  alembic_head : Text

/-- `some none` if no container runs. -/
def release_container_id (server : Server) (service : Text) : Option (Option Text) :=
  match server.docker.ps service with
  | [] => some none
  | [container] => some (some container)
  | _ => none

/-- The image that the container of a service runs. -/
def running_image (server : Server) (service : Text) : Option Text := do
  let found ← release_container_id server service
  let container ← found
  server.docker.container_image container

/-- The common image of the services, the first of which fixes it. -/
def legacy_backend_image (server : Server) : List Text → Text → Option Text
  | [], backend_image_id => some backend_image_id
  | service :: rest, backend_image_id => do
      let image_id ← running_image server service
      let backend_image_id := if backend_image_id = [] then image_id else backend_image_id
      guard (image_id = backend_image_id)
      legacy_backend_image server rest backend_image_id

def legacy_image_digest (server : Server) (image_id repository : Text) : Option Text :=
  match (server.docker.repo_digests image_id).filter (isLegacyRef repository) with
  | [digest] => some digest
  | _ => none

/-- `grep -Eo '^[0-9a-z_]+'` -/
def database_heads (output : Text) : List Text :=
  ((KeyFile.lines output).map (·.takeWhile isHeadChar)).filter fun head => !head.isEmpty

def capture_legacy_recovery_state (server : Server) (legacy_dir : Text) : Option Legacy := do
  let compose := legacy_dir ++ str "/deploy/production/compose.yml"
  let nginx := legacy_dir ++ str "/deploy/production/nginx.conf"
  guard (validate_directory_permissions server legacy_dir)
  guard (validate_directory_permissions server (legacy_dir ++ str "/deploy"))
  guard (validate_directory_permissions server (legacy_dir ++ str "/deploy/production"))
  guard (validate_file_permissions server compose)
  guard (validate_file_permissions server nginx)
  let compose_sha ← sha256sum server compose
  let nginx_sha ← sha256sum server nginx
  let backend_image_id ← legacy_backend_image server (strs ["backend", "worker", "scheduler"]) []
  let frontend_image_id ← running_image server (str "frontend")
  let backend_ref ← legacy_image_digest server backend_image_id (str "odirag/backend")
  let frontend_ref ← legacy_image_digest server frontend_image_id (str "odirag/frontend")
  let found ← release_container_id server (str "nginx")
  let nginx_container ← found
  let nginx_source ← server.docker.nginx_source nginx_container
  guard (!nginx_source.isEmpty && (server.contents nginx_source).isSome)
  guard (sha256sum server nginx_source = some nginx_sha)
  let found ← release_container_id server (str "postgres")
  let postgres_container ← found
  let database_output ← server.docker.alembic_version postgres_container
  match database_heads database_output with
  | [alembic_head] =>
      guard (server.passes .wait_release_stack legacy_dir)
      some { compose, nginx, compose_sha, nginx_sha, backend_ref, frontend_ref, backend_image_id,
             frontend_image_id, alembic_head }
  | _ => none

/-! ## The transaction up to its journal -/

inductive Operation
  | deploy
  | rollback
  deriving DecidableEq

/-- `recovery_mode` and the `recovery_` variables, with the legacy state if it was captured. -/
structure Recovery where
  mode : Mode
  backend_ref : Text
  frontend_ref : Text
  backend_image_id : Text
  frontend_image_id : Text
  legacy : Option Legacy

def Recovery.ofManifest (m : Manifest) (ids : Text × Text) : Recovery where
  mode := .release
  backend_ref := m.backend_ref
  frontend_ref := m.frontend_ref
  backend_image_id := ids.1
  frontend_image_id := ids.2
  legacy := none

def Recovery.ofLegacy (l : Legacy) : Recovery where
  mode := .legacyBootstrap
  backend_ref := l.backend_ref
  frontend_ref := l.frontend_ref
  backend_image_id := l.backend_image_id
  frontend_image_id := l.frontend_image_id
  legacy := some l

/-- The state of the current release that a recovery returns to. -/
def original_recovery (server : Server) (operation : Operation) (target old : Text)
    (old_previous : Option Text) : Option Recovery := do
  let manifested := (server.contents (old ++ str "/manifest.env")).isSome
  if operation = .rollback then
    guard (old_previous = some target)
    guard manifested
    let m ← load_release_manifest server old
    let ids ← validate_loaded_recovery_descriptor server old m
    some (.ofManifest m ids)
  else if manifested then
    let m ← load_release_manifest server old
    let ids ← verify_loaded_release server old m
    some (.ofManifest m ids)
  else (capture_legacy_recovery_state server old).map .ofLegacy

def prepare_recovery_path (server : Server) (operation : Operation) (target : Text)
    (old old_previous : Option Text) : Option Recovery := do
  let old ← old
  let recovery ← original_recovery server operation target old old_previous
  let _ ← load_release_manifest server target
  guard (server.passes .run_release_integrity_check target)
  some recovery

/-- The arguments of `write_release_journal` and the `JOURNAL_` variables. There is no previous
release where the scripts say `NONE` or have an empty variable. -/
structure Values where
  mode : Mode
  target_dir : Text
  original_current : Text
  original_previous : Option Text
  backend_ref : Text
  frontend_ref : Text
  backend_image_id : Text
  frontend_image_id : Text
  legacy_compose : Text
  legacy_nginx : Text
  legacy_compose_sha : Text
  legacy_nginx_sha : Text
  legacy_alembic_head : Text
  target_state_existed : Bool
  target_state_backup : Text
  target_state_sha : Text
  deriving DecidableEq

/-- `$\x7bvalue:-default\x7d` -/
def orElse (value default : Text) : Text := if value = [] then default else value

/-- `write_release_journal` has defaults for its last arguments. -/
def Values.withDefaults (v : Values) : Values :=
  { v with
    legacy_compose := orElse v.legacy_compose (str "-")
    legacy_nginx := orElse v.legacy_nginx (str "-")
    legacy_compose_sha := orElse v.legacy_compose_sha (str "-")
    legacy_nginx_sha := orElse v.legacy_nginx_sha (str "-")
    legacy_alembic_head := orElse v.legacy_alembic_head (str "-")
    target_state_backup := orElse v.target_state_backup (str "NONE")
    target_state_sha := orElse v.target_state_sha (str "NONE") }

def modeText : Mode → Text
  | .release => str "release"
  | .legacyBootstrap => str "legacy-bootstrap"

def flagText (flag : Bool) : Text := if flag then str "true" else str "false"

/-- The values that are only checked for blanks. -/
def Values.plain (v : Values) : List Text :=
  [v.target_dir, v.original_current, v.original_previous.getD (str "NONE"), v.backend_ref,
    v.frontend_ref, v.backend_image_id, v.frontend_image_id, v.legacy_compose, v.legacy_nginx,
    v.legacy_compose_sha, v.legacy_nginx_sha, v.legacy_alembic_head]

/-- The lines of the journal. -/
def Values.assignments (v : Values) : List (Text × Text) :=
  [(str "ODIRAG_JOURNAL_VERSION", str "1"),
    (str "ODIRAG_JOURNAL_MODE", modeText v.mode),
    (str "ODIRAG_JOURNAL_TARGET_DIR", v.target_dir),
    (str "ODIRAG_JOURNAL_ORIGINAL_CURRENT", v.original_current),
    (str "ODIRAG_JOURNAL_ORIGINAL_PREVIOUS", v.original_previous.getD (str "NONE")),
    (str "ODIRAG_JOURNAL_BACKEND_REF", v.backend_ref),
    (str "ODIRAG_JOURNAL_FRONTEND_REF", v.frontend_ref),
    (str "ODIRAG_JOURNAL_BACKEND_IMAGE_ID", v.backend_image_id),
    (str "ODIRAG_JOURNAL_FRONTEND_IMAGE_ID", v.frontend_image_id),
    (str "ODIRAG_JOURNAL_LEGACY_COMPOSE", v.legacy_compose),
    (str "ODIRAG_JOURNAL_LEGACY_NGINX", v.legacy_nginx),
    (str "ODIRAG_JOURNAL_LEGACY_COMPOSE_SHA256", v.legacy_compose_sha),
    (str "ODIRAG_JOURNAL_LEGACY_NGINX_SHA256", v.legacy_nginx_sha),
    (str "ODIRAG_JOURNAL_LEGACY_ALEMBIC_HEAD", v.legacy_alembic_head),
    (str "ODIRAG_JOURNAL_TARGET_STATE_EXISTED", flagText v.target_state_existed),
    (str "ODIRAG_JOURNAL_TARGET_STATE_BACKUP", v.target_state_backup),
    (str "ODIRAG_JOURNAL_TARGET_STATE_SHA256", v.target_state_sha)]

/-- Not empty, and `!= *[[:space:]]*`. -/
def isPlain (server : Server) (text : Text) : Bool :=
  !text.isEmpty && text.all fun c => !server.locale.space c

/-- The journal file, if it is written. -/
def write_release_journal (server : Server) (arguments : Values) : Option Entry := do
  let v := arguments.withDefaults
  guard (server.lstat server.release_journal).isNone
  guard (v.plain.all (isPlain server))
  guard (isPlain server v.target_state_backup)
  guard (decide (v.target_state_sha = str "NONE") || isSha256 v.target_state_sha)
  guard (server.lstat (server.release_journal ++ str ".tmp." ++ server.pid)).isNone
  some ⟨.file (KeyFile.render v.assignments), 0o600, server.uid⟩

/-- What an earlier transaction has left behind can be removed. -/
def clear_orphan_candidate_state_backup (server : Server) (target : Text) : Bool :=
  [target ++ str "/.deployment-state.json.pretransaction",
    target ++ str "/.deployment-state.json.pretransaction.tmp"].all fun path =>
      match server.lstat path with
      | none => true
      | some e =>
          (server.lstat server.release_journal).isNone && (e.kind matches .file _) && server.rm path

/-- `state_existed`, `state_backup` and `state_sha`. -/
def candidate_state (server : Server) (target : Text) : Option (Bool × Text × Text) :=
  let state := target ++ str "/deployment-state.json"
  if (server.lstat state).isSome then do
    guard (validate_file_permissions server state)
    let state_sha ← sha256sum server state
    some (true, target ++ str "/.deployment-state.json.pretransaction", state_sha)
  else some (false, str "NONE", str "NONE")

/-- The values passed and the journal written, before it is loaded. -/
def prepare_transaction_journal (server : Server) (recovery : Recovery) (target old : Text)
    (old_previous : Option Text) : Option (Values × Entry) := do
  guard (clear_orphan_candidate_state_backup server target)
  let (state_existed, state_backup, state_sha) ← candidate_state server target
  let legacy (value : Legacy → Text) : Text := (recovery.legacy.map value).getD (str "-")
  let values : Values :=
    { mode := recovery.mode
      target_dir := target
      original_current := old
      original_previous := old_previous
      backend_ref := recovery.backend_ref
      frontend_ref := recovery.frontend_ref
      backend_image_id := recovery.backend_image_id
      frontend_image_id := recovery.frontend_image_id
      legacy_compose := legacy (·.compose)
      legacy_nginx := legacy (·.nginx)
      legacy_compose_sha := legacy (·.compose_sha)
      legacy_nginx_sha := legacy (·.nginx_sha)
      legacy_alembic_head := legacy (·.alembic_head)
      target_state_existed := state_existed
      target_state_backup := state_backup
      target_state_sha := state_sha }
  let journal ← write_release_journal server values
  some (values, journal)

/-- `deploy-release.sh`, when no transaction is unfinished, up to the journal. -/
def deploy_release (server : Server) (operation : Operation) (requested : Text) :
    Option (Values × Entry) := do
  -- `release_preflight`
  guard (server.uid = 0)
  let target ← resolve_release_dir server requested
  let current ← resolve_optional_release_link server server.current_link
  let old_previous ← resolve_optional_release_link server server.previous_link
  guard (current ≠ some target)
  let _ ← load_release_manifest server target
  let recovery ← prepare_recovery_path server operation target current old_previous
  let old ← current
  prepare_transaction_journal server recovery target old old_previous

/-! ## Reading the journal -/

/-- A failure leaves the variable empty, since the callers have `set -e` off. -/
def release_journal_value (text key : Text) : Text := (KeyFile.valueOf text key).getD []

def journalKeys : List Text :=
  strs ["ODIRAG_JOURNAL_VERSION", "ODIRAG_JOURNAL_MODE", "ODIRAG_JOURNAL_TARGET_DIR",
    "ODIRAG_JOURNAL_ORIGINAL_CURRENT", "ODIRAG_JOURNAL_ORIGINAL_PREVIOUS",
    "ODIRAG_JOURNAL_BACKEND_REF", "ODIRAG_JOURNAL_FRONTEND_REF", "ODIRAG_JOURNAL_BACKEND_IMAGE_ID",
    "ODIRAG_JOURNAL_FRONTEND_IMAGE_ID", "ODIRAG_JOURNAL_LEGACY_COMPOSE",
    "ODIRAG_JOURNAL_LEGACY_NGINX", "ODIRAG_JOURNAL_LEGACY_COMPOSE_SHA256",
    "ODIRAG_JOURNAL_LEGACY_NGINX_SHA256", "ODIRAG_JOURNAL_LEGACY_ALEMBIC_HEAD",
    "ODIRAG_JOURNAL_TARGET_STATE_EXISTED", "ODIRAG_JOURNAL_TARGET_STATE_BACKUP",
    "ODIRAG_JOURNAL_TARGET_STATE_SHA256"]

def readMode (text : Text) : Option Mode :=
  if text = str "release" then some .release
  else if text = str "legacy-bootstrap" then some .legacyBootstrap
  else none

def readFlag (text : Text) : Option Bool :=
  if text = str "true" then some true else if text = str "false" then some false else none

def readPrevious (server : Server) (text : Text) : Option (Option Text) :=
  if text = str "NONE" then some none else (resolve_release_dir server text).map some

/-- The checksum and the backup path belong to the state file, if there was one. -/
def Values.validState (v : Values) : Bool :=
  if v.target_state_existed then
    decide (v.target_state_backup = v.target_dir ++ str "/.deployment-state.json.pretransaction") &&
      isSha256 v.target_state_sha
  else decide (v.target_state_backup = str "NONE") && decide (v.target_state_sha = str "NONE")

/-- The references and the legacy state have the form that belongs to the mode. -/
def Values.validMode (v : Values) : Bool :=
  match v.mode with
  | .release =>
      isGhcrRef v.backend_ref && isGhcrRef v.frontend_ref &&
        decide (v.legacy_compose = str "-" ∧ v.legacy_nginx = str "-" ∧
          v.legacy_compose_sha = str "-" ∧ v.legacy_nginx_sha = str "-" ∧
          v.legacy_alembic_head = str "-")
  | .legacyBootstrap =>
      isLegacyRef (str "odirag/backend") v.backend_ref &&
        isLegacyRef (str "odirag/frontend") v.frontend_ref &&
        decide (v.legacy_compose = v.original_current ++ str "/deploy/production/compose.yml") &&
        decide (v.legacy_nginx = v.original_current ++ str "/deploy/production/nginx.conf") &&
        isSha256 v.legacy_compose_sha && isSha256 v.legacy_nginx_sha &&
        isAlembicHead v.legacy_alembic_head

/-- The part of `load_release_journal` that reads and checks the values, in the order of the
source. -/
def load_values (server : Server) (value : Text → Text) : Option Values := do
  guard (value (str "ODIRAG_JOURNAL_VERSION") = str "1")
  let mode ← readMode (value (str "ODIRAG_JOURNAL_MODE"))
  let target_dir ← resolve_release_dir server (value (str "ODIRAG_JOURNAL_TARGET_DIR"))
  let original_current ← resolve_release_dir server (value (str "ODIRAG_JOURNAL_ORIGINAL_CURRENT"))
  let original_previous ← readPrevious server (value (str "ODIRAG_JOURNAL_ORIGINAL_PREVIOUS"))
  let backend_image_id := value (str "ODIRAG_JOURNAL_BACKEND_IMAGE_ID")
  let frontend_image_id := value (str "ODIRAG_JOURNAL_FRONTEND_IMAGE_ID")
  guard (isImageId backend_image_id && isImageId frontend_image_id)
  let target_state_existed ← readFlag (value (str "ODIRAG_JOURNAL_TARGET_STATE_EXISTED"))
  let v : Values :=
    { mode, target_dir, original_current, original_previous, backend_image_id, frontend_image_id
      target_state_existed
      backend_ref := value (str "ODIRAG_JOURNAL_BACKEND_REF")
      frontend_ref := value (str "ODIRAG_JOURNAL_FRONTEND_REF")
      legacy_compose := value (str "ODIRAG_JOURNAL_LEGACY_COMPOSE")
      legacy_nginx := value (str "ODIRAG_JOURNAL_LEGACY_NGINX")
      legacy_compose_sha := value (str "ODIRAG_JOURNAL_LEGACY_COMPOSE_SHA256")
      legacy_nginx_sha := value (str "ODIRAG_JOURNAL_LEGACY_NGINX_SHA256")
      legacy_alembic_head := value (str "ODIRAG_JOURNAL_LEGACY_ALEMBIC_HEAD")
      target_state_backup := value (str "ODIRAG_JOURNAL_TARGET_STATE_BACKUP")
      target_state_sha := value (str "ODIRAG_JOURNAL_TARGET_STATE_SHA256") }
  guard v.validState
  guard v.validMode
  some v

def load_release_journal (server : Server) (journal : Entry) : Option Values := do
  guard (journal.filled && journal.guarded)
  guard (journal.owner = 0 ∧ journal.mode = 0o600)
  match journal.kind with
  | .file text =>
      -- What `grep -Ev` prints is empty if every other line is.
      guard ((KeyFile.lines text).all fun line =>
        line.isEmpty || KeyFile.expected server.locale.space journalKeys line)
      load_values server (release_journal_value text)
  | _ => none

end Odirag.Release.JournalText
