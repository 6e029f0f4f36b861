import Odirag.Release.JournalText

/-!
# The release journal reads back

Reference: `deploy/production/scripts/release-common.sh` and `deploy-release.sh`.

What `deploy_release` passes to the writer satisfies `Passed`: the directories are resolved, the
images are named by digests, and the references and the legacy state are those of the mode. A
journal written for such values is taken in by the reader line by line, so that only its patterns for
the checksums of a legacy release can refuse it.
-/

namespace Odirag.Release.JournalText

variable {server : Server}

theorem bind_eq_some {α β : Type} {x : Option α} {f : α → Option β} {b : β} :
    (x >>= f) = some b ↔ ∃ a, x = some a ∧ f a = some b :=
  Option.bind_eq_some_iff

/-- A check in a chain of bindings. -/
theorem exists_guard {p : Prop} [Decidable p] {q : Unit → Prop} :
    (∃ u, (guard p : Option Unit) = some u ∧ q u) ↔ p ∧ q () := by
  constructor
  · rintro ⟨u, hp, hq⟩
    exact ⟨(Option.guard_eq_some' u).mp hp, hq⟩
  · rintro ⟨hp, hq⟩
    exact ⟨(), (Option.guard_eq_some' ()).mpr hp, hq⟩

/-! ## Directories -/

/-- An existing release directory, resolved inside the root. -/
def IsReleaseDir (server : Server) (dir : Text) : Prop := resolve_release_dir server dir = some dir

theorem isReleaseDir_of_resolve {requested dir : Text}
    (h : resolve_release_dir server requested = some dir) :
    IsReleaseDir server dir ∧ '/' ∈ dir := by
  simp only [resolve_release_dir, bind_eq_some] at h
  obtain ⟨resolved, hresolved, root, hroot, h⟩ := h
  split at h
  · next hinside =>
      obtain rfl : resolved = dir := Option.some.inj h
      have hself := server.realpath_resolved requested resolved hresolved
      have hdir : IsReleaseDir server resolved := by
        rw [IsReleaseDir, resolve_release_dir, hself, hroot]
        exact if_pos hinside
      refine ⟨hdir, ?_⟩
      obtain ⟨rest, hrest⟩ := List.isPrefixOf_iff_prefix.mp hinside
      simp [← hrest]
  · cases h

theorem isReleaseDir_of_link {link dir : Text}
    (h : resolve_optional_release_link server link = some (some dir)) :
    IsReleaseDir server dir ∧ '/' ∈ dir := by
  unfold resolve_optional_release_link at h
  cases hentry : server.lstat link with
  | none => simp [hentry] at h
  | some e =>
      rw [hentry] at h
      dsimp only at h
      split at h
      · obtain ⟨resolved, hresolved, heq⟩ := Option.map_eq_some_iff.mp h
        obtain rfl : resolved = dir := Option.some.inj heq
        exact isReleaseDir_of_resolve hresolved
      · cases h

/-! ## Checksums -/

theorem not_mem_of_isSha256 {text : Text} (h : isSha256 text = true) :
    Char.ofNat 92 ∉ text := by
  intro hmem
  simp only [isSha256, Bool.and_eq_true, List.all_eq_true] at h
  exact absurd (h.2 _ hmem) (by decide)

theorem isSha256_ne_nil {text : Text} (h : isSha256 text = true) : text ≠ [] := by
  rintro rfl
  exact absurd h (by decide)

/-- A printed checksum is a checksum if nothing in the path is escaped. -/
theorem isSha256_of_sha256sum {path sum : Text} (h : sha256sum server path = some sum) :
    isSha256 sum = true ↔ ∀ c ∈ path, isEscaped c = false := by
  obtain ⟨text, -, rfl⟩ := Option.map_eq_some_iff.mp h
  by_cases hescaped : path.any isEscaped = true
  · rw [if_pos hescaped]
    constructor
    · intro hsum
      exact absurd List.mem_cons_self (not_mem_of_isSha256 hsum)
    · intro hnone
      obtain ⟨c, hc, hesc⟩ := List.any_eq_true.mp hescaped
      rw [hnone c hc] at hesc
      cases hesc
  · rw [if_neg hescaped]
    have hnone : ∀ c ∈ path, isEscaped c = false := by simpa using hescaped
    exact iff_of_true (server.sha256_form text) hnone

theorem length_of_isSha256 {text : Text} (h : isSha256 text = true) : text.length = 64 := by
  simp only [isSha256, Bool.and_eq_true, beq_iff_eq] at h
  exact h.1

/-- What is printed has at least the digits. -/
theorem length_sha256sum {path sum : Text} (h : sha256sum server path = some sum) :
    64 ≤ sum.length := by
  obtain ⟨text, -, rfl⟩ := Option.map_eq_some_iff.mp h
  have hdigits := length_of_isSha256 (server.sha256_form text)
  split
  · rw [List.length_cons]
    omega
  · omega

theorem ne_nil_of_length {sum : Text} (h : 64 ≤ sum.length) : sum ≠ [] := by
  rintro rfl
  simp at h

/-- For a path without blanks below a directory, only a backslash in the directory is escaped. -/
theorem not_isEscaped_append {dir rest : Text} (hdir : ∀ c ∈ dir, server.locale.space c = false)
    (hrest : rest.any isEscaped = false) :
    (∀ c ∈ dir ++ rest, isEscaped c = false) ↔ Char.ofNat 92 ∉ dir := by
  constructor
  · intro h hmem
    exact absurd (h _ (List.mem_append_left rest hmem)) (by decide)
  · intro h c hc
    rcases List.mem_append.mp hc with hc | hc
    · have hspace := hdir c hc
      have hbackslash : c.toNat ≠ 92 := by
        intro hcode
        rw [← hcode, Char.ofNat_toNat] at h
        exact h hc
      -- The other two that are escaped are blanks in every locale.
      have hcontrol : ¬(9 ≤ c.toNat ∧ c.toNat ≤ 13) := by
        rintro ⟨hlow, hhigh⟩
        rw [server.locale.space_control c hlow hhigh] at hspace
        cases hspace
      simp only [isEscaped, Bool.or_eq_false_iff, beq_eq_false_iff_ne]
      omega
    · exact Bool.eq_false_iff.mpr (List.any_eq_false.mp hrest c hc)

/-! ## What a recovery is described by -/

/-- A loaded manifest refers to images by digests. -/
theorem isGhcrRef_of_load {release_dir : Text} {m : Manifest}
    (h : load_release_manifest server release_dir = some m) :
    isGhcrRef m.backend_ref = true ∧ isGhcrRef m.frontend_ref = true := by
  simp only [load_release_manifest, bind_eq_some, exists_guard] at h
  obtain ⟨-, -, -, -, -, -, hvalid, -, -, -, -, h⟩ := h
  obtain rfl := Option.some.inj h
  simp only [Manifest.valid, Bool.and_eq_true] at hvalid
  exact ⟨hvalid.1.1.1.1.1.1.1.2, hvalid.1.1.1.1.1.1.2⟩

theorem isImageId_of_validate {m : Manifest} {ids : Text × Text}
    (h : validate_release_images server m = some ids) :
    isImageId ids.1 = true ∧ isImageId ids.2 = true := by
  simp only [validate_release_images, bind_eq_some, exists_guard] at h
  obtain ⟨backend_id, hbackend, frontend_id, hfrontend, -, -, -, -, -, h⟩ := h
  obtain rfl := Option.some.inj h
  exact ⟨server.docker.image_id_form _ _ hbackend, server.docker.image_id_form _ _ hfrontend⟩

theorem isImageId_of_verify {release_dir : Text} {m : Manifest} {ids : Text × Text}
    (h : verify_loaded_release server release_dir m = some ids) :
    isImageId ids.1 = true ∧ isImageId ids.2 = true := by
  simp only [verify_loaded_release, bind_eq_some, exists_guard] at h
  obtain ⟨-, -, found, hfound, -, -, -, -, -, -, h⟩ := h
  obtain rfl := Option.some.inj h
  exact isImageId_of_validate hfound

theorem isImageId_of_descriptor {release_dir : Text} {m : Manifest} {ids : Text × Text}
    (h : validate_loaded_recovery_descriptor server release_dir m = some ids) :
    isImageId ids.1 = true ∧ isImageId ids.2 = true := by
  simp only [validate_loaded_recovery_descriptor, bind_eq_some, exists_guard] at h
  obtain ⟨-, -, found, hfound, -, h⟩ := h
  obtain rfl := Option.some.inj h
  exact isImageId_of_validate hfound

theorem isImageId_of_running {service id : Text} (h : running_image server service = some id) :
    isImageId id = true := by
  simp only [running_image, bind_eq_some] at h
  obtain ⟨found, -, container, -, himage⟩ := h
  exact server.docker.container_image_form container id himage

/-- Once an image is fixed it is the result. -/
theorem legacy_backend_image_fixed {services : List Text} {id result : Text} (hid : id ≠ [])
    (h : legacy_backend_image server services id = some result) : result = id := by
  induction services with
  | nil => exact (Option.some.inj h).symm
  | cons service rest ih =>
      simp only [legacy_backend_image, if_neg hid, bind_eq_some, exists_guard] at h
      obtain ⟨image_id, -, -, h⟩ := h
      exact ih h

theorem isImageId_ne_nil {id : Text} (h : isImageId id = true) : id ≠ [] := by
  rintro rfl
  exact absurd h (by decide)

theorem isImageId_of_legacy {service result : Text} {rest : List Text}
    (h : legacy_backend_image server (service :: rest) [] = some result) :
    isImageId result = true := by
  simp only [legacy_backend_image, bind_eq_some, exists_guard] at h
  obtain ⟨image_id, hrunning, -, h⟩ := h
  have himage := isImageId_of_running hrunning
  rw [legacy_backend_image_fixed (isImageId_ne_nil himage) h]
  exact himage

theorem isLegacyRef_of_digest {image_id repository digest : Text}
    (h : legacy_image_digest server image_id repository = some digest) :
    isLegacyRef repository digest = true := by
  unfold legacy_image_digest at h
  split at h
  · next found hfilter =>
      obtain rfl : found = digest := Option.some.inj h
      have hmem : found ∈ (server.docker.repo_digests image_id).filter (isLegacyRef repository) := by
        rw [hfilter]
        exact List.mem_singleton_self found
      exact (List.mem_filter.mp hmem).2
  · cases h

theorem isAlembicHead_of_mem {output head : Text} (h : head ∈ database_heads output) :
    isAlembicHead head = true := by
  obtain ⟨hmem, hne⟩ := List.mem_filter.mp h
  obtain ⟨line, -, rfl⟩ := List.mem_map.mp hmem
  rw [isAlembicHead, hne, Bool.true_and, List.all_eq_true]
  exact fun c hc => List.mem_takeWhile_imp hc

/-- The captured state of a legacy release. -/
structure Captured (server : Server) (dir : Text) (l : Legacy) : Prop where
  compose : l.compose = dir ++ str "/deploy/production/compose.yml"
  nginx : l.nginx = dir ++ str "/deploy/production/nginx.conf"
  compose_sha : sha256sum server l.compose = some l.compose_sha
  nginx_sha : sha256sum server l.nginx = some l.nginx_sha
  backend_ref : isLegacyRef (str "odirag/backend") l.backend_ref = true
  frontend_ref : isLegacyRef (str "odirag/frontend") l.frontend_ref = true
  backend_image_id : isImageId l.backend_image_id = true
  frontend_image_id : isImageId l.frontend_image_id = true
  alembic_head : isAlembicHead l.alembic_head = true

theorem captured_of_capture {dir : Text} {l : Legacy}
    (h : capture_legacy_recovery_state server dir = some l) : Captured server dir l := by
  simp only [capture_legacy_recovery_state, bind_eq_some, exists_guard] at h
  obtain ⟨-, -, -, -, -, compose_sha, hcompose, nginx_sha, hnginx, backend_id, hbackend,
    frontend_id, hfrontend, backend_ref, hbackend_ref, frontend_ref, hfrontend_ref, -, -, -, -, -,
    -, -, -, -, -, -, -, output, -, h⟩ := h
  split at h
  · next head hheads =>
      simp only [bind_eq_some, exists_guard] at h
      obtain rfl := Option.some.inj h.2
      exact {
        compose := rfl
        nginx := rfl
        compose_sha := hcompose
        nginx_sha := hnginx
        backend_ref := isLegacyRef_of_digest hbackend_ref
        frontend_ref := isLegacyRef_of_digest hfrontend_ref
        backend_image_id := isImageId_of_legacy hbackend
        frontend_image_id := isImageId_of_running hfrontend
        alembic_head := isAlembicHead_of_mem (by rw [hheads]; exact List.mem_singleton_self head) }
  · cases h

/-- A recovery goes back to a release with a manifest or to a captured legacy release. -/
inductive Describes (server : Server) (old : Text) : Recovery → Prop
  | manifest (m : Manifest) (ids : Text × Text) (backend_ref : isGhcrRef m.backend_ref = true)
      (frontend_ref : isGhcrRef m.frontend_ref = true) (backend_id : isImageId ids.1 = true)
      (frontend_id : isImageId ids.2 = true) : Describes server old (.ofManifest m ids)
  | legacy (l : Legacy) (captured : Captured server old l) : Describes server old (.ofLegacy l)

theorem describes_of_original {operation : Operation} {target old : Text}
    {old_previous : Option Text} {r : Recovery}
    (h : original_recovery server operation target old old_previous = some r) :
    Describes server old r := by
  unfold original_recovery at h
  dsimp only at h
  split at h
  · simp only [bind_eq_some, exists_guard] at h
    obtain ⟨-, -, m, hm, ids, hids, h⟩ := h
    obtain rfl := Option.some.inj h
    obtain ⟨hbackend, hfrontend⟩ := isGhcrRef_of_load hm
    obtain ⟨hbackend_id, hfrontend_id⟩ := isImageId_of_descriptor hids
    exact .manifest m ids hbackend hfrontend hbackend_id hfrontend_id
  · split at h
    · simp only [bind_eq_some] at h
      obtain ⟨m, hm, ids, hids, h⟩ := h
      obtain rfl := Option.some.inj h
      obtain ⟨hbackend, hfrontend⟩ := isGhcrRef_of_load hm
      obtain ⟨hbackend_id, hfrontend_id⟩ := isImageId_of_verify hids
      exact .manifest m ids hbackend hfrontend hbackend_id hfrontend_id
    · obtain ⟨l, hl, rfl⟩ := Option.map_eq_some_iff.mp h
      exact .legacy l (captured_of_capture hl)

theorem describes_of_prepare {operation : Operation} {target : Text}
    {old old_previous : Option Text} {r : Recovery}
    (h : prepare_recovery_path server operation target old old_previous = some r) :
    ∃ dir, old = some dir ∧ Describes server dir r := by
  simp only [prepare_recovery_path, bind_eq_some, exists_guard] at h
  obtain ⟨dir, hdir, found, hfound, -, -, -, h⟩ := h
  obtain rfl := Option.some.inj h
  exact ⟨dir, hdir, describes_of_original hfound⟩

/-! ## What the writer is given -/

/-- The legacy state of the values is the one captured, or `-` everywhere. -/
inductive Holds (server : Server) (v : Values) : Prop
  | release (mode : v.mode = .release) (valid : v.validMode = true)
  | legacy (l : Legacy) (captured : Captured server v.original_current l)
      (mode : v.mode = .legacyBootstrap) (backend_ref : v.backend_ref = l.backend_ref)
      (frontend_ref : v.frontend_ref = l.frontend_ref) (compose : v.legacy_compose = l.compose)
      (nginx : v.legacy_nginx = l.nginx) (compose_sha : v.legacy_compose_sha = l.compose_sha)
      (nginx_sha : v.legacy_nginx_sha = l.nginx_sha)
      (alembic_head : v.legacy_alembic_head = l.alembic_head)

/-- The backup path and the checksum of the state file, or `NONE` twice. -/
inductive HoldsState (v : Values) : Prop
  | existed (flag : v.target_state_existed = true)
      (backup : v.target_state_backup =
        v.target_dir ++ str "/.deployment-state.json.pretransaction")
      (sha : 64 ≤ v.target_state_sha.length)
  | missing (flag : v.target_state_existed = false) (backup : v.target_state_backup = str "NONE")
      (sha : v.target_state_sha = str "NONE")

/-- The values that a transaction passes to the writer. -/
structure Passed (server : Server) (v : Values) : Prop where
  target_dir : IsReleaseDir server v.target_dir
  original_current : IsReleaseDir server v.original_current
  original_previous : ∀ dir, v.original_previous = some dir → IsReleaseDir server dir ∧ '/' ∈ dir
  backend_image_id : isImageId v.backend_image_id = true
  frontend_image_id : isImageId v.frontend_image_id = true
  legacy : Holds server v
  state : HoldsState v

theorem orElse_of_ne_nil {value default : Text} (h : value ≠ []) : orElse value default = value :=
  if_neg h

/-- Nothing passed is left to a default. -/
theorem Passed.withDefaults {v : Values} (h : Passed server v) : v.withDefaults = v := by
  have hlegacy : v.legacy_compose ≠ [] ∧ v.legacy_nginx ≠ [] ∧ v.legacy_compose_sha ≠ [] ∧
      v.legacy_nginx_sha ≠ [] ∧ v.legacy_alembic_head ≠ [] := by
    cases h.legacy with
    | release mode valid =>
        simp only [Values.validMode, mode, Bool.and_eq_true, decide_eq_true_iff] at valid
        obtain ⟨-, hcompose, hnginx, hcompose_sha, hnginx_sha, hhead⟩ := valid
        rw [hcompose, hnginx, hcompose_sha, hnginx_sha, hhead]
        decide
    | legacy l captured mode backend_ref frontend_ref compose nginx compose_sha nginx_sha head =>
        rw [compose, nginx, compose_sha, nginx_sha, head, captured.compose, captured.nginx]
        refine ⟨by simp [str], by simp [str], ne_nil_of_length (length_sha256sum captured.compose_sha),
          ne_nil_of_length (length_sha256sum captured.nginx_sha), ?_⟩
        intro hnil
        have hhead := captured.alembic_head
        rw [hnil] at hhead
        cases hhead
  have hstate : v.target_state_backup ≠ [] ∧ v.target_state_sha ≠ [] := by
    cases h.state with
    | existed flag backup sha => exact ⟨by simp [backup, str], ne_nil_of_length sha⟩
    | missing flag backup sha =>
        rw [backup, sha]
        decide
  obtain ⟨hcompose, hnginx, hcompose_sha, hnginx_sha, hhead⟩ := hlegacy
  simp [Values.withDefaults, orElse_of_ne_nil, hcompose, hnginx, hcompose_sha, hnginx_sha, hhead,
    hstate.1, hstate.2]

theorem holdsState_of_candidate {v : Values}
    (h : candidate_state server v.target_dir =
      some (v.target_state_existed, v.target_state_backup, v.target_state_sha)) : HoldsState v := by
  unfold candidate_state at h
  dsimp only at h
  split at h
  · simp only [bind_eq_some, exists_guard] at h
    obtain ⟨-, sha, hsha, h⟩ := h
    simp only [Option.some.injEq, Prod.mk.injEq] at h
    obtain ⟨hflag, hbackup, rfl⟩ := h
    exact .existed hflag.symm hbackup.symm (length_sha256sum hsha)
  · simp only [Option.some.injEq, Prod.mk.injEq] at h
    obtain ⟨hflag, hbackup, hsha⟩ := h
    exact .missing hflag.symm hbackup.symm hsha.symm

/-- The journal is written for values as they are passed. -/
theorem passed_of_prepare {recovery : Recovery} {target old : Text} {old_previous : Option Text}
    {v : Values} {journal : Entry} (htarget : IsReleaseDir server target)
    (hold : IsReleaseDir server old)
    (hprevious : ∀ dir, old_previous = some dir → IsReleaseDir server dir ∧ '/' ∈ dir)
    (hrecovery : Describes server old recovery)
    (h : prepare_transaction_journal server recovery target old old_previous = some (v, journal)) :
    Passed server v ∧ write_release_journal server v = some journal := by
  simp only [prepare_transaction_journal, bind_eq_some, exists_guard] at h
  obtain ⟨-, state, hstate, written, hwritten, h⟩ := h
  obtain ⟨rfl, rfl⟩ := Prod.mk.inj (Option.some.inj h)
  refine ⟨?_, hwritten⟩
  cases hrecovery with
  | manifest m ids backend_ref frontend_ref backend_id frontend_id =>
      exact {
        target_dir := htarget
        original_current := hold
        original_previous := hprevious
        backend_image_id := backend_id
        frontend_image_id := frontend_id
        legacy := .release rfl (by
          simp [Values.validMode, Recovery.ofManifest, backend_ref, frontend_ref])
        state := holdsState_of_candidate hstate }
  | legacy l captured =>
      exact {
        target_dir := htarget
        original_current := hold
        original_previous := hprevious
        backend_image_id := captured.backend_image_id
        frontend_image_id := captured.frontend_image_id
        legacy := .legacy l captured rfl rfl rfl rfl rfl rfl rfl rfl
        state := holdsState_of_candidate hstate }

/-! ## What the writer accepts -/

theorem isPlain_of_graphic {text : Text} (hne : text ≠ [])
    (h : (text.all fun c => 33 ≤ c.toNat ∧ c.toNat ≤ 126) = true) : isPlain server text = true := by
  rw [isPlain, Bool.and_eq_true, List.all_eq_true]
  refine ⟨by simpa using hne, fun c hc => ?_⟩
  obtain ⟨hlow, hhigh⟩ := of_decide_eq_true (List.all_eq_true.mp h c hc)
  rw [server.locale.space_graphic c hlow hhigh]
  rfl

theorem graphic_of_isHexDigit {c : Char} (h : isHexDigit c = true) :
    33 ≤ c.toNat ∧ c.toNat ≤ 126 := by
  simp only [isHexDigit, isDigit, Bool.or_eq_true, Bool.and_eq_true, decide_eq_true_iff] at h
  rcases h with ⟨hlow, hhigh⟩ | ⟨hlow, hhigh⟩
  · have hlow' : 48 ≤ c.toNat := hlow
    have hhigh' : c.toNat ≤ 57 := hhigh
    omega
  · have hlow' : 97 ≤ c.toNat := hlow
    have hhigh' : c.toNat ≤ 102 := hhigh
    omega

theorem isPlain_of_isSha256 {text : Text} (h : isSha256 text = true) :
    isPlain server text = true := by
  apply isPlain_of_graphic (isSha256_ne_nil h)
  simp only [isSha256, Bool.and_eq_true, List.all_eq_true] at h
  exact List.all_eq_true.mpr fun c hc => decide_eq_true (graphic_of_isHexDigit (h.2 c hc))

theorem isPlain_modeText (mode : Mode) : isPlain server (modeText mode) = true := by
  cases mode with
  | release => exact isPlain_of_graphic (by decide) (by decide)
  | legacyBootstrap => exact isPlain_of_graphic (by decide) (by decide)

theorem isPlain_flagText (flag : Bool) : isPlain server (flagText flag) = true := by
  cases flag with
  | false => exact isPlain_of_graphic (by decide) (by decide)
  | true => exact isPlain_of_graphic (by decide) (by decide)

/-- What the writer has accepted. -/
structure Written (server : Server) (v : Values) (journal : Entry) : Prop where
  file : journal = ⟨.file (KeyFile.render v.assignments), 0o600, server.uid⟩
  plain : ∀ e ∈ v.assignments, isPlain server e.2 = true
  state_sha : v.target_state_sha = str "NONE" ∨ isSha256 v.target_state_sha = true

theorem written_of_write {v : Values} {journal : Entry} (hdefaults : v.withDefaults = v)
    (h : write_release_journal server v = some journal) : Written server v journal := by
  simp only [write_release_journal, hdefaults, bind_eq_some, exists_guard] at h
  obtain ⟨-, hplain, hbackup, hsha, -, h⟩ := h
  have hstate_sha : v.target_state_sha = str "NONE" ∨ isSha256 v.target_state_sha = true := by
    simpa only [Bool.or_eq_true, decide_eq_true_iff] using hsha
  have hplain_sha : isPlain server v.target_state_sha = true := by
    rcases hstate_sha with hnone | hsha
    · rw [hnone]
      exact isPlain_of_graphic (by decide) (by decide)
    · exact isPlain_of_isSha256 hsha
  have hversion : isPlain server (str "1") = true := isPlain_of_graphic (by decide) (by decide)
  simp only [Values.plain, List.all_cons, List.all_nil, Bool.and_eq_true] at hplain
  refine ⟨(Option.some.inj h).symm, ?_, hstate_sha⟩
  simp only [Values.assignments, List.forall_mem_cons]
  simp [hplain, hbackup, hplain_sha, hversion, isPlain_modeText, isPlain_flagText]

/-! ## What the reader finds -/

theorem map_fst_assignments (v : Values) : v.assignments.map Prod.fst = journalKeys := rfl

theorem journalKeys_writable :
    journalKeys.Nodup ∧ (∀ key ∈ journalKeys, '=' ∉ key) ∧ ∀ key ∈ journalKeys, '\n' ∉ key := by
  decide +kernel

theorem isPlain_spec {text : Text} (h : isPlain server text = true) :
    text ≠ [] ∧ ∀ c ∈ text, server.locale.space c = false := by
  simpa [isPlain] using h

/-- The keys are distinct, though some begin like others, and no value has a newline in it. -/
theorem Written.writable {v : Values} {journal : Entry} (h : Written server v journal) :
    KeyFile.Writable v.assignments := by
  obtain ⟨hnodup, hequals, hline⟩ := journalKeys_writable
  rw [← map_fst_assignments v] at hnodup hequals hline
  refine ⟨hnodup, fun e he => hequals _ (List.mem_map_of_mem he),
    fun e he => hline _ (List.mem_map_of_mem he), fun e he hmem => ?_⟩
  have hspace := (isPlain_spec (h.plain e he)).2 _ hmem
  rw [server.locale.space_control _ (by decide) (by decide)] at hspace
  cases hspace

theorem Written.value {v : Values} {journal : Entry} (h : Written server v journal)
    {e : Text × Text} (he : e ∈ v.assignments) :
    release_journal_value (KeyFile.render v.assignments) e.1 = e.2 := by
  rw [release_journal_value, KeyFile.valueOf_render h.writable he]
  rfl

theorem Written.expected {v : Values} {journal : Entry} (h : Written server v journal) :
    (KeyFile.lines (KeyFile.render v.assignments)).all (fun line =>
      line.isEmpty || KeyFile.expected server.locale.space journalKeys line) = true := by
  rw [KeyFile.lines_render h.writable, List.all_eq_true]
  intro line hline
  obtain ⟨e, he, rfl⟩ := List.mem_map.mp hline
  obtain ⟨hne, hspace⟩ := isPlain_spec (h.plain e he)
  have hkey : e.1 ∈ journalKeys := by
    rw [← map_fst_assignments v]
    exact List.mem_map_of_mem he
  rw [KeyFile.expected_entry hkey hne hspace, Bool.or_true]

@[simp] theorem readMode_modeText (mode : Mode) : readMode (modeText mode) = some mode := by
  cases mode <;> rfl

@[simp] theorem readFlag_flagText (flag : Bool) : readFlag (flagText flag) = some flag := by
  cases flag <;> rfl

/-- A directory is never read as an absent one: it has a slash in its path. -/
theorem readPrevious_getD {previous : Option Text}
    (h : ∀ dir, previous = some dir → IsReleaseDir server dir ∧ '/' ∈ dir) :
    readPrevious server (previous.getD (str "NONE")) = some previous := by
  cases previous with
  | none => rfl
  | some dir =>
      obtain ⟨hdir, hslash⟩ := h dir rfl
      have hne : dir ≠ str "NONE" := by
        rintro rfl
        exact absurd hslash (by decide)
      rw [Option.getD_some, readPrevious, if_neg hne, hdir]
      rfl

/-- Reading the assignments of values leaves their patterns to check. -/
theorem load_values_of_assignments {v : Values} {value : Text → Text} (h : Passed server v)
    (hvalue : ∀ e ∈ v.assignments, value e.1 = e.2) :
    load_values server value = if v.validState && v.validMode then some v else none := by
  simp only [Values.assignments, List.forall_mem_cons] at hvalue
  obtain ⟨hversion, hmode, htarget, hcurrent, hprevious, hbackend_ref, hfrontend_ref, hbackend_id,
    hfrontend_id, hcompose, hnginx, hcompose_sha, hnginx_sha, hhead, hexisted, hbackup, hsha, -⟩ :=
    hvalue
  have htarget_dir : resolve_release_dir server v.target_dir = some v.target_dir := h.target_dir
  have horiginal : resolve_release_dir server v.original_current = some v.original_current :=
    h.original_current
  simp only [load_values, hversion, hmode, htarget, hcurrent, hprevious, hbackend_ref,
    hfrontend_ref, hbackend_id, hfrontend_id, hcompose, hnginx, hcompose_sha, hnginx_sha, hhead,
    hexisted, hbackup, hsha, readMode_modeText, htarget_dir, horiginal,
    readPrevious_getD h.original_previous, h.backend_image_id, h.frontend_image_id,
    readFlag_flagText]
  by_cases hvalid : v.validState = true ∧ v.validMode = true
  · simp [guard, hvalid.1, hvalid.2]
  · rw [← Bool.and_eq_true] at hvalid
    rw [if_neg hvalid]
    simpa [guard, Option.bind_eq_none_iff] using hvalid

/-- A checksum that the writer accepts has the form that the reader asks for. -/
theorem validState_of_written {v : Values} {journal : Entry} (h : Passed server v)
    (hwritten : Written server v journal) : v.validState = true := by
  cases h.state with
  | existed flag backup sha =>
      have hsha : isSha256 v.target_state_sha = true := by
        refine hwritten.state_sha.resolve_left fun hnone => ?_
        rw [hnone] at sha
        exact absurd sha (by decide)
      simp [Values.validState, flag, backup, hsha]
  | missing flag backup sha => simp [Values.validState, flag, backup, sha]

/-- Of the legacy state only the checksums can have another form than the reader asks for. -/
theorem validMode_iff {v : Values} {journal : Entry} (h : Passed server v)
    (hwritten : Written server v journal) :
    v.validMode = true ↔ v.mode = .release ∨ Char.ofNat 92 ∉ v.original_current := by
  cases h.legacy with
  | release mode valid => exact iff_of_true valid (.inl mode)
  | legacy l captured mode backend_ref frontend_ref compose nginx compose_sha nginx_sha head =>
      have hcurrent : (str "ODIRAG_JOURNAL_ORIGINAL_CURRENT", v.original_current) ∈ v.assignments := by
        simp [Values.assignments]
      have hspace := (isPlain_spec (hwritten.plain _ hcurrent)).2
      have hcompose_sum := captured.compose_sha
      have hnginx_sum := captured.nginx_sha
      rw [captured.compose] at hcompose_sum
      rw [captured.nginx] at hnginx_sum
      have hcompose : isSha256 l.compose_sha = true ↔ Char.ofNat 92 ∉ v.original_current := by
        rw [isSha256_of_sha256sum hcompose_sum, not_isEscaped_append hspace (by decide)]
      have hnginx : isSha256 l.nginx_sha = true ↔ Char.ofNat 92 ∉ v.original_current := by
        rw [isSha256_of_sha256sum hnginx_sum, not_isEscaped_append hspace (by decide)]
      have hvalid : v.validMode = (isSha256 l.compose_sha && isSha256 l.nginx_sha) := by
        simp only [Values.validMode, mode, backend_ref, frontend_ref, compose, nginx, compose_sha,
          nginx_sha, head, captured.compose, captured.nginx, captured.backend_ref,
          captured.frontend_ref, captured.alembic_head, decide_true, Bool.true_and, Bool.and_true]
      rw [hvalid, Bool.and_eq_true, hcompose, hnginx, and_self, mode]
      exact (or_iff_right (by decide)).symm

/-- A journal in a file of root is read up to the patterns of the mode. -/
theorem load_of_written {v : Values} {journal : Entry} (huid : server.uid = 0)
    (h : Passed server v) (hwritten : Written server v journal) :
    load_release_journal server journal = if v.validMode then some v else none := by
  have hfilled : (KeyFile.render v.assignments).isEmpty = false := rfl
  rw [hwritten.file, huid]
  simp only [load_release_journal, Entry.filled, Entry.guarded, hfilled, hwritten.expected,
    load_values_of_assignments h fun e he => hwritten.value he, validState_of_written h hwritten]
  rfl

/-- What `deploy_release` has done when it has written a journal. -/
theorem written_of_deploy {operation : Operation} {requested : Text} {v : Values} {journal : Entry}
    (h : deploy_release server operation requested = some (v, journal)) :
    server.uid = 0 ∧ Passed server v ∧ Written server v journal := by
  simp only [deploy_release, bind_eq_some, exists_guard] at h
  obtain ⟨huid, target, htarget, current, hcurrent, old_previous, hprevious, -, -, -, recovery,
    hrecovery, old, hold, h⟩ := h
  obtain ⟨dir, hdir, hdescribes⟩ := describes_of_prepare hrecovery
  obtain rfl : dir = old := Option.some.inj (hdir.symm.trans hold)
  subst hold
  obtain ⟨hpassed, hwrite⟩ := passed_of_prepare (isReleaseDir_of_resolve htarget).1
    (isReleaseDir_of_link hcurrent).1
    (fun dir hdir => isReleaseDir_of_link (by rw [hprevious, hdir])) hdescribes h
  exact ⟨huid, hpassed, written_of_write hpassed.withDefaults hwrite⟩

/-! ## A server with a legacy release -/

/-- The six blanks that every locale has. -/
def posix : Locale where
  space c := (9 ≤ c.toNat && c.toNat ≤ 13) || c == ' '
  space_blank := rfl
  space_control := by
    intro c hlow hhigh
    simp [hlow, hhigh]
  space_graphic := by
    intro c hlow _
    have hblank : c ≠ ' ' := by
      rintro rfl
      exact absurd hlow (by decide)
    have hcontrol : ¬ c.toNat ≤ 13 := by omega
    simp [hblank, hcontrol]

def composeText : Text := str "name: odirag\n"
def nginxText : Text := str "worker_processes auto;\n"
def integrityText : Text := str "import json\nimport sys\n"
def providerText : Text := str "import sys\nimport urllib.request\n"

/-- The digests of the files below. -/
def digests : List (Text × Text) :=
  [(composeText, str "1341408e53a86f3883a6ff791ba0e7515b6cd6b285b319c0c7e3705116637d2d"),
    (nginxText, str "43f15f4ef53f7b60ceaf0faf29001743da8588d345468810acda1713b8eb5e22"),
    (integrityText, str "932a1d1da43128093b592f86a541522ab4c09325de2dfe78c0ec0ab558b44470"),
    (providerText, str "7f9ffa9bb7bbc8119dd9754615a0fb24eed3cba20df3aa4bde6b9daa95a69ad9")]

def digest (text : Text) : Text :=
  ((digests.find? fun e => e.1 = text).map Prod.snd).getD (List.replicate 64 '0')

theorem isSha256_digest (text : Text) : isSha256 (digest text) = true := by
  have hall : ∀ e ∈ digests, isSha256 e.2 = true := by decide +kernel
  unfold digest
  cases hfind : digests.find? fun e => e.1 = text with
  | none => decide
  | some e => exact hall e (List.mem_of_find?_eq_some hfind)

def backendId : Text := str "sha256:10e08a419e850eba1ebba18fdd28eb7ec1b7e8baa9bcc3b973e2b8891ec726be"
def frontendId : Text := str "sha256:1cf387c012cd2d02f1923e589f86df4a4802427057dbc90f47b87f04d29d54bc"

def candidateDir : Text := str "/opt/odirag/releases/2026-05-02"

def candidateManifest : Text :=
  KeyFile.render
    [(str "ODIRAG_RELEASE_ID", str "2026-05-02"),
      (str "ODIRAG_SOURCE_COMMIT", List.replicate 40 'a'),
      (str "ODIRAG_BACKEND_IMAGE_REF", str "ghcr.io/odirag/backend@" ++ backendId),
      (str "ODIRAG_FRONTEND_IMAGE_REF", str "ghcr.io/odirag/frontend@" ++ frontendId),
      (str "ODIRAG_ALEMBIC_HEAD", str "0042_documents"),
      (str "ODIRAG_COMPOSE_SHA256", digest composeText),
      (str "ODIRAG_NGINX_SHA256", digest nginxText),
      (str "ODIRAG_INTEGRITY_CHECK_SHA256", digest integrityText),
      (str "ODIRAG_PROVIDER_CHECK_SHA256", digest providerText),
      (str "ODIRAG_BUILD_CREATED", str "2026-05-02T10:00:00Z")]

/-- The files of a candidate and of a legacy release in `old`. -/
def sampleFiles (old : Text) : List (Text × Text) :=
  [(candidateDir ++ str "/manifest.env", candidateManifest),
    (candidateDir ++ str "/deploy/production/compose.yml", composeText),
    (candidateDir ++ str "/deploy/production/nginx.conf", nginxText),
    (candidateDir ++ str "/deploy/production/scripts/verify-production-integrity.py", integrityText),
    (candidateDir ++ str "/deploy/production/scripts/verify-production-rag.py", providerText),
    (old ++ str "/deploy/production/compose.yml", composeText),
    (old ++ str "/deploy/production/nginx.conf", nginxText)]

def sampleDirs (old : Text) : List Text :=
  str "/opt/odirag/releases" :: [candidateDir, old].flatMap fun dir =>
    [dir, dir ++ str "/deploy", dir ++ str "/deploy/production",
      dir ++ str "/deploy/production/scripts"]

def sampleDocker (old : Text) : Docker where
  ps service := [service ++ str "-1"]
  container_image container :=
    if container = str "frontend-1" then some frontendId else some backendId
  image_id _ := some backendId
  label _ _ := []
  repo_digests image_id :=
    if image_id = frontendId then [str "odirag/frontend@" ++ frontendId]
    else [str "odirag/backend@" ++ backendId]
  nginx_source _ := some (old ++ str "/deploy/production/nginx.conf")
  alembic_version _ := some (str "0042_documents\n")
  container_image_form := by
    intro container id h
    split at h
    · obtain rfl := Option.some.inj h
      decide
    · obtain rfl := Option.some.inj h
      decide
  image_id_form := by
    intro image id h
    obtain rfl := Option.some.inj h
    decide

/-- A server on which `current` leads to a legacy release in `old`. -/
def sampleServer (old : Text) : Server where
  locale := posix
  uid := 0
  pid := str "4711"
  release_root := str "/opt/odirag/releases"
  current_link := str "/opt/odirag/current"
  previous_link := str "/opt/odirag/previous"
  release_journal := str "/opt/odirag/.release-transaction.env"
  realpath path :=
    if path ∈ sampleDirs old then some path
    else if path = str "/opt/odirag/current" ∧ old ∈ sampleDirs old then some old
    else none
  realpath_resolved := by
    intro path resolved h
    split at h
    · next hmem =>
        obtain rfl := Option.some.inj h
        exact if_pos hmem
    · split at h
      · next hold =>
          obtain rfl := Option.some.inj h
          exact if_pos hold.2
      · cases h
  lstat path :=
    if path = str "/opt/odirag/current" then some ⟨.link, 0o777, 0⟩
    else if path ∈ sampleDirs old then some ⟨.directory, 0o755, 0⟩
    else ((sampleFiles old).lookup path).map fun text => ⟨.file text, 0o644, 0⟩
  contents path := (sampleFiles old).lookup path
  sha256 := digest
  sha256_form := isSha256_digest
  docker := sampleDocker old
  passes _ _ := true
  rm _ := true

/-- The journal of a transaction is read back, with exactly the values it was written for, unless it
records the checksums of a legacy release in a directory with a backslash in its path. -/
theorem load_release_journal_iff (server : Server) {operation : Operation} {requested : Text}
    {v : Values} {journal : Entry}
    (h : deploy_release server operation requested = some (v, journal)) :
    load_release_journal server journal = some v ↔
      v.mode = .release ∨ Char.ofNat 92 ∉ v.original_current := by
  obtain ⟨huid, hpassed, hwritten⟩ := written_of_deploy h
  rw [load_of_written huid hpassed hwritten, ← validMode_iff hpassed hwritten]
  simp

/-- What is recorded of a legacy release without a backslash in its path. -/
def sampleValues : Values where
  mode := .legacyBootstrap
  target_dir := candidateDir
  original_current := str "/opt/odirag/releases/legacy"
  original_previous := none
  backend_ref := str "odirag/backend@" ++ backendId
  frontend_ref := str "odirag/frontend@" ++ frontendId
  backend_image_id := backendId
  frontend_image_id := frontendId
  legacy_compose := str "/opt/odirag/releases/legacy/deploy/production/compose.yml"
  legacy_nginx := str "/opt/odirag/releases/legacy/deploy/production/nginx.conf"
  legacy_compose_sha := digest composeText
  legacy_nginx_sha := digest nginxText
  legacy_alembic_head := str "0042_documents"
  target_state_existed := false
  target_state_backup := str "NONE"
  target_state_sha := str "NONE"

def sampleJournal : Entry := ⟨.file (KeyFile.render sampleValues.assignments), 0o600, 0⟩

theorem deploy_release_sample :
    deploy_release (sampleServer (str "/opt/odirag/releases/legacy")) .deploy candidateDir =
      some (sampleValues, sampleJournal) := by
  decide +kernel

theorem load_release_journal_legacy :
    load_release_journal (sampleServer (str "/opt/odirag/releases/legacy")) sampleJournal =
      some sampleValues :=
  (load_release_journal_iff _ deploy_release_sample).mpr (.inr (by decide))

/-- With a backslash in the path the journal is written, and the reader refuses it. -/
theorem load_release_journal_backslash :
    ∃ written : Values × Entry,
      deploy_release (sampleServer (str "/opt/odirag/releases/old\\legacy")) .deploy candidateDir =
        some written ∧
      load_release_journal (sampleServer (str "/opt/odirag/releases/old\\legacy")) written.2 ≠
        some written.1 := by
  have hany : (deploy_release (sampleServer (str "/opt/odirag/releases/old\\legacy")) .deploy
      candidateDir).any (fun written => decide (load_release_journal
        (sampleServer (str "/opt/odirag/releases/old\\legacy")) written.2 ≠ some written.1)) =
      true := by
    decide +kernel
  obtain ⟨written, hwritten, hload⟩ := (Option.any_eq_true _ _).mp hany
  exact ⟨written, hwritten, of_decide_eq_true hload⟩

end Odirag.Release.JournalText
