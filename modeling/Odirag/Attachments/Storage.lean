import Odirag.Attachments.Detection
import Odirag.Attachments.Download
import Odirag.Foundations.Files

/-!
# Storing a file

Reference: `FileStorage` of `backend/app/crawler/storage.py`.

Saving on a disk with links, where every step may fail. A safe name is one component of a path
whatever the given name is made of (`SafeName.join_eq`). A call stores the content below the root,
or it leaves what was there: the theorem says so of any disk before, and for the paths that are
written on the way when no link leads the directory out of the root. The clean-up itself succeeds.
-/

namespace Odirag.Attachments.Storage

open Files (Path Disk Machine FileError Action Node)

/-! ## Saving -/

/-- `FileStorage`; the root was resolved when the storage was made. -/
structure FileStorage where
  root : Path
  maxBytes : ℕ
  allowedExtensions : List Text

/-- The arguments of `save`. -/
structure SaveCall where
  sourceUrl : Text
  content : List UInt8
  namespaceName : Text
  filename : Option Text := none
  identity : Option Text := none
  expectedSha256 : Option Text := none

inductive SaveError
  | valueError (message : String)
  | osError (message : String)
  /-- A path with too many links. -/
  | runtimeError
  | file (error : FileError)
deriving DecidableEq

/-- What the system does in a call: how many links are followed, the random parts of the names of
temporary files, how many bytes are stored, what is read back, and which steps raise. -/
structure Faults where
  links : ℕ := 40
  tokens : List Text
  stored : ℕ
  read : List UInt8 → Except FileError (List UInt8) := .ok
  mkdir : Path → Option FileError := fun _ => none
  create : Option FileError := none
  write : Option FileError := none
  flush : Option FileError := none
  fsync : Option FileError := none
  close : Option FileError := none
  stat : Option FileError := none
  replace : Option FileError := none

/-- `target.parents`. -/
def parents (path : Path) : List Path := path.inits.filter fun p => p ≠ path

section

variable (D : DetectTools) (storage : FileStorage) (call : SaveCall) (faults : Faults)

/-- `FileStorage.__init__`; `none` is a `RuntimeError`. -/
def FileStorage.make (disk : Disk) (links : ℕ) (root : Path) (maxBytes : ℕ)
    (allowedExtensions : List Text) : Option FileStorage :=
  (disk.realpath links root).map fun root =>
    { root := root, maxBytes := maxBytes, allowedExtensions := allowedExtensions.map D.lower }

/-- `_expected_checksum`. -/
def expectedOf : Option Text :=
  match call.expectedSha256 with
  | none => some (D.sha256 call.content)
  | some expected => expectedChecksum D expected

/-- `filename or Path(urlsplit(source_url).path).name`; `none` is a `ValueError`. -/
def sourceName : Option Text :=
  match call.filename.bind nonEmpty with
  | some filename => some filename
  | none => (Url.urlsplit D.toTools call.sourceUrl).map fun parsed => pathName parsed.path

/-- `safe_filename(source_name, identity=identity)`. -/
def filenameOf (source : Text) : Text := safeFilename D source (str "attachment") call.identity

/-- `safe_filename(namespace, fallback="source")`. -/
def directoryName : Text := safeFilename D call.namespaceName (str "source") none

/-- `directory` and `target`. -/
def resolved (disk : Disk) (filename : Text) : Option (Path × Path) := do
  let directory ← disk.realpath faults.links (Files.join storage.root (directoryName D call))
  let target ← disk.realpath faults.links (Files.join directory filename)
  some (directory, target)

/-- The `with` block: the temporary file is made. -/
def createFile (directory : Path) (filename : Text) : Action Path := do
  Files.mayFail faults.create
  Files.createTemporary directory
    (faults.tokens.map fun token => '.' :: filename ++ '.' :: token ++ str ".tmp")

/-- The `with` block: the content is written. -/
def writeFile (temporary : Path) : Action Unit := do
  Files.put temporary (.file (call.content.take faults.stored))
  Files.mayFail faults.write
  Files.mayFail faults.flush
  Files.mayFail faults.fsync
  Files.mayFail faults.close

/-- `temporary_path.stat().st_size`. -/
def sizeOf (temporary : Path) : Action ℕ := do
  Files.mayFail faults.stat
  let content ← Files.contents temporary
  pure content.length

/-- `_sha256_path`. -/
def sha256Path (temporary : Path) : Action Text := do
  let content ← Files.contents temporary
  match faults.read content with
  | .ok bytes => pure (D.sha256 bytes)
  | .error error => Effect.raise error

/-- `os.replace(temporary_path, target)`. -/
def replaceFile (temporary target : Path) : Action Unit := do
  Files.mayFail faults.replace
  Files.rename temporary target

/-- What is done with the temporary file. -/
def fill (expected : Text) (temporary target : Path) : Effect Machine SaveError Path := do
  (writeFile call faults temporary).mapError .file
  let size ← (sizeOf faults temporary).mapError .file
  Effect.require (size = call.content.length)
    (.osError "attachment temporary file size mismatch")
  let found ← (sha256Path D faults temporary).mapError .file
  Effect.require (found = expected) (.valueError "attachment temporary file checksum mismatch")
  (replaceFile faults temporary target).mapError .file
  pure target

/-- `FileStorage.save`. -/
def save : Effect Machine SaveError Path := do
  Effect.require (call.content.length ≤ storage.maxBytes)
    (.valueError "attachment exceeds configured size limit")
  let expected ← Effect.ofOption
    (.valueError "expected attachment checksum must be a SHA-256 hex digest") (expectedOf D call)
  let source ← Effect.ofOption (.valueError "invalid URL") (sourceName D call)
  let filename := filenameOf D call source
  Effect.require (D.lower (splitSuffix (pathName filename)).2 ∈ storage.allowedExtensions)
    (.valueError "attachment extension is not allowed")
  let before ← Effect.look
  let places ← Effect.ofOption .runtimeError
    (resolved D storage call faults before.disk filename)
  Effect.require (storage.root = places.2 ∨ storage.root ∈ parents places.2)
    (.valueError "attachment path escaped storage root")
  (Files.makeDirs faults.mkdir [] places.1).mapError .file
  let temporary ← (createFile faults places.1 filename).mapError .file
  (fill D call faults expected temporary places.2).onError
    ((Files.unlink temporary).mapError .file)

end

/-! ## Safe names -/

/-- The characters of a safe name. -/
def isNameChar (c : Char) : Bool :=
  Url.isAsciiAlpha c || Url.isAsciiDigit c || c == '_' || c == '-' || c == '.'

/-- `hexdigest` gives hexadecimal digits. -/
def HexDigests (D : DetectTools) : Prop :=
  ∀ content, ∀ c ∈ D.sha256 content, ('a' ≤ c ∧ c ≤ 'f') ∨ ('0' ≤ c ∧ c ≤ '9')

section

variable {D : DetectTools}

theorem isNameChar_of_lower {c : Char} (h : 'a' ≤ c ∧ c ≤ 'z') : isNameChar c = true := by
  simp [isNameChar, Url.isAsciiAlpha, h]

theorem isNameChar_of_digit {c : Char} (h : '0' ≤ c ∧ c ≤ '9') : isNameChar c = true := by
  simp [isNameChar, Url.isAsciiDigit, h]

theorem isNameChar_replaceRuns {inRun : Bool} {text : Text} {c : Char}
    (h : c ∈ replaceRuns inRun text) : isNameChar c = true := by
  induction text generalizing inRun with
  | nil => cases h
  | cons first rest ih =>
      rw [replaceRuns] at h
      split at h
      · next hplain =>
          rcases List.mem_cons.mp h with rfl | h
          · simp only [Bool.or_eq_true] at hplain
            rcases hplain with ((hplain | hplain) | hplain) | hplain <;> simp [isNameChar, hplain]
          · exact ih h
      · split at h
        · exact ih h
        · rcases List.mem_cons.mp h with rfl | h
          · rfl
          · exact ih h

theorem isNameChar_suffix {suffix : Text} (h : isPlainSuffix suffix = true) {c : Char}
    (hc : c ∈ suffix) : isNameChar c = true := by
  unfold isPlainSuffix at h
  split at h
  · next extension =>
      rcases List.mem_cons.mp hc with rfl | hc
      · rfl
      · simp only [Bool.and_eq_true, List.all_eq_true, Bool.or_eq_true, decide_eq_true_eq] at h
        rcases h.1.1 c hc with hlower | hdigit
        · exact isNameChar_of_lower hlower
        · exact isNameChar_of_digit hdigit
  · cases h

/-- What a safe name is made of. -/
theorem exists_safeFilename (name fallback : Text) (identity : Option Text) :
    ∃ stem content suffix,
      (stem = fallback ∨ ∀ c ∈ stem, isNameChar c = true) ∧
      (suffix = [] ∨ isPlainSuffix suffix = true) ∧
      safeFilename D name fallback identity =
        stem ++ '-' :: ((D.sha256 content).take 10 ++ suffix) := by
  refine ⟨_, _, _, ?_, ?_, rfl⟩
  · refine (ite_eq_or_eq _ _ _).imp_right fun hstem c hc => ?_
    rw [hstem] at hc
    exact isNameChar_replaceRuns (Text.mem_of_mem_stripBy (List.mem_of_mem_take hc))
  · split
    · next hsuffix => exact .inr hsuffix
    · exact .inl rfl

/-- Whatever a name is made of, a safe name has none but plain characters. -/
theorem isNameChar_safeFilename (hhex : HexDigests D) (name : Text) {fallback : Text}
    (hfallback : ∀ c ∈ fallback, isNameChar c = true) (identity : Option Text) {c : Char}
    (hc : c ∈ safeFilename D name fallback identity) : isNameChar c = true := by
  obtain ⟨stem, content, suffix, hstem, hsuffix, heq⟩ :=
    exists_safeFilename (D := D) name fallback identity
  rw [heq] at hc
  rcases List.mem_append.mp hc with hc | hc
  · rcases hstem with rfl | hstem
    · exact hfallback c hc
    · exact hstem c hc
  rcases List.mem_cons.mp hc with rfl | hc
  · rfl
  rcases List.mem_append.mp hc with hc | hc
  · rcases hhex content c (List.mem_of_mem_take hc) with hlower | hdigit
    · exact isNameChar_of_lower ⟨hlower.1, Char.le_trans hlower.2 (by decide)⟩
    · exact isNameChar_of_digit hdigit
  · rcases hsuffix with rfl | hsuffix
    · cases hc
    · exact isNameChar_suffix hsuffix hc

theorem dash_mem_safeFilename (name fallback : Text) (identity : Option Text) :
    '-' ∈ safeFilename D name fallback identity := by
  obtain ⟨stem, content, suffix, -, -, heq⟩ :=
    exists_safeFilename (D := D) name fallback identity
  rw [heq]
  exact List.mem_append_right _ List.mem_cons_self

/-- A name of one component. -/
structure SafeName (name : Text) : Prop where
  noSlash : '/' ∉ name
  dash : '-' ∈ name

theorem SafeName.parts_eq {name : Text} (h : SafeName name) : Files.parts name = [name] := by
  have hne : name ≠ [] := List.ne_nil_of_mem h.dash
  have hdot : name ≠ ['.'] := by
    rintro rfl
    exact absurd h.dash (by decide)
  rw [Files.parts, List.splitOn_eq_singleton h.noSlash]
  simp [hne, hdot]

/-- A safe name adds one component to a path. -/
theorem SafeName.join_eq {name : Text} (h : SafeName name) (path : Path) :
    Files.join path name = path ++ [name] := by
  have hhead : name.head? ≠ some '/' := fun heq => h.noSlash (List.mem_of_head? heq)
  rw [Files.join, if_neg hhead, h.parts_eq]

theorem SafeName.ne_dots {name : Text} (h : SafeName name) : name ≠ ['.', '.'] := by
  rintro rfl
  exact absurd h.dash (by decide)

theorem safeName_safeFilename (hhex : HexDigests D) (name : Text) {fallback : Text}
    (hfallback : ∀ c ∈ fallback, isNameChar c = true) (identity : Option Text) :
    SafeName (safeFilename D name fallback identity) :=
  ⟨fun hslash => absurd (isNameChar_safeFilename hhex name hfallback identity hslash) (by decide),
    dash_mem_safeFilename name fallback identity⟩

theorem safeName_directoryName (hhex : HexDigests D) (call : SaveCall) :
    SafeName (directoryName D call) :=
  safeName_safeFilename hhex _ (List.all_eq_true.mp (by decide)) none

theorem safeName_filenameOf (hhex : HexDigests D) (call : SaveCall) (source : Text) :
    SafeName (filenameOf D call source) :=
  safeName_safeFilename hhex _ (List.all_eq_true.mp (by decide)) call.identity

end

/-! ## What a call leaves -/

section

variable (D : DetectTools) (storage : FileStorage) (call : SaveCall) (faults : Faults)
  (disk : Disk)

/-- A path is as it was, or it is a directory that was missing. -/
def Same (d d' : Disk) (p : Path) : Prop :=
  d'.node p = d.node p ∨ (d.node p = none ∧ d'.node p = some .dir)

/-- After a call that returns `target`; the next call finds a root like the one before. -/
structure Stored (target : Path) (m : Machine) : Prop where
  inside : storage.root <+: target
  notRoot : target ≠ storage.root
  content : m.disk.node target = some (.file call.content)
  others : ∀ p ≠ target, Same disk m.disk p
  plain : m.disk.Plain storage.root

/-- After a call that raises. -/
structure Untouched (m : Machine) : Prop where
  paths : ∀ p, Same disk m.disk p
  target : ∀ source ∈ sourceName D call,
    ∀ places ∈ resolved D storage call faults disk (filenameOf D call source),
      m.disk.node places.2 = disk.node places.2 ∧
        m.disk.node (places.1 ++ [filenameOf D call source]) =
          disk.node (places.1 ++ [filenameOf D call source])
  plain : m.disk.Plain storage.root

/-- While the directory of the call resolves to a place below the root: below the root, or a
directory that was missing on the way to it. -/
def Allowed (p : Path) : Prop :=
  (∀ directory ∈ disk.realpath faults.links (storage.root ++ [directoryName D call]),
      storage.root <+: directory) →
    storage.root <+: p ∨ (p <+: storage.root ∧ disk.node p = none)

/-- Everything that was written is allowed. -/
def Confined (m : Machine) : Prop := ∀ p ∈ m.written, Allowed D storage call faults disk p

end

theorem mem_parents {p path : Path} : p ∈ parents path ↔ p <+: path ∧ p ≠ path := by
  simp [parents]

/-- The test that a target is not outside. -/
theorem eq_or_mem_parents {root target : Path} :
    root = target ∨ root ∈ parents target ↔ root <+: target := by
  rw [mem_parents]
  constructor
  · rintro (rfl | ⟨hinitial, -⟩)
    · exact List.prefix_rfl
    · exact hinitial
  · intro hinitial
    by_cases heq : root = target
    · exact .inl heq
    · exact .inr ⟨hinitial, heq⟩

section

variable {D : DetectTools} {storage : FileStorage} {call : SaveCall} {faults : Faults}
  {disk : Disk} {source : Text} {directory target : Path}

/-- The directory and the target of a call. -/
structure Places (D : DetectTools) (storage : FileStorage) (call : SaveCall) (faults : Faults)
    (disk : Disk) (filename : Text) (directory target : Path) : Prop where
  entry : disk.realpath faults.links (storage.root ++ [directoryName D call]) = some directory
  file : disk.realpath faults.links (directory ++ [filename]) = some target
  dots : filename ≠ ['.', '.']

theorem places_of_resolved (hhex : HexDigests D)
    (h : resolved D storage call faults disk (filenameOf D call source) =
      some (directory, target)) :
    Places D storage call faults disk (filenameOf D call source) directory target := by
  have hfilename := safeName_filenameOf hhex call source
  obtain ⟨found, hdirectory, h⟩ := Option.bind_eq_some_iff.mp h
  obtain ⟨found', htarget, h⟩ := Option.bind_eq_some_iff.mp h
  obtain ⟨rfl, rfl⟩ := Prod.mk.inj (Option.some_inj.mp h)
  rw [(safeName_directoryName hhex call).join_eq] at hdirectory
  rw [hfilename.join_eq] at htarget
  exact ⟨hdirectory, htarget, hfilename.ne_dots⟩

variable {filename : Text}

/-- What does not exist yet is not below a link. -/
theorem Places.target_eq (h : Places D storage call faults disk filename directory target)
    (hmissing : disk.node directory = none) :
    target = directory ++ [filename] ∧ disk.node target = none := by
  have habsent : disk.node (directory ++ [filename]) = none := by
    by_contra hne
    rw [disk.parent_dir _ _ hne] at hmissing
    cases hmissing
  have hlink : disk.isLink (directory ++ [filename]) = false := by
    rw [Disk.isLink, habsent]
  have hplain := (Disk.plain_of_realpath h.entry).concat h.dots hlink
  have htarget := h.file
  rw [Disk.realpath_plain _ hplain] at htarget
  obtain rfl := Option.some_inj.mp htarget
  exact ⟨rfl, habsent⟩

/-- Without a link the directory is right below the root. -/
theorem Places.directory_eq (h : Places D storage call faults disk filename directory target)
    (hhex : HexDigests D) (hroot : disk.Plain storage.root)
    (hlink : disk.isLink (storage.root ++ [directoryName D call]) = false) :
    directory = storage.root ++ [directoryName D call] := by
  have hplain := hroot.concat (safeName_directoryName hhex call).ne_dots hlink
  have hdirectory := h.entry
  rw [Disk.realpath_plain _ hplain] at hdirectory
  exact (Option.some_inj.mp hdirectory).symm

/-- The root is a directory, or the directory is below it. -/
theorem Places.root_dir (h : Places D storage call faults disk filename directory target)
    (hhex : HexDigests D) (hroot : disk.Plain storage.root) :
    disk.node storage.root = some .dir ∨ storage.root <+: directory := by
  cases hlink : disk.isLink (storage.root ++ [directoryName D call]) with
  | true =>
      refine .inl (disk.parent_dir _ (directoryName D call) fun hnone => ?_)
      rw [Disk.isLink, hnone] at hlink
      cases hlink
  | false =>
      rw [h.directory_eq hhex hroot hlink]
      exact .inr (List.prefix_append _ _)

theorem Places.allowed_way (h : Places D storage call faults disk filename directory target)
    {p : Path} (hp : p <+: directory) (habsent : disk.node p = none) :
    Allowed D storage call faults disk p := by
  intro hdirectory
  have hroot : storage.root <+: directory := hdirectory directory h.entry
  rcases List.prefix_or_prefix_of_prefix hroot hp with hbelow | habove
  · exact .inl hbelow
  · exact .inr ⟨habove, habsent⟩

theorem Places.allowed_temporary (h : Places D storage call faults disk filename directory target)
    (name : Text) : Allowed D storage call faults disk (directory ++ [name]) := by
  intro hdirectory
  have hroot : storage.root <+: directory := hdirectory directory h.entry
  exact .inl (hroot.trans (List.prefix_append _ _))

/-- Directories that were missing do not change what is at the target. -/
theorem Places.kept (h : Places D storage call faults disk filename directory target)
    {d : Disk} (hkept : ∀ p, Files.Kept disk d directory p) :
    d.node target = disk.node target ∧
      d.node (directory ++ [filename]) = disk.node (directory ++ [filename]) := by
  by_cases hmissing : disk.node directory = none
  · obtain ⟨rfl, habsent⟩ := h.target_eq hmissing
    have hsame : d.node (directory ++ [filename]) = disk.node (directory ++ [filename]) := by
      rcases hkept (directory ++ [filename]) with hsame | ⟨-, -, hinitial⟩
      · exact hsame
      · have hlength := hinitial.length_le
        rw [List.length_append, List.length_singleton] at hlength
        omega
    exact ⟨hsame, hsame⟩
  · exact ⟨(hkept _).eq hmissing, (hkept _).eq hmissing⟩

/-- The root of a storage that was made has no links on it. -/
theorem plain_make {links maxBytes : ℕ} {root : Path} {allowedExtensions : List Text}
    (h : FileStorage.make D disk links root maxBytes allowedExtensions = some storage) :
    disk.Plain storage.root := by
  obtain ⟨resolved, hresolved, rfl⟩ := Option.map_eq_some_iff.mp h
  exact Disk.plain_of_realpath hresolved

theorem isLink_of_same {d : Disk} {p : Path} (h : Same disk d p) (hlink : disk.isLink p = false) :
    d.isLink p = false := by
  unfold Disk.isLink at hlink ⊢
  rcases h with h | ⟨-, hdir⟩
  · rwa [h]
  · rw [hdir]

theorem same_of_kept {d : Disk} {p : Path} (h : Files.Kept disk d directory p) : Same disk d p := by
  rcases h with h | ⟨habsent, hdir, -⟩
  · exact .inl h
  · exact .inr ⟨habsent, hdir⟩

section

variable {A : Path → Prop} {temporary : Path} {expected : Text}

theorem ensures_createFile (hA : ∀ name, A (directory ++ [name])) :
    Effect.Ensures (Files.Grown A disk directory) (createFile faults directory filename)
      (fun temporary m => Files.Holds A disk directory temporary [] m)
      (Files.Grown A disk directory) :=
  (Files.ensures_mayFail _ fun _ h => h).bind fun _ => Files.ensures_createTemporary hA _

/-- Some part of the content is in the temporary file, and all of it only where so much is stored. -/
theorem ensures_writeFile :
    Effect.Ensures (Files.Holds A disk directory temporary []) (writeFile call faults temporary)
      (fun _ m => Files.Holds A disk directory temporary (call.content.take faults.stored) m)
      (fun m => ∃ content, Files.Holds A disk directory temporary content m) := by
  have hfail : ∀ fault, Effect.Ensures
      (Files.Holds A disk directory temporary (call.content.take faults.stored))
      (Files.mayFail fault)
      (fun _ => Files.Holds A disk directory temporary (call.content.take faults.stored))
      (fun m => ∃ content, Files.Holds A disk directory temporary content m) :=
    fun fault => Files.ensures_mayFail fault fun _ h => ⟨_, h⟩
  unfold writeFile
  refine (Files.ensures_write _).bind fun _ => ?_
  refine (hfail faults.write).bind fun _ => ?_
  refine (hfail faults.flush).bind fun _ => ?_
  exact (hfail faults.fsync).bind fun _ => hfail faults.close

theorem ensures_sizeOf {content : List UInt8} :
    Effect.Ensures (Files.Holds A disk directory temporary content) (sizeOf faults temporary)
      (fun size m => Files.Holds A disk directory temporary content m ∧ size = content.length)
      (fun m => ∃ content, Files.Holds A disk directory temporary content m) := by
  unfold sizeOf
  refine (Files.ensures_mayFail _ fun _ h => ⟨_, h⟩).bind fun _ => ?_
  refine Files.ensures_contents.bind fun found => Effect.Ensures.pure ?_
  rintro m ⟨h, rfl⟩
  exact ⟨h, rfl⟩

theorem ensures_sha256Path {content : List UInt8} :
    Effect.Ensures (Files.Holds A disk directory temporary content)
      (sha256Path D faults temporary)
      (fun _ m => Files.Holds A disk directory temporary content m)
      (fun m => ∃ content, Files.Holds A disk directory temporary content m) := by
  unfold sha256Path
  refine Files.ensures_contents.bind fun found => ?_
  split
  · exact Effect.Ensures.pure fun m h => h.1
  · exact Effect.Ensures.raise fun m h => ⟨content, h.1⟩

/-- What passes the test of its size is all of the content. -/
theorem take_eq_of_length (n : ℕ) (h : (call.content.take n).length = call.content.length) :
    call.content.take n = call.content := by
  rw [List.length_take] at h
  exact List.take_of_length_le (by omega)

theorem ensures_replaceFile {content : List UInt8} (htarget : A target) :
    Effect.Ensures (Files.Holds A disk directory temporary content)
      (replaceFile faults temporary target)
      (fun _ m => Files.Replaced A disk directory target content m)
      (fun m => ∃ content, Files.Holds A disk directory temporary content m) :=
  (Files.ensures_mayFail _ fun _ h => ⟨_, h⟩).bind fun _ => Files.ensures_rename htarget

theorem ensures_fill (htarget : A target) :
    Effect.Ensures (Files.Holds A disk directory temporary [])
      (fill D call faults expected temporary target)
      (fun found m => found = target ∧ Files.Replaced A disk directory target call.content m)
      (fun m => ∃ content, Files.Holds A disk directory temporary content m) := by
  unfold fill
  refine ensures_writeFile.mapError.bind fun _ => ?_
  refine ensures_sizeOf.mapError.bind fun size => ?_
  refine (Effect.Ensures.require fun m h => ⟨_, h.1⟩).bind fun _ => ?_
  refine Effect.Ensures.conseq (P := Files.Holds A disk directory temporary call.content) ?_ ?_
    fun _ _ h => h
  · refine ensures_sha256Path.mapError.bind fun found => ?_
    refine (Effect.Ensures.require fun m h => ⟨_, h⟩).bind fun _ => Effect.Ensures.of_and fun _ => ?_
    refine (ensures_replaceFile htarget).mapError.bind fun _ => Effect.Ensures.pure fun m h => ?_
    exact ⟨rfl, h⟩
  · rintro m ⟨⟨h, hsize⟩, hlength⟩
    rw [take_eq_of_length faults.stored (hsize ▸ hlength)] at h
    exact h

end

/-- The steps that change the disk put the content at the target, or leave nothing but directories. -/
theorem Places.ensures (h : Places D storage call faults disk filename directory target)
    (hinside : storage.root <+: target) (expected : Text) :
    Effect.Ensures (fun m => m = { disk := disk, written := [] })
      (do
        (Files.makeDirs faults.mkdir [] directory).mapError .file
        let temporary ← (createFile faults directory filename).mapError .file
        (fill D call faults expected temporary target).onError
          ((Files.unlink temporary).mapError .file) : Effect Machine SaveError Path)
      (fun found m => found = target ∧
        Files.Replaced (Allowed D storage call faults disk) disk directory target call.content m)
      (Files.Grown (Allowed D storage call faults disk) disk directory) := by
  have hdirs := Files.ensures_makeDirs
    (fun p hp habsent => h.allowed_way hp habsent) faults.mkdir directory []
    (List.nil_append directory)
  refine Effect.Ensures.bind (hdirs.mapError.conseq ?_ fun _ _ hgrown => hgrown.1) fun _ => ?_
  · rintro m rfl
    exact ⟨Files.grown_start _ disk directory, disk.top⟩
  refine (ensures_createFile h.allowed_temporary).mapError.bind fun temporary => ?_
  exact (ensures_fill fun _ => .inl hinside).onError Files.ensures_unlink.mapError

/-- Where the content is at the target, that is below the root. -/
theorem Places.stored (h : Places D storage call faults disk filename directory target)
    (hhex : HexDigests D) (hroot : disk.Plain storage.root) (hinside : storage.root <+: target)
    {A : Path → Prop} {m : Machine}
    (hm : Files.Replaced A disk directory target call.content m) :
    Stored storage call disk target m where
  inside := hinside
  notRoot := by
    rintro rfl
    rcases h.root_dir hhex hroot with hdir | hinitial
    · exact hm.noDir.1 hdir
    · exact hm.noDir.2 hinitial
  content := hm.file
  others p hp := same_of_kept (hm.others p hp)
  plain := by
    refine ⟨hroot.1, fun p hp => ?_⟩
    by_cases htarget : p = target
    · rw [htarget, Disk.isLink, hm.file]
    · exact isLink_of_same (same_of_kept (hm.others p htarget)) (hroot.2 p hp)

/-- Before the first directory is made, nothing has changed. -/
theorem untouched_start (hroot : disk.Plain storage.root) :
    Untouched D storage call faults disk { disk := disk, written := [] } :=
  ⟨fun _ => .inl rfl, fun _ _ _ _ => ⟨rfl, rfl⟩, hroot⟩

/-- Saving is atomic and confined. -/
theorem save_atomic (hhex : HexDigests D) (hroot : disk.Plain storage.root) :
    Effect.Ensures (fun m => m = { disk := disk, written := [] })
      (save D storage call faults)
      (fun target m => Stored storage call disk target m ∧ Confined D storage call faults disk m)
      (fun m => Untouched D storage call faults disk m ∧ Confined D storage call faults disk m) := by
  have hstart : ∀ m : Machine, m = { disk := disk, written := [] } →
      Untouched D storage call faults disk m ∧ Confined D storage call faults disk m := by
    rintro m rfl
    exact ⟨untouched_start hroot, fun p hp => by cases hp⟩
  unfold save
  refine (Effect.Ensures.require hstart).bind fun _ => Effect.Ensures.of_and fun _ => ?_
  refine (Effect.Ensures.ofOption hstart).bind fun expected => Effect.Ensures.of_and fun _ => ?_
  refine (Effect.Ensures.ofOption hstart).bind fun source =>
    Effect.Ensures.of_and fun hsource => ?_
  refine (Effect.Ensures.require hstart).bind fun _ => Effect.Ensures.of_and fun _ => ?_
  refine (Effect.Ensures.look_eq _).bind fun before => Effect.Ensures.of_and ?_
  rintro rfl
  refine (Effect.Ensures.ofOption hstart).bind ?_
  rintro ⟨directory, target⟩
  refine Effect.Ensures.of_and fun hresolved => ?_
  have hplaces := places_of_resolved hhex hresolved
  refine (Effect.Ensures.require hstart).bind fun _ => Effect.Ensures.of_and fun hinside => ?_
  rw [eq_or_mem_parents] at hinside
  refine ((hplaces.ensures hinside expected).conseq (fun _ h => h) ?_).weaken ?_
  · rintro found m ⟨rfl, h⟩
    exact ⟨hplaces.stored hhex hroot hinside h, h.written⟩
  · intro m h
    refine ⟨⟨fun p => same_of_kept (h.nodes p), ?_, hroot.1, fun p hp => ?_⟩, h.written⟩
    · intro source' hsource' places hplaces'
      obtain rfl := Option.some_inj.mp (hsource.symm.trans hsource')
      obtain rfl := Option.some_inj.mp (hresolved.symm.trans hplaces')
      exact hplaces.kept h.nodes
    · exact isLink_of_same (same_of_kept (h.nodes p)) (hroot.2 p hp)

end

/-! ## A call that writes outside the root -/

/-- The digests that are needed. -/
def noticeTools : DetectTools :=
  { sampleTools with
    sha256 := fun content =>
      if content = bytes (str "document-7") then
        str "fb3365e29cba79bd0df8cd1ab5f19cc2b0bea961183e640ff68875e8458b56fb"
      else if content = bytes (str "attachment-1") ++ 0 :: bytes (str "notice.pdf") then
        str "b9fc2995bbe064389b1bb1ec173329ed80723130b58fcca5eacb4404e72a526d"
      else str "21af8e71c8703196df7fe1ff901869a88fe64c07bbaa83d838efb45a52b4f303" }

def noticeStorage : FileStorage where
  root := strs ["data", "files"]
  maxBytes := 1024
  allowedExtensions := strs [".pdf"]

def noticeCall : SaveCall where
  sourceUrl := str "https://a.cn/notice.pdf"
  content := bytes (str "%PDF-1")
  namespaceName := str "document-7"
  filename := some (str "notice.pdf")
  identity := some (str "attachment-1")

/-- A call in which nothing fails. -/
def noticeFaults : Faults where
  tokens := strs ["x1y2z3"]
  stored := 6

/-- A disk on which even the directory above the root is missing. -/
def freshDisk : Disk := .ofEntries [] (by decide)

/-- The directory of the call is a link out of the root, where a link leads back. -/
def linkedDisk : Disk :=
  .ofEntries
    [(strs ["data"], .dir), (strs ["data", "files"], .dir), (strs ["mnt"], .dir),
      (strs ["data", "files", "document-7-fb3365e29c"], .link true (strs ["mnt"])),
      (strs ["mnt", "notice-b9fc2995bb.pdf"], .link true (strs ["data", "files", "kept.pdf"]))]
    (by decide)

theorem hexDigests_noticeTools : HexDigests noticeTools := by
  intro content
  have hall : ((noticeTools.sha256 content).all fun c =>
      ('a' ≤ c ∧ c ≤ 'f') ∨ ('0' ≤ c ∧ c ≤ '9')) = true := by
    simp only [noticeTools]
    split
    · decide
    · split <;> decide
  exact fun c hc => of_decide_eq_true (List.all_eq_true.mp hall c hc)

theorem plain_noticeStorage : freshDisk.Plain noticeStorage.root := by
  have hlinks : ∀ p ∈ noticeStorage.root.inits, freshDisk.isLink p = false := by decide
  exact ⟨by decide, fun p hp => hlinks p ((List.mem_inits p _).mpr hp)⟩

theorem save_atomic_notice :
    Effect.Ensures (fun m => m = { disk := freshDisk, written := [] })
      (save noticeTools noticeStorage noticeCall noticeFaults)
      (fun target m => Stored noticeStorage noticeCall freshDisk target m ∧
        Confined noticeTools noticeStorage noticeCall noticeFaults freshDisk m)
      (fun m => Untouched noticeTools noticeStorage noticeCall noticeFaults freshDisk m ∧
        Confined noticeTools noticeStorage noticeCall noticeFaults freshDisk m) :=
  @save_atomic noticeTools noticeStorage noticeCall noticeFaults freshDisk
    hexDigests_noticeTools plain_noticeStorage

/-- The directory above a missing root is made, and where a link stands in the place of the directory
of the call, the temporary file is made where the link leads. -/
theorem save_writes_outside :
    (∃ p ∈ (save noticeTools noticeStorage noticeCall noticeFaults
        { disk := freshDisk, written := [] }).2.written, ¬ noticeStorage.root <+: p) ∧
      ∃ p ∈ (save noticeTools noticeStorage noticeCall noticeFaults
        { disk := linkedDisk, written := [] }).2.written, ¬ noticeStorage.root <+: p := by
  decide +kernel

end Odirag.Attachments.Storage
