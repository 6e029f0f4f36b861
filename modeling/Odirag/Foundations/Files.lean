import Odirag.Foundations.Effect
import Odirag.Foundations.Text
import Mathlib.Data.List.Infix
import Mathlib.Logic.Function.Basic

/-!
# Files, directories and links

What is at each path of a file system, where a structure says that all that exists lies in a
directory. `Disk.realpath` follows links, and what it gives has none on it. The actions of a machine
change one path at a time and log the paths that they write; the rules at the end say what making
directories, a temporary file and its renaming leave of the disk there was before.
-/

namespace Odirag.Files

/-- A path from the top of the file system, by its components. -/
abbrev Path := List Text

/-- What is at a path; the destination of a link has no empty components and no single dots. -/
inductive Node
  | file (content : List UInt8)
  | dir
  | link (absolute : Bool) (destination : List Text)
deriving DecidableEq

/-- What is at each path: all that exists lies in a directory. -/
structure Disk where
  node : Path → Option Node
  top : node [] = some .dir
  parent_dir : ∀ path name, node (path ++ [name]) ≠ none → node path = some .dir

/-- The components of a text with slashes. -/
def parts (text : Text) : List Text :=
  (text.splitOn '/').filter fun part => part ≠ [] ∧ part ≠ ['.']

/-- A path below another, unless the text is an absolute path itself. -/
def join (path : Path) (text : Text) : Path :=
  if text.head? = some '/' then parts text else path ++ parts text

namespace Disk

section

variable (d : Disk)

def isLink (path : Path) : Bool :=
  match d.node path with
  | some (.link _ _) => true
  | _ => false

/-- One component after the other, up to the first link, where `next` goes on. -/
def follow (next : Path → List Text → Option Path) : Path → List Text → Option Path
  | done, [] => some done
  | done, name :: rest =>
      if name = ['.', '.'] then follow next done.dropLast rest
      else
        match d.node (done ++ [name]) with
        | some (.link absolute destination) =>
            next (if absolute then [] else done) (destination ++ rest)
        | _ => follow next (done ++ [name]) rest

/-- Follow at most so many links. -/
def realpathFrom : ℕ → Path → List Text → Option Path
  | 0 => d.follow fun _ _ => none
  | links + 1 => d.follow (realpathFrom links)

/-- The path without links and double dots; `none` where there are too many links. -/
def realpath (links : ℕ) (path : Path) : Option Path := d.realpathFrom links [] path

/-- Neither double dots nor links on the way. -/
def Plain (path : Path) : Prop := ['.', '.'] ∉ path ∧ ∀ p, p <+: path → d.isLink p = false

/-- The disk with something else at a path that is no directory, in a directory. -/
def update (path : Path) (node : Option Node) (hne : path ≠ [])
    (hparent : d.node path.dropLast = some .dir) (hslot : d.node path ≠ some .dir) : Disk where
  node := Function.update d.node path node
  top := by rw [Function.update_of_ne (Ne.symm hne), d.top]
  parent_dir := by
    intro q name hq
    by_cases heq : q ++ [name] = path
    · rw [← heq, List.dropLast_concat] at hparent
      rw [Function.update_of_ne, hparent]
      intro hq
      simp [hq] at heq
    · rw [Function.update_of_ne heq] at hq
      have hdir := d.parent_dir q name hq
      rw [Function.update_of_ne, hdir]
      rintro rfl
      exact hslot hdir

/-- What is at a path of a disk that has these entries. -/
def nodeOf (entries : List (Path × Node)) (path : Path) : Option Node :=
  if path = [] then some .dir else entries.lookup path

/-- The disk that has these entries, each in a directory. -/
def ofEntries (entries : List (Path × Node))
    (h : ∀ entry ∈ entries, nodeOf entries entry.1.dropLast = some .dir) : Disk where
  node := nodeOf entries
  top := rfl
  parent_dir := by
    intro path name hne
    rw [nodeOf, if_neg (by simp)] at hne
    obtain ⟨node, hnode⟩ := Option.ne_none_iff_exists'.mp hne
    obtain ⟨before, after, rfl, -⟩ := List.lookup_eq_some_iff.mp hnode
    have hparent := h (path ++ [name], node) (by simp)
    rwa [List.dropLast_concat] at hparent

/-- Put something at a path, or take away what is there. -/
def set? (path : Path) (node : Option Node) : Option Disk :=
  if h : path ≠ [] ∧ d.node path.dropLast = some .dir ∧ d.node path ≠ some .dir then
    some (d.update path node h.1 h.2.1 h.2.2)
  else none

end

variable {d d' : Disk} {path p q : Path} {node : Option Node}

theorem set?_eq_some (h : d.set? path node = some d') :
    d.node path ≠ some .dir ∧ d'.node = Function.update d.node path node := by
  unfold set? at h
  split at h
  · next hslot =>
      obtain rfl := Option.some_inj.mp h
      exact ⟨hslot.2.2, rfl⟩
  · cases h

/-- What is no directory can be replaced where it is. -/
theorem exists_set? (node : Option Node) (hpath : d.node path ≠ none)
    (hdir : d.node path ≠ some .dir) : ∃ d', d.set? path node = some d' := by
  have hne : path ≠ [] := by
    rintro rfl
    exact hdir d.top
  have hparent : d.node path.dropLast = some .dir := by
    refine d.parent_dir path.dropLast (path.getLast hne) ?_
    rwa [List.dropLast_append_getLast]
  exact ⟨d.update path node hne hparent hdir, dif_pos ⟨hne, hparent, hdir⟩⟩

/-- Above what exists there are directories. -/
theorem dir_of_prefix (hinitial : p <+: q) (hq : d.node q ≠ none) :
    p = q ∨ d.node p = some .dir := by
  obtain ⟨rest, rfl⟩ := hinitial
  induction rest using List.reverseRecOn with
  | nil => exact .inl (List.append_nil p).symm
  | append_singleton rest name ih =>
      rw [← List.append_assoc] at hq
      have hparent := d.parent_dir _ _ hq
      refine .inr ?_
      rcases ih (by rw [hparent]; simp) with heq | hdir
      · rwa [← heq] at hparent
      · exact hdir

theorem exists_of_prefix (hinitial : p <+: q) (hq : d.node q ≠ none) : d.node p ≠ none := by
  rcases dir_of_prefix hinitial hq with rfl | hdir
  · exact hq
  · rw [hdir]
    simp

theorem plain_nil : d.Plain [] := by
  refine ⟨List.not_mem_nil, fun p hp => ?_⟩
  obtain rfl := List.prefix_nil.mp hp
  rw [isLink, d.top]

theorem Plain.of_prefix (h : d.Plain q) (hinitial : p <+: q) : d.Plain p :=
  ⟨fun hmem => h.1 (hinitial.subset hmem), fun r hr => h.2 r (hr.trans hinitial)⟩

theorem Plain.concat (h : d.Plain path) {name : Text} (hname : name ≠ ['.', '.'])
    (hlink : d.isLink (path ++ [name]) = false) : d.Plain (path ++ [name]) := by
  constructor
  · intro hmem
    rcases List.mem_append.mp hmem with hmem | hmem
    · exact h.1 hmem
    · exact hname (List.mem_singleton.mp hmem).symm
  · intro p hp
    rcases List.prefix_concat_iff.mp hp with rfl | hp
    · exact hlink
    · exact h.2 p hp

/-- A path without links and double dots is what it resolves to. -/
theorem follow_plain {next : Path → List Text → Option Path} {rest : List Text} {done : Path}
    (h : d.Plain (done ++ rest)) : d.follow next done rest = some (done ++ rest) := by
  induction rest generalizing done with
  | nil => rw [follow, List.append_nil]
  | cons name rest ih =>
      have hname : name ≠ ['.', '.'] := fun heq => h.1 (by simp [heq])
      have hlink := h.2 (done ++ [name]) ⟨rest, by simp⟩
      have hlater := @ih (done ++ [name]) (by simpa using h)
      rw [List.append_assoc, List.singleton_append] at hlater
      rw [follow, if_neg hname]
      unfold isLink at hlink
      split
      · next hnode =>
          rw [hnode] at hlink
          cases hlink
      · exact hlater

theorem realpath_plain (links : ℕ) (h : d.Plain path) : d.realpath links path = some path := by
  cases links with
  | zero => exact follow_plain h
  | succ links => exact follow_plain h

/-- Nothing but links leads away from what is plain. -/
theorem plain_of_follow {next : Path → List Text → Option Path}
    (hnext : ∀ done rest r, d.Plain done → next done rest = some r → d.Plain r)
    {rest : List Text} {done r : Path} (hdone : d.Plain done)
    (h : d.follow next done rest = some r) : d.Plain r := by
  induction rest generalizing done with
  | nil =>
      obtain rfl := Option.some_inj.mp h
      exact hdone
  | cons name rest ih =>
      rw [follow] at h
      split at h
      · exact ih (hdone.of_prefix (List.dropLast_prefix done)) h
      · next hname =>
          split at h
          · refine hnext _ _ r ?_ h
            split
            · exact plain_nil
            · exact hdone
          · next hnode =>
              refine ih (hdone.concat hname ?_) h
              unfold isLink
              split
              · next absolute destination hlink => exact absurd hlink (hnode absolute destination)
              · rfl

theorem plain_of_realpathFrom {links : ℕ} {rest : List Text} {done r : Path}
    (hdone : d.Plain done) (h : d.realpathFrom links done rest = some r) : d.Plain r := by
  induction links generalizing done rest r with
  | zero => exact plain_of_follow (fun _ _ _ _ h => by cases h) hdone h
  | succ links ih => exact plain_of_follow (fun _ _ _ hnext hr => @ih _ _ _ hnext hr) hdone h

/-- What a path resolves to is plain. -/
theorem plain_of_realpath {links : ℕ} {r : Path} (h : d.realpath links path = some r) :
    d.Plain r :=
  plain_of_realpathFrom plain_nil h

end Disk

/-! ## Actions -/

/-- The disk and the paths that were written. -/
structure Machine where
  disk : Disk
  written : List Path

inductive FileError
  | fileExists
  | fileNotFound
  | isADirectory
  | notADirectory
  | other (name : String)
deriving DecidableEq

abbrev Action := Effect Machine FileError

/-- Put something at a path, or take away what is there, and log it. -/
def Machine.set? (m : Machine) (path : Path) (node : Option Node) : Option Machine :=
  (m.disk.set? path node).map fun disk => { disk := disk, written := path :: m.written }

/-- Why nothing can be put at a path. -/
def refusal (d : Disk) (path : Path) : FileError :=
  if d.node path = some .dir then .isADirectory
  else if d.node path.dropLast = none then .fileNotFound
  else .notADirectory

/-- What may fail from outside, before anything is done. -/
def mayFail (fault : Option FileError) : Action Unit :=
  match fault with
  | none => pure ()
  | some error => Effect.raise error

def put (path : Path) (node : Node) : Action Unit := fun m =>
  match m.set? path (some node) with
  | some m' => (.ok (), m')
  | none => (.error (refusal m.disk path), m)

/-- Make the directories on the way that are missing. -/
def makeDirs (fault : Path → Option FileError) : Path → List Text → Action Unit
  | _, [] => pure ()
  | done, name :: rest => do
      let m ← Effect.look
      match m.disk.node (done ++ [name]) with
      | some .dir => makeDirs fault (done ++ [name]) rest
      | some _ => Effect.raise (if rest = [] then .fileExists else .notADirectory)
      | none => do
          mayFail (fault (done ++ [name]))
          put (done ++ [name]) .dir
          makeDirs fault (done ++ [name]) rest

/-- Make an empty file under the first of the names that is free. -/
def createTemporary (directory : Path) : List Text → Action Path
  | [] => Effect.raise .fileExists
  | name :: names => do
      let m ← Effect.look
      if m.disk.node (directory ++ [name]) ≠ none then createTemporary directory names
      else do
        put (directory ++ [name]) (.file [])
        pure (directory ++ [name])

/-- The content of a file. -/
def contents (path : Path) : Action (List UInt8) := fun m =>
  match m.disk.node path with
  | some (.file content) => (.ok content, m)
  | some .dir => (.error .isADirectory, m)
  | _ => (.error .fileNotFound, m)

/-- Rename a file, over what is at the target. -/
def rename (source target : Path) : Action Unit := fun m =>
  match m.disk.node source with
  | some (.file content) =>
      if source = target then (.ok (), m)
      else
        match (m.set? target (some (.file content))).bind fun m' => m'.set? source none with
        | some m' => (.ok (), m')
        | none => (.error (refusal m.disk target), m)
  | _ => (.error .fileNotFound, m)

/-- Take a file away, where there is one. -/
def unlink (path : Path) : Action Unit := fun m =>
  match m.disk.node path with
  | none => (.ok (), m)
  | some _ =>
      match m.set? path none with
      | some m' => (.ok (), m')
      | none => (.error (refusal m.disk path), m)

/-! ## What the actions leave -/

section

variable {A : Path → Prop} {d : Disk} {path temporary target p : Path} {content : List UInt8}
  {m m' : Machine}

theorem Machine.set?_eq_some {node : Option Node} (h : m.set? path node = some m') :
    m.disk.node path ≠ some .dir ∧ m'.disk.node = Function.update m.disk.node path node ∧
      m'.written = path :: m.written := by
  obtain ⟨disk, hdisk, rfl⟩ := Option.map_eq_some_iff.mp h
  obtain ⟨hdir, hnode⟩ := Disk.set?_eq_some hdisk
  exact ⟨hdir, hnode, rfl⟩

theorem ensures_mayFail {P E : Machine → Prop} (fault : Option FileError)
    (hfail : ∀ m, P m → E m) : Effect.Ensures P (mayFail fault) (fun _ => P) E := by
  cases fault with
  | none => exact Effect.Ensures.pure fun _ h => h
  | some error => exact Effect.Ensures.raise hfail

theorem ensures_put {P E : Machine → Prop} {Q : Unit → Machine → Prop} {node : Node}
    (hput : ∀ m m', P m → m.disk.node path ≠ some .dir →
      m'.disk.node = Function.update m.disk.node path (some node) →
      m'.written = path :: m.written → Q () m')
    (hfail : ∀ m, P m → E m) : Effect.Ensures P (put path node) Q E := by
  intro m hm
  unfold put
  cases hset : m.set? path (some node) with
  | some m' =>
      obtain ⟨hdir, hnode, hwritten⟩ := Machine.set?_eq_some hset
      exact hput m m' hm hdir hnode hwritten
  | none => exact hfail m hm

/-- A path is as it was, or it is a directory that was missing on the way to `path`. -/
def Kept (d d' : Disk) (path p : Path) : Prop :=
  d'.node p = d.node p ∨ (d.node p = none ∧ d'.node p = some .dir ∧ p <+: path)

/-- All that is new are directories on the way to `path`, and `A` allows all that was written. -/
structure Grown (A : Path → Prop) (d : Disk) (path : Path) (m : Machine) : Prop where
  nodes : ∀ p, Kept d m.disk path p
  written : ∀ p ∈ m.written, A p

/-- Beside such directories there is a temporary file at the end of them. -/
structure Holds (A : Path → Prop) (d : Disk) (path temporary : Path) (content : List UInt8)
    (m : Machine) : Prop where
  below : ∃ name, temporary = path ++ [name]
  absent : d.node temporary = none
  allowed : A temporary
  file : m.disk.node temporary = some (.file content)
  others : ∀ p ≠ temporary, Kept d m.disk path p
  written : ∀ p ∈ m.written, A p

/-- The file is at the target, where no directory was. -/
structure Replaced (A : Path → Prop) (d : Disk) (path target : Path) (content : List UInt8)
    (m : Machine) : Prop where
  file : m.disk.node target = some (.file content)
  others : ∀ p ≠ target, Kept d m.disk path p
  noDir : d.node target ≠ some .dir ∧ ¬ target <+: path
  written : ∀ p ∈ m.written, A p

theorem grown_start (A : Path → Prop) (d : Disk) (path : Path) :
    Grown A d path { disk := d, written := [] } :=
  ⟨fun _ => .inl rfl, fun p hp => by cases hp⟩

/-- Where the directory was there, everything is as it was. -/
theorem Kept.eq {d' : Disk} (h : Kept d d' path p) (hpath : d.node path ≠ none) :
    d'.node p = d.node p := by
  rcases h with h | ⟨habsent, -, hinitial⟩
  · exact h
  · exact absurd habsent (Disk.exists_of_prefix hinitial hpath)

theorem Kept.dir {d' : Disk} (h : Kept d d' path p) (hp : d.node p = some .dir) :
    d'.node p = some .dir := by
  rcases h with h | ⟨habsent, -, -⟩
  · rw [h, hp]
  · rw [hp] at habsent
    cases habsent

theorem Grown.put_dir {done : Path} (h : Grown A d path m) (hdone : done <+: path)
    (hA : d.node done = none → A done) (habsent : m.disk.node done = none)
    (hnode : m'.disk.node = Function.update m.disk.node done (some .dir))
    (hwritten : m'.written = done :: m.written) : Grown A d path m' := by
  have hd : d.node done = none := by
    rcases h.nodes done with heq | ⟨hd, -, -⟩
    · rw [← heq, habsent]
    · exact hd
  constructor
  · intro p
    unfold Kept
    rw [hnode]
    by_cases hp : p = done
    · subst hp
      exact .inr ⟨hd, Function.update_self .., hdone⟩
    · rw [Function.update_of_ne hp]
      exact h.nodes p
  · intro p hp
    rw [hwritten] at hp
    rcases List.mem_cons.mp hp with rfl | hp
    · exact hA hd
    · exact h.written p hp

/-- Missing directories are made from above, and where that fails some of them are there. -/
theorem ensures_makeDirs (hA : ∀ p, p <+: path → d.node p = none → A p)
    (fault : Path → Option FileError) (rest : List Text) (done : Path) (hpath : done ++ rest = path) :
    Effect.Ensures (fun m => Grown A d path m ∧ m.disk.node done = some .dir)
      (makeDirs fault done rest) (fun _ m => Grown A d path m ∧ m.disk.node path = some .dir)
      (Grown A d path) := by
  induction rest generalizing done with
  | nil =>
      rw [List.append_nil] at hpath
      subst hpath
      exact Effect.Ensures.pure fun _ h => h
  | cons name rest ih =>
      have hnext : done ++ [name] ++ rest = path := by rw [← hpath]; simp
      have hinitial : done ++ [name] <+: path := ⟨rest, hnext⟩
      rw [makeDirs]
      refine Effect.Ensures.look.bind fun seen => ?_
      split
      · next hnode =>
          refine (ih (done ++ [name]) hnext).conseq ?_ fun _ _ h => h
          rintro m ⟨⟨hgrown, -⟩, rfl⟩
          exact ⟨hgrown, hnode⟩
      · exact Effect.Ensures.raise fun m h => h.1.1
      · next hnode =>
          refine (ensures_mayFail _ fun m h => h.1.1).bind fun _ => ?_
          refine Effect.Ensures.bind ?_ fun _ => ih (done ++ [name]) hnext
          refine ensures_put ?_ fun m h => h.1.1
          rintro m m' ⟨⟨hgrown, -⟩, rfl⟩ - hput hwritten
          refine ⟨hgrown.put_dir hinitial (hA _ hinitial) hnode hput hwritten, ?_⟩
          rw [hput, Function.update_self]

theorem ensures_createTemporary (hA : ∀ name, A (path ++ [name])) (names : List Text) :
    Effect.Ensures (Grown A d path) (createTemporary path names)
      (fun temporary m => Holds A d path temporary [] m) (Grown A d path) := by
  induction names with
  | nil => exact Effect.Ensures.raise fun _ h => h
  | cons name names ih =>
      rw [createTemporary]
      refine Effect.Ensures.look.bind fun seen => ?_
      split
      · refine ih.conseq ?_ fun _ _ h => h
        rintro m ⟨hgrown, -⟩
        exact hgrown
      · next hfree =>
          rw [not_not] at hfree
          refine Effect.Ensures.bind (ensures_put ?_ fun m h => h.1) fun _ =>
            Effect.Ensures.pure fun _ h => h
          rintro m m' ⟨hgrown, rfl⟩ - hput hwritten
          refine ⟨⟨name, rfl⟩, ?_, hA name, ?_, ?_, ?_⟩
          · rcases hgrown.nodes (path ++ [name]) with heq | ⟨hd, -, -⟩
            · rw [← heq, hfree]
            · exact hd
          · rw [hput, Function.update_self]
          · intro p hp
            unfold Kept
            rw [hput, Function.update_of_ne hp]
            exact hgrown.nodes p
          · intro p hp
            rw [hwritten] at hp
            rcases List.mem_cons.mp hp with rfl | hp
            · exact hA name
            · exact hgrown.written p hp

/-- Writing into the temporary file. -/
theorem ensures_write {old : List UInt8} (new : List UInt8) :
    Effect.Ensures (Holds A d path temporary old) (put temporary (.file new))
      (fun _ => Holds A d path temporary new)
      (fun m => ∃ content, Holds A d path temporary content m) := by
  refine ensures_put ?_ fun _ h => ⟨old, h⟩
  rintro m m' h - hput hwritten
  refine ⟨h.below, h.absent, h.allowed, ?_, ?_, ?_⟩
  · rw [hput, Function.update_self]
  · intro p hp
    unfold Kept
    rw [hput, Function.update_of_ne hp]
    exact h.others p hp
  · intro p hp
    rw [hwritten] at hp
    rcases List.mem_cons.mp hp with rfl | hp
    · exact h.allowed
    · exact h.written p hp

theorem ensures_contents :
    Effect.Ensures (Holds A d path temporary content) (contents temporary)
      (fun found m => Holds A d path temporary content m ∧ found = content)
      (fun m => ∃ content, Holds A d path temporary content m) := by
  intro m h
  unfold contents
  rw [h.file]
  exact ⟨h, rfl⟩

/-- Without the temporary file nothing is new but directories. -/
theorem ensures_unlink :
    Effect.Ensures (fun m => ∃ content, Holds A d path temporary content m) (unlink temporary)
      (fun _ => Grown A d path) (Grown A d path) := by
  rintro m ⟨content, h⟩
  obtain ⟨disk, hdisk⟩ := m.disk.exists_set? none (by rw [h.file]; simp) (by rw [h.file]; simp)
  have hset : m.set? temporary none = some { disk := disk, written := temporary :: m.written } := by
    rw [Machine.set?, hdisk, Option.map_some]
  unfold unlink
  rw [h.file]
  dsimp only
  rw [hset]
  constructor
  · intro p
    unfold Kept
    rw [(Disk.set?_eq_some hdisk).2]
    by_cases hp : p = temporary
    · subst hp
      rw [Function.update_self]
      exact .inl h.absent.symm
    · rw [Function.update_of_ne hp]
      exact h.others p hp
  · intro p hp
    rcases List.mem_cons.mp hp with rfl | hp
    · exact h.allowed
    · exact h.written p hp

theorem Holds.dir (h : Holds A d path temporary content m) (hp : d.node p = some .dir) :
    m.disk.node p = some .dir := by
  refine (h.others p ?_).dir hp
  rintro rfl
  rw [h.absent] at hp
  cases hp

/-- The way to a temporary file is there. -/
theorem Holds.way (h : Holds A d path temporary content m) (hp : p <+: path) :
    m.disk.node p = some .dir := by
  obtain ⟨name, rfl⟩ := h.below
  have hne : m.disk.node (path ++ [name]) ≠ none := by
    rw [h.file]
    simp
  rcases Disk.dir_of_prefix (hp.trans (List.prefix_append path [name])) hne with rfl | hdir
  · have hlength := hp.length_le
    rw [List.length_append, List.length_singleton] at hlength
    omega
  · exact hdir

/-- Renaming puts the file at the target, or leaves it where it is. -/
theorem ensures_rename (htarget : A target) :
    Effect.Ensures (Holds A d path temporary content) (rename temporary target)
      (fun _ => Replaced A d path target content)
      (fun m => ∃ content, Holds A d path temporary content m) := by
  intro m h
  have hnoDir : m.disk.node target ≠ some .dir → d.node target ≠ some .dir ∧ ¬ target <+: path :=
    fun hdir => ⟨fun hd => hdir (h.dir hd), fun hinitial => hdir (h.way hinitial)⟩
  unfold rename
  rw [h.file]
  dsimp only
  by_cases heq : temporary = target
  · subst heq
    rw [if_pos rfl]
    exact ⟨h.file, h.others, hnoDir (by rw [h.file]; simp), h.written⟩
  rw [if_neg heq]
  -- A rename is two writes: the target gets the content, and the old name is removed.
  cases hset : (m.set? target (some (.file content))).bind fun m' => m'.set? temporary none with
  | none => exact ⟨content, h⟩
  | some m'' =>
      obtain ⟨m', hm', hm''⟩ := Option.bind_eq_some_iff.mp hset
      obtain ⟨hdir, hnode', hwritten'⟩ := Machine.set?_eq_some hm'
      obtain ⟨-, hnode'', hwritten''⟩ := Machine.set?_eq_some hm''
      refine ⟨?_, ?_, hnoDir hdir, ?_⟩
      · rw [hnode'', Function.update_of_ne (Ne.symm heq), hnode', Function.update_self]
      · intro p hp
        unfold Kept
        rw [hnode'']
        -- The old name was free before the file was written to it.
        by_cases htemporary : p = temporary
        · subst htemporary
          rw [Function.update_self]
          exact .inl h.absent.symm
        · rw [Function.update_of_ne htemporary, hnode', Function.update_of_ne hp]
          exact h.others p htemporary
      · intro p hp
        rw [hwritten'', hwritten'] at hp
        rcases List.mem_cons.mp hp with rfl | hp
        · exact h.allowed
        rcases List.mem_cons.mp hp with rfl | hp
        · exact htarget
        · exact h.written p hp

end

end Odirag.Files
