import Odirag.Release.Stages

/-!
# What the functions of the release scripts keep

Reference: `deploy/production/scripts/release-common.sh`.

`Keeps P p Q` specifies a script on hosts in the phase `P`: it is sound at every moment and ends
in `Q`, which may depend on the exit status. Each function has one such specification. They leave
the phases open, so that the same lemma serves the transaction and the recovery.
-/

namespace Odirag.Release

open Script

variable {ρ : Type} [DecidableEq ρ] {α β : Type}

/-- From a host that satisfies `P` the script is sound at every moment and ends in `Q`. -/
def Keeps (P : Host ρ → Prop) (p : Sh ρ α) (Q : α → Host ρ → Prop) : Prop :=
  Triple commands (fun s => s.host.Sound) (fun s => P s.host) p fun a s => Q a s.host

/-- A successful end and an unsuccessful one. -/
def Ends (P Q : Host ρ → Prop) : Bool → Host ρ → Prop
  | true => Q
  | false => P

variable {P P' Q : Host ρ → Prop} {R : α → Host ρ → Prop} {S : β → Host ρ → Prop}

omit [DecidableEq ρ] in
/-- An end in a phase `P` and an end in a stronger `Q` are both ends in `P`. -/
theorem Ends.weaken (h : ∀ h, Q h → P' h) (h' : ∀ h, P h → P' h) (b : Bool) (host : Host ρ)
    (hends : Ends P Q b host) : P' host := by
  cases b with
  | false => exact h' host hends
  | true => exact h host hends

namespace Keeps

/-! ## Rules -/

theorem bind {p : Sh ρ α} {f : α → Sh ρ β} (hp : Keeps P p R) (hf : ∀ a, Keeps (R a) (f a) S) :
    Keeps P (p >>= f) S :=
  Triple.bind hp hf

theorem pure {a : α} (hP : ∀ h, P h → h.Sound) (hR : ∀ h, P h → R a h) :
    Keeps P (Pure.pure a : Sh ρ α) R :=
  Triple.pure fun s hs => ⟨hP s.host hs, hR s.host hs⟩

theorem pre {p : Sh ρ α} (h : Keeps P p R) (hP : ∀ h, P' h → P h) : Keeps P' p R :=
  Triple.pre h fun s hs => hP s.host hs

theorem post {p : Sh ρ α} {R' : α → Host ρ → Prop} (h : Keeps P p R)
    (hR : ∀ a h, R a h → R' a h) : Keeps P p R' :=
  Triple.post h fun a s hs => hR a s.host hs

/-- Weaker ends. -/
theorem ends {p : Sh ρ Bool} {Q' : Host ρ → Prop} (h : Keeps P p (Ends P Q))
    (hP : ∀ h, P h → P' h) (hQ : ∀ h, Q h → Q' h) : Keeps P p (Ends P' Q') := by
  refine h.post fun b host hends => ?_
  cases b with
  | false => exact hP host hends
  | true => exact hQ host hends

/-- `p || …`: go on in the phase that the exit status tells. -/
theorem test {p : Sh ρ Bool} {q r : Sh ρ β} {T : Bool → Host ρ → Prop} (hp : Keeps P p T)
    (htrue : Keeps (T true) q S) (hfalse : Keeps (T false) r S) :
    Keeps P (p >>= fun b => if b = true then q else r) S := by
  refine hp.bind fun b => ?_
  cases b with
  | false => exact hfalse
  | true => exact htrue

theorem ite {c : Prop} [Decidable c] {q r : Sh ρ α} (hq : c → Keeps P q R)
    (hr : ¬ c → Keeps P r R) : Keeps P (if c then q else r) R := by
  split
  next h => exact hq h
  next h => exact hr h

/-- Look at a path and use what is there. -/
theorem node {path : Path ρ} {f : Option (Node ρ) → Sh ρ β} (hP : ∀ h, P h → h.Sound)
    (hf : ∀ n, Keeps (fun h => P h ∧ h.files path = n) (f n) S) :
    Keeps P (Release.node path >>= f) S := by
  have hread : Keeps P (Release.node path) fun n h => P h ∧ h.files path = n := by
    unfold Keeps
    exact Triple.inspect fun s hs => hP s.host hs
  exact hread.bind hf

/-- Look at a path, where nothing depends on what is there. -/
theorem look {path : Path ρ} {f : Option (Node ρ) → Sh ρ β} (hP : Phase P)
    (hf : ∀ n, Keeps P (f n) S) : Keeps P (Release.node path >>= f) S :=
  node hP.sound fun n => (hf n).pre fun _ h => h.1

/-- A fact that does not mention the host. -/
theorem of_and {a : Prop} {p : Sh ρ α} (h : a → Keeps P p R) :
    Keeps (fun h => P h ∧ a) p R :=
  Triple.of_and h

/-- The logical variables of a specification. -/
theorem of_exists {ι : Sort*} {P : ι → Host ρ → Prop} {p : Sh ρ α} (h : ∀ i, Keeps (P i) p R) :
    Keeps (fun h => ∃ i, P i h) p R :=
  Triple.of_exists h

/-! ## Commands -/

theorem command {c : Cmd ρ} {T : Bool → Host ρ → Prop} (hP : ∀ h, P h → h.Sound)
    (hT : ∀ b h, T b h → h.Sound)
    (h : ∀ s e, P s.host → StateFileWhole c e → T (c.run s e).1 (c.run s e).2.host) :
    Keeps P (issue c) T :=
  Triple.issue (fun s hs => hP s.host hs) fun s e hs he => ⟨hT _ _ (h s e hs he), h s e hs he⟩

omit [DecidableEq ρ] in
/-- Both ends are sound. -/
theorem ends_sound (hP : ∀ h, P h → h.Sound) (hQ : ∀ h, Q h → h.Sound) :
    ∀ b h, Ends P Q b h → h.Sound :=
  fun b h hends => Ends.weaken hQ hP b h hends

theorem external (hP : ∀ h, P h → h.Sound) (what : String) :
    Keeps P (Release.external what) fun _ => P :=
  command hP (fun _ => hP) fun _ _ hs _ => hs

theorem mv {source target : Path ρ} (hP : ∀ h, P h → h.Sound) (hQ : ∀ h, Q h → h.Sound)
    (h : ∀ h n, P h → h.files source = some n →
      Q ((h.set target (some n)).set source none)) :
    Keeps P (issue (.mv source target)) (Ends P Q) := by
  refine command hP (ends_sound hP hQ) fun s e hs _ => ?_
  cases hsource : s.host.files source with
  | none => simpa [Cmd.run, hsource, Ends] using hs
  | some n =>
      cases hstatus : e.status with
      | false => simpa [Cmd.run, hsource, hstatus, Ends] using hs
      | true => simpa [Cmd.run, hsource, hstatus, Ends, Shell.set] using h s.host n hs hsource

theorem ln {target : ρ} {link : Path ρ} (hP : ∀ h, P h → h.Sound) (hQ : ∀ h, Q h → h.Sound)
    (h : ∀ h, P h → Q (h.set link (some (.link target)))) :
    Keeps P (issue (.ln target link)) (Ends P Q) := by
  refine command hP (ends_sound hP hQ) fun s e hs _ => ?_
  by_cases hok : e.status = true ∧ s.host.files link = none
  · simpa [Cmd.run, hok, Ends, Shell.set] using h s.host hs
  · simpa [Cmd.run, hok, Ends] using hs

theorem rm {path : Path ρ} (hP : ∀ h, P h → h.Sound) (hQ : ∀ h, Q h → h.Sound)
    (h : ∀ h, P h → Q (h.set path none)) : Keeps P (issue (.rm path)) (Ends P Q) := by
  refine command hP (ends_sound hP hQ) fun s e hs _ => ?_
  cases hstatus : e.status with
  | false => simpa [Cmd.run, hstatus, Ends] using hs
  | true => simpa [Cmd.run, hstatus, Ends, Shell.set] using h s.host hs

theorem unlink {path : Path ρ} (hP : ∀ h, P h → h.Sound) (hQ : ∀ h, Q h → h.Sound)
    (h : ∀ h, P h → Q (h.set path none)) : Keeps P (issue (.unlink path)) (Ends P Q) := by
  refine command hP (ends_sound hP hQ) fun s e hs _ => ?_
  by_cases hok : e.status = true ∧ s.host.files path ≠ none
  · simpa [Cmd.run, hok, Ends, Shell.set] using h s.host hs
  · simpa [Cmd.run, hok, Ends] using hs

theorem filling {path : Path ρ} (hP : ∀ h, P h → h.Sound)
    (h : ∀ h n, P h → P (h.set path n)) : Keeps P (issue (.filling path)) fun _ => P :=
  command hP (fun _ => hP) fun s e hs _ => h s.host (e.left.map .file) hs

theorem cp {source target : Path ρ} (hP : ∀ h, P h → h.Sound) (hQ : ∀ h, Q h → h.Sound)
    (hfail : ∀ h n, P h → P (h.set target n))
    (h : ∀ h, P h → Q (h.set target (h.files source))) :
    Keeps P (issue (.cp source target)) (Ends P Q) := by
  refine command hP (ends_sound hP hQ) fun s e hs _ => ?_
  cases hstatus : e.status with
  | false => simpa [Cmd.run, hstatus, Ends, Shell.set] using hfail s.host _ hs
  | true => simpa [Cmd.run, hstatus, Ends, Shell.set] using h s.host hs

theorem printf {path : Path ρ} {j : Journal ρ} (hP : ∀ h, P h → h.Sound)
    (hQ : ∀ h, Q h → h.Sound) (hfail : ∀ h n, P h → P (h.set path n))
    (h : ∀ h j', P h → j' = none ∨ j' = some j → Q (h.set path (some (.journal j')))) :
    Keeps P (issue (.printf path j)) (Ends P Q) := by
  refine command hP (ends_sound hP hQ) fun s e hs _ => ?_
  cases e with
  | ok => exact h s.host (some j) hs (.inr rfl)
  | slipped => exact h s.host none hs (.inl rfl)
  | failed left => exact hfail s.host _ hs

/-- A `python3` leaves the whole file, or nothing that can be mistaken for it. -/
theorem python3 {path : Path ρ} {payload : File} (hP : ∀ h, P h → h.Sound)
    (hQ : ∀ h, Q h → h.Sound)
    (h : ∀ h n, P h → (∀ m, n = some m → m = .file payload ∨ m.acceptable = false) →
      Q (h.set path n)) :
    Keeps P (issue (.python3 path payload)) fun _ => Q := by
  refine command hP (fun _ => hQ) fun s e hs hwhole => ?_
  have hok : Q (s.host.set path (some (.file payload))) :=
    h s.host _ hs fun m hm => .inl (Option.some.inj hm).symm
  cases e with
  | ok => exact hok
  | slipped => exact hok
  | failed left =>
      refine h s.host (left.map .file) hs fun m hm => ?_
      obtain ⟨f, rfl, rfl⟩ := Option.map_eq_some_iff.mp hm
      exact hwhole.imp_left (congrArg Node.file)

theorem log (hP : Phase P) (text : String) :
    Keeps P (release_log text) fun b h => P h ∧ (b = true → ¬ h.Reports) := by
  refine command hP.sound (fun _ h hs => hP.sound h hs.1) fun s e hs _ => ?_
  cases hstatus : e.status with
  | false => simpa [Cmd.run, hstatus] using hs
  | true =>
      have hnews : ∀ text', Message.log text ≠ .recovered text' := by simp
      have hprint := hP.print s.host (.log text) hnews hs
      have hquiet := Host.not_reports_print (h := s.host) hnews
      simpa [Cmd.run, hstatus] using And.intro hprint hquiet

theorem die (hP : Phase P) {text : String} {T : Bool → Host ρ → Prop}
    (hT : ∀ h, P h → T false h) : Keeps P (release_die text) T := by
  have hprint : Keeps P (issue (.print (.error text))) fun _ => P := by
    refine command hP.sound (fun _ => hP.sound) fun s e hs _ => ?_
    cases hstatus : e.status with
    | false => simpa [Cmd.run, hstatus] using hs
    | true => simpa [Cmd.run, hstatus] using hP.print s.host (.error text) (by simp) hs
  exact hprint.bind fun _ => pure hP.sound hT

/-- A report needs everything to be as before. -/
theorem report (hP : Phase P) (hQ : ∀ h, Q h → h.Sound) {text : String}
    (h : ∀ h, P h → Q (h.print (.recovered text))) :
    Keeps P (issue (.print (.recovered text))) (Ends P Q) := by
  refine command hP.sound (ends_sound hP.sound hQ) fun s e hs _ => ?_
  cases hstatus : e.status with
  | false => simpa [Cmd.run, hstatus, Ends] using hs
  | true => simpa [Cmd.run, hstatus, Ends] using h s.host hs

theorem assign (hP : Phase P) (f : Vars ρ → Vars ρ) :
    Keeps P (Release.assign f) fun _ => P := by
  have hissue : Keeps P (issue (.assign f)) fun _ => P :=
    command hP.sound (fun _ => hP.sound) fun _ _ hs _ => hs
  exact hissue.bind fun _ => pure hP.sound fun _ h => h

/-! ## Checks -/

theorem externals (hP : Phase P) (whats : List String) :
    Keeps P (Release.externals whats) fun _ => P := by
  induction whats with
  | nil => exact pure hP.sound fun _ h => h
  | cons what rest ih => exact test (external hP.sound what) ih (pure hP.sound fun _ h => h)

/-- Only an acceptable file passes. -/
theorem validate_file_permissions_accepts (hP : Phase P) {path : Path ρ} (hpath : ¬ path.Scratch) :
    Keeps P (Release.validate_file_permissions path) fun b h =>
      P h ∧ (b = true → ∃ n, h.files path = some n ∧ n.acceptable = true) := by
  refine node hP.sound fun n => ?_
  have hfile := hP.file hpath n
  have hdie : ∀ text, Keeps (fun h => P h ∧ h.files path = n) (release_die text) fun b h =>
      P h ∧ (b = true → ∃ n, h.files path = some n ∧ n.acceptable = true) :=
    fun _ => die hfile fun h hn => ⟨hn.1, by simp⟩
  cases n with
  | none => exact hdie _
  | some n =>
      refine ite (fun hfilled => ?_) fun _ => hdie _
      refine test (external hfile.sound _) ?_ (hdie _)
      refine ite (fun _ => hdie _) fun hshared => ?_
      exact pure hfile.sound fun h hn => ⟨hn.1, fun _ =>
        ⟨n, hn.2, by simp [Node.acceptable, hfilled, hshared]⟩⟩

theorem validate_file_permissions (hP : Phase P) (path : Path ρ) (hpath : ¬ path.Scratch) :
    Keeps P (Release.validate_file_permissions path) fun _ => P :=
  (validate_file_permissions_accepts hP hpath).post fun _ _ h => h.1

theorem sha256sum (hP : Phase P) (sha256 : List UInt8 → BitVec 256) (path : Path ρ) :
    Keeps P (Release.sha256sum sha256 path) fun _ => P := by
  refine test (external hP.sound _) (look hP fun n => ?_) (pure hP.sound fun _ h => h)
  split
  · exact pure hP.sound fun _ h => h
  · exact pure hP.sound fun _ h => h

theorem validate_sha256_file (hP : Phase P) (sha256 : List UInt8 → BitVec 256) (path : Path ρ)
    (expected : Option (BitVec 256)) (hpath : ¬ path.Scratch) :
    Keeps P (Release.validate_sha256_file sha256 path expected) fun _ => P := by
  refine test (validate_file_permissions hP path hpath) ?_ (pure hP.sound fun _ h => h)
  refine (sha256sum hP sha256 path).bind fun digest => ?_
  exact ite (fun _ => pure hP.sound fun _ h => h) fun _ => die hP fun _ h => h

theorem resolve_release_dir (hP : Phase P) (requested : Requested ρ) :
    Keeps P (Release.resolve_release_dir requested) fun _ => P := by
  cases requested with
  | directory r =>
      exact test (external hP.sound _) (pure hP.sound fun _ h => h) (pure hP.sound fun _ h => h)
  | link l =>
      refine test (external hP.sound _) (look hP fun n => ?_) (pure hP.sound fun _ h => h)
      split
      · exact pure hP.sound fun _ h => h
      · exact pure hP.sound fun _ h => h

theorem resolve_optional_release_link (hP : Phase P) (l : Link) :
    Keeps P (Release.resolve_optional_release_link l) fun r h =>
      P h ∧ ∀ o, r = some o → h.files (.link l) = o.map .link := by
  refine node hP.sound fun n => ?_
  have hfile := hP.file (q := .link l) id n
  cases n with
  | none => exact pure hfile.sound fun h hn => ⟨hn.1, fun o ho => by cases ho; simpa using hn.2⟩
  | some n =>
      cases n with
      | link r =>
          refine test (external hfile.sound _) ?_ ?_
          · exact pure hfile.sound fun h hn =>
              ⟨hn.1, fun o ho => by cases ho; simpa using hn.2⟩
          · exact pure hfile.sound fun h hn => ⟨hn.1, by simp⟩
      | journal j =>
          exact (die (T := fun _ => P) hP fun _ h => h).pre (fun _ h => h.1) |>.bind fun _ =>
            pure hP.sound fun _ h => ⟨h, by simp⟩
      | file f =>
          exact (die (T := fun _ => P) hP fun _ h => h).pre (fun _ h => h.1) |>.bind fun _ =>
            pure hP.sound fun _ h => ⟨h, by simp⟩

end Keeps

end Odirag.Release
