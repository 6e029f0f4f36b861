import Odirag.Foundations.Run

/-!
# Scripts that may be cut off anywhere

A script issues commands one after another. A command is one atomic step, and the environment
chooses its outcome; which command comes next may depend on exit statuses and on what the script
reads. The process may be killed between any two steps and leaves the host as it is, or it may be
interrupted, which hands over to an exit handler.

A specification of such a script says three things: where it starts, where it ends, and what holds
at every moment in between, since any of these may be its last. `Script.Triple` states the three
together, its rules follow the structure of a script, and `Service.invariant` turns the triples of
one invocation into an invariant of all sequences of invocations.
-/

namespace Odirag

/-- Scripts over the commands `γ` and the state `σ`. -/
inductive Script (γ σ α : Type)
  | exit (a : α)
  | command (c : γ) (next : Bool → Script γ σ α)
  | read (next : σ → Script γ σ α)

/-- What commands do: the exit status and the state after each outcome, and the outcomes that are
taken into account. -/
structure Commands (γ σ ε : Type) where
  run : γ → σ → ε → Bool × σ
  allowed : γ → σ → ε → Prop

namespace Script

variable {γ σ ε α β : Type}

/-- Continue with what a script returns. -/
def bind : Script γ σ α → (α → Script γ σ β) → Script γ σ β
  | .exit a, f => f a
  | .command c next, f => .command c fun status => (next status).bind f
  | .read next, f => .read fun s => (next s).bind f

instance : Monad (Script γ σ) where
  pure := .exit
  bind := bind

/-- Issue one command and return its exit status. -/
def issue (c : γ) : Script γ σ Bool := .command c .exit

/-- Look at the state. -/
def inspect (f : σ → α) : Script γ σ α := .read fun s => .exit (f s)

/-- Every moment satisfies `I`, and the end satisfies `Q`. -/
def wp (C : Commands γ σ ε) (I : σ → Prop) : Script γ σ α → (α → σ → Prop) → σ → Prop
  | .exit a, Q, s => I s ∧ Q a s
  | .command c next, Q, s =>
      I s ∧ ∀ e, C.allowed c s e → (next (C.run c s e).1).wp C I Q (C.run c s e).2
  | .read next, Q, s => (next s).wp C I Q s

variable {C : Commands γ σ ε} {I : σ → Prop}

/-- The first moment satisfies the invariant. -/
theorem wp_moment {p : Script γ σ α} {Q : α → σ → Prop} {s : σ} (h : p.wp C I Q s) : I s := by
  induction p with
  | exit a => exact h.1
  | command c next => exact h.1
  | read next ih => exact ih s h

/-- A weaker end is reached too. -/
theorem wp_mono {p : Script γ σ α} {Q Q' : α → σ → Prop} {s : σ} (h : p.wp C I Q s)
    (hQ : ∀ a s, Q a s → Q' a s) : p.wp C I Q' s := by
  induction p generalizing s with
  | exit a => exact ⟨h.1, hQ a s h.2⟩
  | command c next ih => exact ⟨h.1, fun e he => ih _ (h.2 e he)⟩
  | read next ih => exact ih s h

/-- Weaker facts hold at every moment. -/
theorem wp_weaken {I' : σ → Prop} {p : Script γ σ α} {Q : α → σ → Prop} {s : σ} (h : p.wp C I Q s)
    (hI : ∀ s, I s → I' s) : p.wp C I' Q s := by
  induction p generalizing s with
  | exit a => exact ⟨hI s h.1, h.2⟩
  | command c next ih => exact ⟨hI s h.1, fun e he => ih _ (h.2 e he)⟩
  | read next ih => exact ih s h

/-- A sequence ends where its second part ends. -/
theorem wp_bind {p : Script γ σ α} {f : α → Script γ σ β} {Q : β → σ → Prop} {s : σ}
    (h : p.wp C I (fun a s' => (f a).wp C I Q s') s) : (p.bind f).wp C I Q s := by
  induction p generalizing s with
  | exit a => exact h.2
  | command c next ih => exact ⟨h.1, fun e he => ih _ (h.2 e he)⟩
  | read next ih => exact ih s h

/-! ## Triples -/

/-- From every state that satisfies `P` the script goes through states that satisfy `I` and ends
in `Q`. -/
def Triple (C : Commands γ σ ε) (I P : σ → Prop) (p : Script γ σ α) (Q : α → σ → Prop) : Prop :=
  ∀ s, P s → p.wp C I Q s

namespace Triple

variable {P P' : σ → Prop} {Q Q' : α → σ → Prop} {R : β → σ → Prop} {p : Script γ σ α}

/-- Sequencing. -/
theorem bind {f : α → Script γ σ β} (hp : Triple C I P p Q)
    (hf : ∀ a, Triple C I (Q a) (f a) R) : Triple C I P (p >>= f) R :=
  fun s hs => wp_bind (wp_mono (hp s hs) hf)

/-- Returning. -/
theorem pure {a : α} (h : ∀ s, P s → I s ∧ Q a s) :
    Triple C I P (Pure.pure a : Script γ σ α) Q :=
  h

/-- One command. -/
theorem issue {c : γ} {Q : Bool → σ → Prop} (hI : ∀ s, P s → I s)
    (h : ∀ s e, P s → C.allowed c s e →
      I (C.run c s e).2 ∧ Q (C.run c s e).1 (C.run c s e).2) :
    Triple C I P (Script.issue c) Q :=
  fun s hs => ⟨hI s hs, fun e he => h s e hs he⟩

/-- Reading keeps the state and says what was read. -/
theorem inspect {f : σ → α} (hI : ∀ s, P s → I s) :
    Triple C I P (Script.inspect f) fun a s => P s ∧ f s = a :=
  fun s hs => ⟨hI s hs, hs, rfl⟩

/-- The rule of consequence. -/
theorem conseq (h : Triple C I P p Q) (hP : ∀ s, P' s → P s) (hQ : ∀ a s, Q a s → Q' a s) :
    Triple C I P' p Q' :=
  fun s hs => wp_mono (h s (hP s hs)) hQ

/-- A stronger start. -/
theorem pre (h : Triple C I P p Q) (hP : ∀ s, P' s → P s) : Triple C I P' p Q :=
  h.conseq hP fun _ _ hQ => hQ

/-- A weaker end. -/
theorem post (h : Triple C I P p Q) (hQ : ∀ a s, Q a s → Q' a s) : Triple C I P p Q' :=
  h.conseq (fun _ hP => hP) hQ

/-- A fact about the start that does not mention the state may be used as a hypothesis. -/
theorem of_and {a : Prop} (h : a → Triple C I P p Q) : Triple C I (fun s => P s ∧ a) p Q :=
  fun s hs => h hs.2 s hs.1

/-- The logical variables of a specification. -/
theorem of_exists {κ : Sort*} {P : κ → σ → Prop} (h : ∀ i, Triple C I (P i) p Q) :
    Triple C I (fun s => ∃ i, P i s) p Q := by
  rintro s ⟨i, hs⟩
  exact h i s hs

end Triple

end Script

/-! ## Invocations -/

/-- A service runs one script at a time on a host. `start` makes the process of an invocation,
`host` is what stays when it is gone. -/
structure Service (γ σ ε δ ι : Type) extends Commands γ σ ε where
  host : σ → δ
  start : ι → δ → σ
  main : ι → Script γ σ ℕ
  handler : ℕ → Script γ σ ℕ

/-- The host at rest, or with a process in its main script or in its exit handler. -/
inductive World (γ σ δ : Type)
  | idle (d : δ)
  | running (s : σ) (rest : Script γ σ ℕ)
  | exiting (s : σ) (rest : Script γ σ ℕ)

/-- What may happen next. -/
inductive Event (ε ι : Type)
  | start (i : ι)
  | outcome (e : ε)
  | interrupt (status : ℕ)
  | kill

namespace Service

open Script

variable {γ σ ε δ ι : Type} (S : Service γ σ ε δ ι)

/-- One event. An interrupt hands over to the exit handler, once; a second one ends the process. -/
def next : World γ σ δ → Event ε ι → Option (World γ σ δ)
  | .idle d, .start i => some (.running (S.start i d) (S.main i))
  | .running s (.exit status), .outcome _ => some (.exiting s (S.handler status))
  | .running s (.command c k), .outcome e => some (.running (S.run c s e).2 (k (S.run c s e).1))
  | .running s (.read k), .outcome _ => some (.running s (k s))
  | .running s _, .interrupt status => some (.exiting s (S.handler status))
  | .exiting s (.exit _), .outcome _ => some (.idle (S.host s))
  | .exiting s (.command c k), .outcome e => some (.exiting (S.run c s e).2 (k (S.run c s e).1))
  | .exiting s (.read k), .outcome _ => some (.exiting s (k s))
  | .running s _, .kill => some (.idle (S.host s))
  | .exiting s _, .interrupt _ => some (.idle (S.host s))
  | .exiting s _, .kill => some (.idle (S.host s))
  | _, _ => none

/-- What is on the host. -/
def hostOf : World γ σ δ → δ
  | .idle d => d
  | .running s _ => S.host s
  | .exiting s _ => S.host s

/-- The event is one that is taken into account. -/
def Allowed : World γ σ δ → Event ε ι → Prop
  | .running s (.command c _), .outcome e => S.allowed c s e
  | .exiting s (.command c _), .outcome e => S.allowed c s e
  | _, _ => True

variable {S} in
/-- An event is taken into account if its outcome is, whatever the command. -/
theorem allowed_of {w : World γ σ δ} {e : Event ε ι}
    (h : ∀ c s e', e = .outcome e' → S.allowed c s e') : S.Allowed w e := by
  unfold Allowed
  split
  · exact h _ _ _ rfl
  · exact h _ _ _ rfl
  · trivial

variable {S} in
/-- An event leaves the host alone, starts a process on it or is the outcome of a command. -/
theorem hostOf_next {w w' : World γ σ δ} {e : Event ε ι} (hstep : S.next w e = some w') :
    S.hostOf w' = S.hostOf w ∨
      (∃ i d, w = .idle d ∧ S.hostOf w' = S.host (S.start i d)) ∨
      ∃ c s e', S.hostOf w = S.host s ∧ S.hostOf w' = S.host (S.run c s e').2 := by
  cases w with
  | idle d =>
      cases e with
      | start i =>
          cases hstep
          exact .inr (.inl ⟨i, d, rfl, rfl⟩)
      | _ => cases hstep
  | running s rest =>
      cases e with
      | start i => cases rest <;> cases hstep
      | outcome e =>
          cases rest with
          | command c k =>
              cases hstep
              exact .inr (.inr ⟨c, s, e, rfl, rfl⟩)
          | _ =>
              cases hstep
              exact .inl rfl
      | interrupt status => cases rest <;> cases hstep <;> exact .inl rfl
      | kill => cases rest <;> cases hstep <;> exact .inl rfl
  | exiting s rest =>
      cases e with
      | start i => cases rest <;> cases hstep
      | outcome e =>
          cases rest with
          | command c k =>
              cases hstep
              exact .inr (.inr ⟨c, s, e, rfl, rfl⟩)
          | _ =>
              cases hstep
              exact .inl rfl
      | interrupt status => cases rest <;> cases hstep <;> exact .inl rfl
      | kill => cases rest <;> cases hstep <;> exact .inl rfl

/-- A world all of whose continuations keep `D` on the host. -/
def Safe (D : δ → Prop) : World γ σ δ → Prop
  | .idle d => D d
  | .running s rest => rest.wp S.toCommands (fun s => D (S.host s)) (fun _ _ => True) s
  | .exiting s rest => rest.wp S.toCommands (fun s => D (S.host s)) (fun _ _ => True) s

variable {S} {D : δ → Prop}

/-- The host of a safe world satisfies `D`. -/
theorem Safe.host {w : World γ σ δ} (h : S.Safe D w) : D (S.hostOf w) := by
  cases w with
  | idle d => exact h
  | running s rest => exact wp_moment (I := fun s => D (S.host s)) h
  | exiting s rest => exact wp_moment (I := fun s => D (S.host s)) h

/-- An event keeps a world safe. -/
theorem Safe.next {w w' : World γ σ δ} {e : Event ε ι} (h : S.Safe D w) (he : S.Allowed w e)
    (hstep : S.next w e = some w')
    (hmain : ∀ i d, D d → S.Safe D (.running (S.start i d) (S.main i)))
    (hhandler : ∀ status s, D (S.host s) → S.Safe D (.exiting s (S.handler status))) :
    S.Safe D w' := by
  have hhost := h.host
  -- The two interesting events: a command whose outcome is the next state, and an exit, which hands
  -- over to the handler.
  cases w with
  | idle d =>
      cases e with
      | start i =>
          cases hstep
          exact hmain i d h
      | _ => cases hstep
  | running s rest =>
      cases e with
      | start i => cases rest <;> cases hstep
      | outcome e =>
          cases rest with
          | exit status =>
              cases hstep
              exact hhandler status s hhost
          | command c k =>
              cases hstep
              exact h.2 e he
          | read k =>
              cases hstep
              exact h
      | interrupt status =>
          cases rest <;> cases hstep <;> exact hhandler status s hhost
      | kill => cases rest <;> cases hstep <;> exact hhost
  | exiting s rest =>
      cases e with
      | start i => cases rest <;> cases hstep
      | outcome e =>
          cases rest with
          | exit status =>
              cases hstep
              exact hhost
          | command c k =>
              cases hstep
              exact h.2 e he
          | read k =>
              cases hstep
              exact h
      | interrupt status => cases rest <;> cases hstep <;> exact hhost
      | kill => cases rest <;> cases hstep <;> exact hhost

/-- The rule for services: if the main script and the exit handler keep `D` at every moment, all
sequences of invocations do. -/
theorem invariant {init : World γ σ δ → Prop} {tr : List (World γ σ δ × Event ε ι)}
    {w : World γ σ δ}
    (h : (System.ofNext S.next init).Run (fun _ w e _ => S.Allowed w e) tr w)
    (hinit : ∀ w, init w → S.Safe D w)
    (hmain : ∀ i d, D d → S.Safe D (.running (S.start i d) (S.main i)))
    (hhandler : ∀ status s, D (S.host s) → S.Safe D (.exiting s (S.handler status))) :
    D (S.hostOf w) := by
  have hsafe : S.Safe D w := by
    refine h.invariant (I := fun _ w => S.Safe D w) hinit ?_
    intro tr w e w' _ hw he hstep
    exact hw.next he hstep hmain hhandler
  exact hsafe.host

end Service

end Odirag
