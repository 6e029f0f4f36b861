import Odirag.Foundations.Run
import Mathlib.Logic.Function.Basic

/-!
# Parties over one shared state

Any number of parties, each with a local state of its own, take turns: a step belongs to one
party, reads and writes the shared state atomically, and leaves every other party where it was.
An interleaving is therefore a run of `Parties.system`.

`Parties.Outline` is the proof outline of such a program: one assertion for each party about the
shared state and its own local state, kept by the party's own steps and not disturbed by the
steps of the others.
-/

namespace Odirag

/-- What one party can do: `next i a sh l` is its step under the choice `a`, when it has one. -/
structure Parties (ι Shared Local Act : Type*) where
  next : ι → Act → Shared → Local → Option (Shared × Local)

namespace Parties

variable {ι Shared Local Act : Type*}

/-- The shared state and the local state of every party. -/
@[ext]
structure State (ι Shared Local : Type*) where
  shared : Shared
  loc : ι → Local

variable [DecidableEq ι] (P : Parties ι Shared Local Act)

/-- The step of party `i` under the choice `a`. -/
def move (s : State ι Shared Local) (i : ι) (a : Act) : Option (State ι Shared Local) :=
  (P.next i a s.shared (s.loc i)).map fun r => ⟨r.1, Function.update s.loc i r.2⟩

/-- The interleavings of the parties, from the states that `init` allows. -/
def system (init : State ι Shared Local → Prop) : System (State ι Shared Local) (ι × Act) :=
  .ofNext (fun s l => P.move s l.1 l.2) init

/-- Run a schedule, oldest step first. -/
def exec : State ι Shared Local → List (ι × Act) → Option (State ι Shared Local) :=
  System.exec fun s l => P.move s l.1 l.2

/-- The trace that a schedule leaves, newest step first. -/
def traceOf : State ι Shared Local → List (ι × Act) → List (State ι Shared Local × (ι × Act)) :=
  System.traceOf fun s l => P.move s l.1 l.2

variable {P} {init : State ι Shared Local → Prop}
  {ok : List (State ι Shared Local × (ι × Act)) →
    State ι Shared Local → ι × Act → State ι Shared Local → Prop}

/-- A step of the system is a step of one party that leaves the other parties alone. -/
theorem step_iff {s s' : State ι Shared Local} {i : ι} {a : Act} :
    (P.system init).step s (i, a) s' ↔
      ∃ sh l, P.next i a s.shared (s.loc i) = some (sh, l) ∧
        s' = ⟨sh, Function.update s.loc i l⟩ := by
  simp only [system, System.ofNext, move, Option.map_eq_some_iff, Prod.exists]
  constructor
  · rintro ⟨sh, l, hnext, rfl⟩
    exact ⟨sh, l, hnext, rfl⟩
  · rintro ⟨sh, l, hnext, rfl⟩
    exact ⟨sh, l, hnext, rfl⟩

/-- The parties that do not move keep their local state. -/
theorem loc_of_ne {s s' : State ι Shared Local} {i j : ι} {a : Act}
    (h : (P.system init).step s (i, a) s') (hne : j ≠ i) : s'.loc j = s.loc j := by
  obtain ⟨sh, l, -, rfl⟩ := step_iff.mp h
  exact Function.update_of_ne hne l s.loc

/-- The step of the moving party, read off the two states. -/
theorem next_of_step {s s' : State ι Shared Local} {i : ι} {a : Act}
    (h : (P.system init).step s (i, a) s') :
    P.next i a s.shared (s.loc i) = some (s'.shared, s'.loc i) := by
  obtain ⟨sh, l, hnext, rfl⟩ := step_iff.mp h
  simpa using hnext

/-- A schedule that runs through, and one more step, are a run. -/
theorem exec_run {s₀ s₁ s₂ : State ι Shared Local} {sched : List (ι × Act)} {l : ι × Act}
    (hinit : init s₀) (h₁ : P.exec s₀ sched = some s₁) (h₂ : P.move s₁ l.1 l.2 = some s₂) :
    (P.system init).Run System.always ((s₁, l) :: P.traceOf s₀ sched) s₂ :=
  ⟨s₀, hinit, .cons (System.exec_path h₁) trivial h₂⟩

/-- A proof outline: an invariant `shared` of the shared state and, for each party, an assertion
`loc` about the shared state and its own local state. -/
structure Outline (P : Parties ι Shared Local Act) (init : State ι Shared Local → Prop)
    (ok : List (State ι Shared Local × (ι × Act)) →
      State ι Shared Local → ι × Act → State ι Shared Local → Prop)
    (loc : ι → Shared → Local → Prop) : Prop where
  start : ∀ s, init s → ∀ i, loc i s.shared (s.loc i)
  own : ∀ tr s i a s', ok tr s (i, a) s' → (∀ j, loc j s.shared (s.loc j)) →
    P.next i a s.shared (s.loc i) = some (s'.shared, s'.loc i) → loc i s'.shared (s'.loc i)
  other : ∀ tr s i a s' j, j ≠ i → ok tr s (i, a) s' → (∀ j, loc j s.shared (s.loc j)) →
    P.next i a s.shared (s.loc i) = some (s'.shared, s'.loc i) → loc j s'.shared (s.loc j)

/-- One step keeps every party's assertion. -/
theorem Outline.step {loc : ι → Shared → Local → Prop} (O : Outline P init ok loc)
    {tr : List (State ι Shared Local × (ι × Act))} {s s' : State ι Shared Local} {l : ι × Act}
    (hok : ok tr s l s')
    (h : (P.system init).step s l s') (hs : ∀ j, loc j s.shared (s.loc j)) :
    ∀ j, loc j s'.shared (s'.loc j) := by
  obtain ⟨i, a⟩ := l
  intro j
  have hnext := next_of_step h
  by_cases hj : j = i
  · subst hj
    exact O.own tr s j a s' hok hs hnext
  · rw [loc_of_ne h hj]
    exact O.other tr s i a s' j hj hok hs hnext

/-- In every state of every run, every party's assertion holds. -/
theorem Outline.holds (loc : ι → Shared → Local → Prop) (O : Outline P init ok loc)
    {tr : List (State ι Shared Local × (ι × Act))} {s : State ι Shared Local}
    (h : (P.system init).Run ok tr s) : ∀ j, loc j s.shared (s.loc j) := by
  refine System.Run.invariant
    (I := fun _ (s : State ι Shared Local) => ∀ j, loc j s.shared (s.loc j)) h O.start ?_
  intro tr s l s' _ hs hok hstep
  exact O.step hok hstep hs

end Parties

end Odirag
