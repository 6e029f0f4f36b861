import Mathlib.Data.List.Basic

/-!
# Runs of a labelled transition system

A claim about a concurrent program speaks about every run, and often only about the runs whose
steps meet a side condition. `Path` records the states and labels a run goes through, newest
first, so that "after this step" is a position in a list; the side condition of a step may look
at the steps before it. `Run.invariant` and `Run.after` are the only inductions the rest of the
development makes over runs.
-/

namespace Odirag

/-- A labelled transition system with a set of initial states. -/
structure System (σ ℓ : Type*) where
  init : σ → Prop
  step : σ → ℓ → σ → Prop

namespace System

variable {σ ℓ : Type*} (S : System σ ℓ) (ok : List (σ × ℓ) → σ → ℓ → σ → Prop)

/-- `Path S ok s₀ tr s`: steps that all meet `ok` lead from `s₀` to `s`. The trace `tr` lists the
state before each step and its label, newest first. -/
inductive Path (s₀ : σ) : List (σ × ℓ) → σ → Prop
  | nil : Path s₀ [] s₀
  | cons {tr : List (σ × ℓ)} {s s' : σ} {l : ℓ} :
      Path s₀ tr s → ok tr s l s' → S.step s l s' → Path s₀ ((s, l) :: tr) s'

/-- A run is a path from an initial state. -/
def Run (tr : List (σ × ℓ)) (s : σ) : Prop :=
  ∃ s₀, S.init s₀ ∧ S.Path ok s₀ tr s

/-- The states that the runs whose steps meet `ok` reach. -/
def Reachable (s : σ) : Prop :=
  ∃ tr, S.Run ok tr s

/-- The side condition of an unrestricted run. -/
def always : List (σ × ℓ) → σ → ℓ → σ → Prop := fun _ _ _ _ => True

variable {S ok}

/-- The invariant rule for runs; a step may use what is known of every run. -/
theorem Run.invariant {I : List (σ × ℓ) → σ → Prop} {tr : List (σ × ℓ)} {s : σ}
    (h : S.Run ok tr s) (h₀ : ∀ s, S.init s → I [] s)
    (hstep : ∀ tr s l s', S.Run ok tr s → I tr s → ok tr s l s' → S.step s l s' →
      I ((s, l) :: tr) s') :
    I tr s := by
  obtain ⟨s₀, hinit, hpath⟩ := h
  induction hpath with
  | nil => exact h₀ s₀ hinit
  | cons hpath hok hs ih => exact hstep _ _ _ _ ⟨s₀, hinit, hpath⟩ ih hok hs

/-- A path meets every side condition that its own one implies. -/
theorem Path.mono {ok' : List (σ × ℓ) → σ → ℓ → σ → Prop} {s₀ s : σ} {tr : List (σ × ℓ)}
    (h : S.Path ok s₀ tr s) (himp : ∀ tr s l s', ok tr s l s' → ok' tr s l s') :
    S.Path ok' s₀ tr s := by
  induction h with
  | nil => exact .nil
  | cons _ hok hs ih => exact .cons ih (himp _ _ _ _ hok) hs

/-- A path meets every side condition that its own one implies at the steps that are taken. -/
theorem Path.mono_step {ok' : List (σ × ℓ) → σ → ℓ → σ → Prop} {s₀ s : σ} {tr : List (σ × ℓ)}
    (h : S.Path ok s₀ tr s)
    (himp : ∀ tr s l s', S.step s l s' → ok tr s l s' → ok' tr s l s') : S.Path ok' s₀ tr s := by
  induction h with
  | nil => exact .nil
  | cons _ hok hs ih => exact .cons ih (himp _ _ _ _ hs hok) hs

/-- A run meets every side condition that follows, at each of its steps, from its own one and from
what is known of every run. -/
theorem Run.strengthen {ok' : List (σ × ℓ) → σ → ℓ → σ → Prop} {tr : List (σ × ℓ)} {s : σ}
    (h : S.Run ok tr s)
    (himp : ∀ tr s l s', S.Run ok tr s → ok tr s l s' → ok' tr s l s') : S.Run ok' tr s := by
  obtain ⟨s₀, hinit, hpath⟩ := h
  refine ⟨s₀, hinit, ?_⟩
  induction hpath with
  | nil => exact .nil
  | cons hpath hok hs ih => exact .cons ih (himp _ _ _ _ ⟨s₀, hinit, hpath⟩ hok) hs

/-- The last step of a run. -/
theorem Run.last {tr : List (σ × ℓ)} {s₁ s : σ} {l : ℓ} (h : S.Run ok ((s₁, l) :: tr) s) :
    S.Run ok tr s₁ ∧ ok tr s₁ l s ∧ S.step s₁ l s := by
  obtain ⟨s₀, hinit, hpath⟩ := h
  cases hpath with
  | cons hpath hok hs => exact ⟨⟨s₀, hinit, hpath⟩, hok, hs⟩

/-- A run cut after one of its steps is a run. -/
theorem Run.upTo {early later : List (σ × ℓ)} {s₁ s : σ} {l : ℓ}
    (h : S.Run ok (later ++ (s₁, l) :: early) s) : ∃ s₂, S.Run ok ((s₁, l) :: early) s₂ := by
  induction later generalizing s with
  | nil => exact ⟨s, h⟩
  | cons head later ih => exact ih h.last.1

/-- What a step of a run establishes and the later steps preserve holds from there on. -/
theorem Run.after {I : σ → Prop} {early later : List (σ × ℓ)} {s₁ s : σ} {l : ℓ}
    (h : S.Run ok (later ++ (s₁, l) :: early) s)
    (hstart : ∀ s₂, S.Run ok early s₁ → S.step s₁ l s₂ → I s₂)
    (hstep : ∀ tr s l s', (s, l) ∈ later → S.Run ok tr s → I s → S.step s l s' → I s') :
    I s ∧ ∀ s₂ l₂, (s₂, l₂) ∈ later → S.Reachable ok s₂ ∧ I s₂ := by
  induction later generalizing s with
  | nil =>
      obtain ⟨hearly, -, hs⟩ := h.last
      exact ⟨hstart s hearly hs, by simp⟩
  | cons head later ih =>
      obtain ⟨s₃, l₃⟩ := head
      obtain ⟨hrun, -, hs⟩ := h.last
      obtain ⟨hend, hat⟩ :=
        ih hrun fun tr s l s' hmem => hstep tr s l s' (List.mem_cons_of_mem _ hmem)
      refine ⟨hstep _ s₃ l₃ s List.mem_cons_self hrun hend hs, fun s₂ l₂ hmem => ?_⟩
      rcases List.mem_cons.mp hmem with heq | hmem
      · cases heq
        exact ⟨⟨_, hrun⟩, hend⟩
      · exact hat s₂ l₂ hmem

/-! ## Observing a run -/

/-- How often an observed value has changed on the way to `s`. -/
def changes {α : Type*} [DecidableEq α] (f : σ → α) : List (σ × ℓ) → σ → ℕ
  | [], _ => 0
  | (s₁, _) :: tr, s => changes f tr s₁ + if f s = f s₁ then 0 else 1

/-- A step that keeps the observed value adds no change. -/
theorem changes_cons_of_eq {α : Type*} [DecidableEq α] {f : σ → α} {tr : List (σ × ℓ)} {s₁ s : σ}
    {l : ℓ} (h : f s = f s₁) : changes f ((s₁, l) :: tr) s = changes f tr s₁ := by
  simp [changes, h]

/-- A step adds one change at most. -/
theorem changes_cons_le {α : Type*} [DecidableEq α] (f : σ → α) (tr : List (σ × ℓ)) (s₁ s : σ)
    (l : ℓ) : changes f ((s₁, l) :: tr) s ≤ changes f tr s₁ + 1 := by
  simp only [changes]
  split <;> omega

/-- What no step of a run makes false again changes once at most. -/
theorem Run.changes_le_one {f : σ → Bool} {tr : List (σ × ℓ)} {s : σ} (h : S.Run ok tr s)
    (hmono : ∀ tr s l s', S.Run ok tr s → S.step s l s' → f s = true → f s' = true) :
    changes f tr s ≤ 1 := by
  have hle : changes f tr s ≤ (f s).toNat := by
    refine Run.invariant (I := fun tr s => changes f tr s ≤ (f s).toNat) h
      (fun s _ => Nat.zero_le _) fun tr s l s' hrun hle _ hstep => ?_
    by_cases hsame : f s' = f s
    · rw [changes_cons_of_eq hsame, hsame]
      exact hle
    · have hfalse : f s = false := by
        by_contra htrue
        have htrue' : f s = true := by simpa using htrue
        exact hsame ((hmono tr s l s' hrun hstep htrue').trans htrue'.symm)
      have htrue : f s' = true := by simpa [hfalse] using hsame
      rw [hfalse, Bool.toNat_false] at hle
      rw [htrue, Bool.toNat_true]
      exact Nat.le_trans (changes_cons_le f tr s s' l) (by omega)
  exact Nat.le_trans hle (Bool.toNat_le _)

/-! ## Positions -/

/-- `Position tr s tr' s'`: the run that `tr` leads to `s` went through `s'`, after `tr'`. -/
inductive Position : σ → List (σ × ℓ) → List (σ × ℓ) → σ → Prop
  | last {s : σ} {tr : List (σ × ℓ)} : Position s tr tr s
  | earlier {tr tr' : List (σ × ℓ)} {s s₁ s' : σ} {l : ℓ} :
      Position s₁ tr tr' s' → Position s ((s₁, l) :: tr) tr' s'

/-- A property of positions that a step keeps exactly if it meets a condition holds everywhere in
a run exactly if every step of the run meets the condition. -/
theorem Run.everywhere_iff {I : List (σ × ℓ) → σ → Prop} {C : σ → ℓ → Prop}
    {tr : List (σ × ℓ)} {s : σ} (h : S.Run ok tr s) (h₀ : ∀ s, S.init s → I [] s)
    (hstep : ∀ tr s l s', S.Run ok tr s → I tr s → S.step s l s' → (I ((s, l) :: tr) s' ↔ C s l)) :
    (∀ tr' s', Position s tr tr' s' → I tr' s') ↔ ∀ s₁ l, (s₁, l) ∈ tr → C s₁ l := by
  obtain ⟨s₀, hinit, hpath⟩ := h
  induction hpath with
  | nil =>
      refine iff_of_true (fun tr' s' hpos => ?_) (by simp)
      cases hpos
      exact h₀ s₀ hinit
  | @cons tr s s' l hpath hok hs ih =>
      have hlast := fun hI => hstep tr s l s' ⟨s₀, hinit, hpath⟩ hI hs
      constructor
      · intro hall s₁ l₁ hmem
        have hbefore : ∀ tr' s', Position s tr tr' s' → I tr' s' :=
          fun tr' s' hpos => hall tr' s' (.earlier hpos)
        rcases List.mem_cons.mp hmem with heq | hmem
        · cases heq
          exact (hlast (hbefore _ _ .last)).mp (hall _ _ .last)
        · exact ih.mp hbefore s₁ l₁ hmem
      · intro hall tr' s' hpos
        have hbefore := ih.mpr fun s₁ l₁ hmem => hall s₁ l₁ (List.mem_cons_of_mem _ hmem)
        cases hpos with
        | last => exact (hlast (hbefore _ _ .last)).mpr (hall s l List.mem_cons_self)
        | earlier hpos => exact hbefore tr' s' hpos

/-- A property that is looked at in some states only, at the end among them, holds everywhere if no
step from one of the other states repairs it. -/
theorem Run.everywhere_of_observed {I O : σ → Prop} {tr : List (σ × ℓ)} {s : σ}
    (h : S.Run ok tr s) (hend : O s)
    (hback : ∀ tr s l s', S.Run ok tr s → S.step s l s' → ¬ O s → I s' → I s)
    (hobs : ∀ tr' s', Position s tr tr' s' → O s' → I s') :
    ∀ tr' s', Position s tr tr' s' → I s' := by
  have hlast : I s := hobs tr s .last hend
  clear hend
  obtain ⟨s₀, hinit, hpath⟩ := h
  induction hpath with
  | nil =>
      intro tr' s' hpos
      cases hpos
      exact hlast
  | @cons tr s s' l hpath hok hs ih =>
      have hbefore : I s := by
        by_cases hO : O s
        · exact hobs tr s (.earlier .last) hO
        · exact hback tr s l s' ⟨s₀, hinit, hpath⟩ hs hO hlast
      intro tr' s'' hpos
      cases hpos with
      | last => exact hlast
      | earlier hpos => exact ih (fun tr' s' hpos => hobs tr' s' (.earlier hpos)) hbefore tr' s'' hpos

/-- A property that is looked at in some states only holds everywhere if a step that breaks it leads
to one of them. -/
theorem Run.everywhere_of_landing {I O : σ → Prop} {tr : List (σ × ℓ)} {s : σ}
    (h : S.Run ok tr s) (h₀ : ∀ s, S.init s → I s)
    (hland : ∀ tr s l s', S.Run ok tr s → S.step s l s' → I s → I s' ∨ O s')
    (hobs : ∀ tr' s', Position s tr tr' s' → O s' → I s') :
    ∀ tr' s', Position s tr tr' s' → I s' := by
  obtain ⟨s₀, hinit, hpath⟩ := h
  induction hpath with
  | nil =>
      intro tr' s' hpos
      cases hpos
      exact h₀ s₀ hinit
  | @cons tr s s' l hpath hok hs ih =>
      have hbefore := ih fun tr' s' hpos => hobs tr' s' (.earlier hpos)
      intro tr' s'' hpos
      cases hpos with
      | last =>
          rcases hland tr s l s' ⟨s₀, hinit, hpath⟩ hs (hbefore tr s .last) with hI | hO
          · exact hI
          · exact hobs _ s' .last hO
      | earlier hpos => exact hbefore tr' s'' hpos

/-! ## Deterministic steps -/

section Exec

variable (next : σ → ℓ → Option σ)

/-- The system of a step function. -/
def ofNext (init : σ → Prop) : System σ ℓ where
  init := init
  step s l s' := next s l = some s'

/-- Run a list of labels, oldest first. -/
def exec (s : σ) : List ℓ → Option σ
  | [] => some s
  | l :: rest => (next s l).bind fun s' => exec s' rest

/-- The trace that a list of labels leaves, newest step first. -/
def traceOf (s : σ) : List ℓ → List (σ × ℓ)
  | [] => []
  | l :: rest =>
      match next s l with
      | none => []
      | some s' => traceOf s' rest ++ [(s, l)]

variable {next} {init : σ → Prop}

/-- The invariant rule for a list of labels. -/
theorem exec_invariant {I : σ → Prop} {s s' : σ} {ls : List ℓ} (h : exec next s ls = some s')
    (h₀ : I s) (hstep : ∀ s l s', I s → next s l = some s' → I s') : I s' := by
  induction ls generalizing s with
  | nil =>
      cases h
      exact h₀
  | cons l rest ih =>
      obtain ⟨s₁, hnext, hrest⟩ := Option.bind_eq_some_iff.mp h
      exact ih hrest (hstep s l s₁ h₀ hnext)

/-- Labels that run through are a path, allowed if every step of its trace is. -/
theorem exec_path_of {C : σ → ℓ → Prop} {s s' : σ} {ls : List ℓ}
    (h : exec next s ls = some s') (hC : ∀ e ∈ traceOf next s ls, C e.1 e.2) :
    (ofNext next init).Path (fun _ s l _ => C s l) s (traceOf next s ls) s' := by
  suffices hgen : ∀ (s₀ : σ) tr s,
      (ofNext next init).Path (fun _ s l _ => C s l) s₀ tr s → exec next s ls = some s' →
      (∀ e ∈ traceOf next s ls, C e.1 e.2) →
      (ofNext next init).Path (fun _ s l _ => C s l) s₀ (traceOf next s ls ++ tr) s' by
    simpa using hgen s [] s .nil h hC
  clear h hC s
  induction ls with
  | nil =>
      intro s₀ tr s hpath hexec _
      cases hexec
      simpa [traceOf] using hpath
  | cons l rest ih =>
      intro s₀ tr s hpath hexec hC
      cases hnext : next s l with
      | none => simp [exec, hnext] at hexec
      | some s₁ =>
          simp only [exec, hnext, Option.bind_some] at hexec
          simp only [traceOf, hnext, List.mem_append, List.mem_singleton] at hC
          have hpath₁ := ih s₀ ((s, l) :: tr) s₁ (.cons hpath (hC (s, l) (.inr rfl)) hnext) hexec
            fun e he => hC e (.inl he)
          simpa [traceOf, hnext] using hpath₁

/-- The labels of a trace are those that were run. -/
theorem mem_traceOf {s : σ} {ls : List ℓ} {e : σ × ℓ} (he : e ∈ traceOf next s ls) : e.2 ∈ ls := by
  induction ls generalizing s with
  | nil => cases he
  | cons l rest ih =>
      cases hnext : next s l with
      | none => simp [traceOf, hnext] at he
      | some s₁ =>
          simp only [traceOf, hnext, List.mem_append, List.mem_singleton] at he
          rcases he with he | rfl
          · exact List.mem_cons_of_mem _ (ih he)
          · exact List.mem_cons_self

/-- Labels that run through are a path. -/
theorem exec_path {s s' : σ} {ls : List ℓ} (h : exec next s ls = some s') :
    (ofNext next init).Path always s (traceOf next s ls) s' :=
  exec_path_of (C := fun _ _ => True) h fun _ _ => trivial

end Exec

end System

end Odirag
