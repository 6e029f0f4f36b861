import Mathlib.Data.List.Basic

/-!
# Computations that change a state and may raise

What is raised leaves the state as it was changed until then. `Effect.Ensures` says what holds of the
state and of the result where a computation returns, and what holds of the state where it raises. Its
rules follow the structure of a computation; a loop has an invariant over the items that were done.
-/

namespace Odirag

/-- A computation that returns or raises, in a state that outlives both. -/
def Effect (σ ε α : Type) := σ → Except ε α × σ

namespace Effect

variable {σ ε ε' α β : Type}

instance : Monad (Effect σ ε) where
  pure a := fun s => (.ok a, s)
  bind m f := fun s =>
    match m s with
    | (.ok a, s') => f a s'
    | (.error e, s') => (.error e, s')

/-- Raise. -/
def raise (e : ε) : Effect σ ε α := fun s => (.error e, s)

/-- Look at the state. -/
def look : Effect σ ε σ := fun s => (.ok s, s)

/-- Change the state. -/
def change (f : σ → σ) : Effect σ ε Unit := fun s => (.ok (), f s)

/-- Handle what is raised. -/
def handle (m : Effect σ ε α) (f : ε → Effect σ ε α) : Effect σ ε α := fun s =>
  match m s with
  | (.ok a, s') => (.ok a, s')
  | (.error e, s') => f e s'

/-- Raise unless a condition holds. -/
def require (c : Prop) [Decidable c] (e : ε) : Effect σ ε Unit :=
  if c then Pure.pure () else raise e

/-- Raise where there is nothing. -/
def ofOption (e : ε) : Option α → Effect σ ε α
  | some a => Pure.pure a
  | none => raise e

/-- Raise something else instead. -/
def mapError (f : ε → ε') (m : Effect σ ε α) : Effect σ ε' α := fun s =>
  match m s with
  | (.ok a, s') => (.ok a, s')
  | (.error e, s') => (.error (f e), s')

/-- Tidy up where something is raised, and let it pass. -/
def onError (m : Effect σ ε α) (tidy : Effect σ ε Unit) : Effect σ ε α :=
  handle m fun e => do
    tidy
    raise e

/-- What an outcome is, returned or raised. -/
def Outcome (Q : α → σ → Prop) (E : σ → Prop) : Except ε α × σ → Prop
  | (.ok a, s) => Q a s
  | (.error _, s) => E s

/-- Where `P` holds before, `Q` holds of what is returned, and `E` where something is raised. -/
def Ensures (P : σ → Prop) (m : Effect σ ε α) (Q : α → σ → Prop) (E : σ → Prop) : Prop :=
  ∀ s, P s → Outcome Q E (m s)

namespace Ensures

variable {P : σ → Prop} {Q : α → σ → Prop} {R : β → σ → Prop} {E E' : σ → Prop}
  {m : Effect σ ε α}

theorem pure {a : α} (h : ∀ s, P s → Q a s) : Ensures P (Pure.pure a : Effect σ ε α) Q E := h

theorem raise {e : ε} (h : ∀ s, P s → E s) : Ensures P (Effect.raise e : Effect σ ε α) Q E := h

theorem change {f : σ → σ} {Q : Unit → σ → Prop} (h : ∀ s, P s → Q () (f s)) :
    Ensures P (Effect.change f : Effect σ ε Unit) Q E := h

/-- What is looked at is the state. -/
theorem look : Ensures P (Effect.look : Effect σ ε σ) (fun a s => P s ∧ a = s) E :=
  fun _ h => ⟨h, rfl⟩

theorem require {c : Prop} [Decidable c] {e : ε} (h : ∀ s, P s → E s) :
    Ensures P (Effect.require c e : Effect σ ε Unit) (fun _ s => P s ∧ c) E := by
  intro s hs
  unfold Effect.require
  split
  · next hc => exact ⟨hs, hc⟩
  · exact h s hs

theorem ofOption {o : Option α} {e : ε} (h : ∀ s, P s → E s) :
    Ensures P (Effect.ofOption e o : Effect σ ε α) (fun a s => P s ∧ o = some a) E := by
  intro s hs
  cases o with
  | some a => exact ⟨hs, rfl⟩
  | none => exact h s hs

theorem mapError {f : ε → ε'} (hm : Ensures P m Q E) : Ensures P (Effect.mapError f m) Q E := by
  intro s hs
  have h := hm s hs
  unfold Effect.mapError
  cases hrun : m s with
  | mk result s' =>
      rw [hrun] at h
      cases result with
      | ok a => exact h
      | error e => exact h

/-- One after the other. -/
theorem bind {f : α → Effect σ ε β} (hm : Ensures P m Q E) (hf : ∀ a, Ensures (Q a) (f a) R E) :
    Ensures P (m >>= f) R E := by
  intro s hs
  have h := hm s hs
  show Outcome R E (match m s with
    | (.ok a, s') => f a s'
    | (.error e, s') => (.error e, s'))
  cases hrun : m s with
  | mk result s' =>
      rw [hrun] at h
      cases result with
      | ok a => exact hf a s' h
      | error e => exact h

/-- Where something is raised, the handler takes its place. -/
theorem handle {f : ε → Effect σ ε α} (hm : Ensures P m Q E') (hf : ∀ e, Ensures E' (f e) Q E) :
    Ensures P (Effect.handle m f) Q E := by
  intro s hs
  have h := hm s hs
  unfold Effect.handle
  cases hrun : m s with
  | mk result s' =>
      rw [hrun] at h
      cases result with
      | ok a => exact h
      | error e => exact hf e s' h

theorem onError {tidy : Effect σ ε Unit} (hm : Ensures P m Q E')
    (htidy : Ensures E' tidy (fun _ => E) E) : Ensures P (Effect.onError m tidy) Q E :=
  hm.handle fun _ => htidy.bind fun _ => Ensures.raise fun _ h => h

/-- A condition beside the state can be taken apart. -/
theorem of_and {c : Prop} (h : c → Ensures P m Q E) : Ensures (fun s => P s ∧ c) m Q E :=
  fun s hs => h hs.2 s hs.1

/-- What is looked at in a known state is that state. -/
theorem look_eq (s₀ : σ) :
    Ensures (fun s => s = s₀) (Effect.look : Effect σ ε σ) (fun a s => s = s₀ ∧ a = s₀) E :=
  fun _ hs => ⟨hs, hs⟩

theorem weaken (h : Ensures P m Q E) (hE : ∀ s, E s → E' s) : Ensures P m Q E' := by
  intro s hs
  have hm := h s hs
  cases hrun : m s with
  | mk result s' =>
      rw [hrun] at hm
      cases result with
      | ok a => exact hm
      | error e => exact hE s' hm

/-- The rule of consequence. -/
theorem conseq {P' : σ → Prop} {Q' : α → σ → Prop} (h : Ensures P m Q E)
    (hP : ∀ s, P' s → P s) (hQ : ∀ a s, Q a s → Q' a s) : Ensures P' m Q' E := by
  intro s hs
  have hm := h s (hP s hs)
  cases hrun : m s with
  | mk result s' =>
      rw [hrun] at hm
      cases result with
      | ok a => exact hQ a s' hm
      | error e => exact hm

/-- A loop keeps an invariant over the items that were done. -/
theorem foldlM {I : List α → β → σ → Prop} {step : β → α → Effect σ ε β} {xs : List α}
    (hstep : ∀ done x rest b, xs = done ++ x :: rest →
      Ensures (I done b) (step b x) (I (done ++ [x])) E) (b : β) :
    Ensures (I [] b) (xs.foldlM step b) (I xs) E := by
  have hloop : ∀ rest done b, xs = done ++ rest →
      Ensures (I done b) (rest.foldlM step b) (I xs) E := by
    intro rest
    induction rest with
    | nil =>
        intro done b hxs
        rw [List.append_nil] at hxs
        subst hxs
        exact Ensures.pure fun _ h => h
    | cons x rest ih =>
        intro done b hxs
        rw [List.foldlM_cons]
        exact (hstep done x rest b hxs).bind fun b' => ih (done ++ [x]) b' (by simpa using hxs)
  exact hloop xs [] b rfl

end Ensures

end Effect

end Odirag
