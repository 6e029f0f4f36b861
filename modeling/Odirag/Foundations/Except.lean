import Mathlib.Data.List.Forall2

/-!
# Computations that may fail

What a result of a computation in `Except` says about its parts. A sequence is taken apart by
`bind_eq_ok`, a loop that collects what it finds by `mem_of_collect`.
-/

namespace Odirag

universe u v

variable {ε : Type u} {α β : Type v}

/-- A sequence returns exactly if both parts do. -/
theorem bind_eq_ok {x : Except ε α} {f : α → Except ε β} {b : β} :
    x >>= f = .ok b ↔ ∃ a, x = .ok a ∧ f a = .ok b := by
  cases x <;> simp [bind, Except.bind]

/-- A result is changed exactly if there is one. -/
theorem map_eq_ok {x : Except ε α} {f : α → β} {b : β} :
    f <$> x = .ok b ↔ ∃ a, x = .ok a ∧ f a = b := by
  cases x <;> simp [Functor.map, Except.map]

theorem bind_returns {x : Except ε α} {f : α → Except ε β}
    (hx : ∃ a, x = .ok a) (hf : ∀ a, ∃ b, f a = .ok b) : ∃ b, x >>= f = .ok b := by
  obtain ⟨a, rfl⟩ := hx
  exact hf a

/-- A loop of checks passes exactly if each check does. -/
theorem forM_eq_ok {γ : Type} {f : γ → Except ε Unit} {as : List γ} :
    as.forM f = .ok () ↔ ∀ a ∈ as, f a = .ok () := by
  induction as with
  | nil => simp [List.forM, pure, Except.pure]
  | cons a as ih =>
      change (f a >>= fun _ => as.forM f) = .ok () ↔ _
      rw [bind_eq_ok, List.forall_mem_cons, ← ih]
      constructor
      · rintro ⟨_, ha, has⟩
        exact ⟨ha, has⟩
      · rintro ⟨ha, has⟩
        exact ⟨(), ha, has⟩

/-- A loop returns exactly if each step does, and with the results of the steps. -/
theorem mapM_eq_ok {f : α → Except ε β} {as : List α} {bs : List β} :
    as.mapM f = .ok bs ↔ List.Forall₂ (fun a b => f a = .ok b) as bs := by
  induction as generalizing bs with
  | nil =>
      rw [List.mapM_nil, List.forall₂_nil_left_iff]
      constructor
      · rintro ⟨⟩
        rfl
      · rintro rfl
        rfl
  | cons a as ih =>
      rw [List.mapM_cons, bind_eq_ok]
      constructor
      · rintro ⟨b, hb, h⟩
        obtain ⟨rest, hrest, h⟩ := bind_eq_ok.mp h
        cases h
        exact .cons hb (ih.mp hrest)
      · rintro (_ | ⟨hb, hrest⟩)
        refine ⟨_, hb, bind_eq_ok.mpr ⟨_, ih.mpr hrest, rfl⟩⟩

/-- Collect what a computation finds for each item. -/
def collect (f : α → Except ε (Option β)) : List α → Except ε (List β)
  | [] => .ok []
  | a :: rest => do
      let found ← f a
      let others ← collect f rest
      return found.toList ++ others

/-- What is collected was found for one of the items. -/
theorem mem_of_collect {f : α → Except ε (Option β)} {as : List α} {bs : List β}
    (h : collect f as = .ok bs) {b : β} (hb : b ∈ bs) : ∃ a ∈ as, f a = .ok (some b) := by
  induction as generalizing bs with
  | nil =>
      cases h
      cases hb
  | cons a rest ih =>
      obtain ⟨found, hfound, h⟩ := bind_eq_ok.mp h
      obtain ⟨others, hothers, h⟩ := bind_eq_ok.mp h
      cases h
      rcases List.mem_append.mp hb with hb | hb
      · rw [Option.mem_toList.mp hb] at hfound
        exact ⟨a, List.mem_cons_self, hfound⟩
      · obtain ⟨a', ha', hf⟩ := ih hothers hb
        exact ⟨a', List.mem_cons_of_mem _ ha', hf⟩

/-- What a loop returns for the first items. -/
theorem mapM_take {f : α → Except ε β} {as : List α} {bs : List β} (h : as.mapM f = .ok bs) (n : ℕ) :
    (as.take n).mapM f = .ok (bs.take n) := by
  induction as generalizing bs n with
  | nil =>
      cases h
      simp
      rfl
  | cons a as ih =>
      rw [List.mapM_cons] at h
      obtain ⟨b, hb, h⟩ := bind_eq_ok.mp h
      obtain ⟨rest, hrest, h⟩ := bind_eq_ok.mp h
      cases h
      cases n with
      | zero => rfl
      | succ n =>
          rw [List.take_succ_cons, List.mapM_cons, hb, List.take_succ_cons]
          change ((as.take n).mapM f >>= fun bs => pure (b :: bs)) = _
          rw [ih hrest]
          rfl

end Odirag
