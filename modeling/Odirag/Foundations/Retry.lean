import Mathlib.Data.List.Basic

/-!
# Loops that try again

A loop asks a world that answers as it likes. Each answer settles the matter, or it is a failure that
another attempt may mend; after `retries` of these the loop gives up with the last one. `run_spec` says
how the answers determine what comes out, and how many there are.
-/

namespace Odirag.Retry

/-- What an attempt comes to. -/
inductive Attempt (ε α : Type)
  | settled (result : Except ε α)
  | mendable (error : ε)

namespace Attempt

variable {ε α : Type}

/-- Another attempt may do better. -/
def isMendable : Attempt ε α → Bool
  | settled _ => false
  | mendable _ => true

/-- What comes out if there is no other attempt. -/
def outcome : Attempt ε α → Except ε α
  | settled result => result
  | mendable error => .error error

end Attempt

variable {σ ρ ε α : Type} (ask : σ → ρ × σ) (verdict : ℕ → ρ → Attempt ε α)

/-- The answers, what comes out, and the world afterwards; attempt `n` comes first. -/
def run (retries n : ℕ) (s : σ) : List ρ × Except ε α × σ :=
  let (reply, s) := ask s
  match verdict n reply with
  | .settled result => ([reply], result, s)
  | .mendable error =>
      match retries with
      | 0 => ([reply], .error error, s)
      | retries + 1 =>
          let (replies, result, s) := run retries (n + 1) s
          (reply :: replies, result, s)

section

variable {ask verdict} {retries n : ℕ} {s : σ}

theorem run_zero : run ask verdict 0 n s =
    ([(ask s).1], (verdict n (ask s).1).outcome, (ask s).2) := by
  unfold run
  dsimp only
  cases verdict n (ask s).1 <;> rfl

theorem run_settled {result : Except ε α} (h : verdict n (ask s).1 = .settled result) :
    run ask verdict retries n s = ([(ask s).1], result, (ask s).2) := by
  unfold run
  dsimp only
  rw [h]

theorem run_mendable {error : ε} (h : verdict n (ask s).1 = .mendable error) :
    run ask verdict (retries + 1) n s =
      ((ask s).1 :: (run ask verdict retries (n + 1) (ask s).2).1,
        (run ask verdict retries (n + 1) (ask s).2).2) := by
  conv_lhs => unfold run
  dsimp only
  rw [h]

end

/-- The last answer decides. All before it are failures that could be mended, at most `retries` of
them, and exactly so many if the last one is such a failure too. -/
theorem run_spec (retries n : ℕ) (s : σ) :
    ∃ earlier last, (run ask verdict retries n s).1 = earlier ++ [last] ∧
      (∀ i reply, earlier[i]? = some reply → (verdict (n + i) reply).isMendable = true) ∧
      earlier.length ≤ retries ∧
      ((verdict (n + earlier.length) last).isMendable = true → earlier.length = retries) ∧
      (run ask verdict retries n s).2.1 = (verdict (n + earlier.length) last).outcome := by
  induction retries generalizing n s with
  | zero =>
      rw [run_zero]
      exact ⟨[], (ask s).1, rfl, by simp, Nat.le_refl 0, fun _ => rfl, rfl⟩
  | succ retries ih =>
      cases hverdict : verdict n (ask s).1 with
      | settled result =>
          rw [run_settled hverdict]
          refine ⟨[], (ask s).1, rfl, by simp, Nat.zero_le _, fun h => ?_, ?_⟩
          · rw [List.length_nil, Nat.add_zero, hverdict] at h
            cases h
          · rw [List.length_nil, Nat.add_zero, hverdict]
            rfl
      | mendable error =>
          rw [run_mendable hverdict]
          obtain ⟨earlier, last, hreplies, hearlier, hlength, hlast, hresult⟩ :=
            ih (n + 1) (ask s).2
          have hshift : n + 1 + earlier.length = n + ((ask s).1 :: earlier).length := by
            rw [List.length_cons]
            omega
          rw [hshift] at hlast hresult
          refine ⟨(ask s).1 :: earlier, last, congrArg ((ask s).1 :: ·) hreplies, ?_,
            Nat.succ_le_succ hlength, fun h => congrArg (· + 1) (hlast h), hresult⟩
          intro i reply hi
          cases i with
          | zero =>
              cases hi
              rw [Nat.add_zero, hverdict]
              rfl
          | succ i =>
              rw [show n + (i + 1) = n + 1 + i by omega]
              exact hearlier i reply hi

end Odirag.Retry
