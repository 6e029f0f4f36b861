import Mathlib.Logic.Basic

/-!
# Saving an object of an ORM session

A session keeps, for each row it has loaded, the values it loaded and the values the program
has assigned since. Saving writes by primary key exactly the columns whose assigned value differs
from the loaded one, whatever the row holds by then.
-/

namespace Odirag

/-- The stored value of one column after a save: written if the session changed it. -/
def column {α : Type*} [DecidableEq α] (loaded current stored : α) : α :=
  if current = loaded then stored else current

section Column

variable {α : Type*} [DecidableEq α]

/-- A column that the session left alone is not written. -/
@[simp] theorem column_unchanged (v stored : α) : column v v stored = stored := by
  simp [column]

/-- A save over the values that were loaded stores the session's values. -/
@[simp] theorem column_fresh (loaded current : α) : column loaded current loaded = current := by
  unfold column
  split
  · next h => exact h.symm
  · rfl

/-- A save keeps the stored value or writes the session's. -/
theorem column_cases (loaded current stored : α) :
    column loaded current stored = stored ∧ current = loaded ∨
      column loaded current stored = current ∧ current ≠ loaded := by
  by_cases h : current = loaded
  · exact .inl ⟨by simp [column, h], h⟩
  · exact .inr ⟨by simp [column, h], h⟩

/-- Saving what is stored already changes nothing. -/
@[simp] theorem column_same (loaded stored : α) : column loaded stored stored = stored := by
  simp [column]

end Column

/-- A row as a session holds it: the values last loaded or flushed, and the current ones. -/
structure Held (ρ : Type*) where
  loaded : ρ
  current : ρ
deriving DecidableEq

namespace Held

variable {ρ : Type*}

/-- The object right after a `SELECT` or a `refresh` of the row. -/
def fresh (row : ρ) : Held ρ := ⟨row, row⟩

/-- Assign attributes in memory. -/
def assign (h : Held ρ) (f : ρ → ρ) : Held ρ := { h with current := f h.current }

/-- A flush writes the assigned values; until the commit only the session itself sees them. -/
def flush (h : Held ρ) : Held ρ := ⟨h.current, h.current⟩

@[simp] theorem flush_loaded (h : Held ρ) : h.flush.loaded = h.current := rfl
@[simp] theorem flush_current (h : Held ρ) : h.flush.current = h.current := rfl
@[simp] theorem fresh_loaded (row : ρ) : (fresh row).loaded = row := rfl
@[simp] theorem fresh_current (row : ρ) : (fresh row).current = row := rfl
@[simp] theorem assign_loaded (h : Held ρ) (f : ρ → ρ) : (h.assign f).loaded = h.loaded := rfl
@[simp] theorem assign_current (h : Held ρ) (f : ρ → ρ) :
    (h.assign f).current = f h.current := rfl

end Held

end Odirag
