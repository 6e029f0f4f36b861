import Mathlib.Data.Finset.Disjoint
import Mathlib.Data.Finset.SDiff
import Mathlib.Data.Finset.Lattice.Basic

/-!
# Two stores without a common transaction

A database commits rows together with a journal of their ids; a second store holds a point for
each row and is written directly, before the commit. An update puts the points of its new rows,
commits rows and journal, and then sweeps every journalled point that is not current. If it fails
before the commit it takes back the points it has put, except those of the rows that were there.

`Journalled` is what holds between updates: whatever the second store contains can be found again
through the journal.
-/

namespace Odirag

/-- Rows and points are journalled. -/
structure Journalled {α : Type*} (rows points journal : Finset α) : Prop where
  rows : rows ⊆ journal
  points : points ⊆ journal

namespace Journalled

variable {α : Type*} [DecidableEq α] {rows points journal new stale : Finset α}

/-- Points put for new rows are in the journal or new. -/
theorem put (h : Journalled rows points journal) {put : Finset α} (hput : put ⊆ new) :
    points ∪ put ⊆ journal ∪ new :=
  Finset.union_subset_union h.points hput

/-- Taking back the new points restores the journalled state. -/
theorem compensate (hrows : rows ⊆ journal) (hpoints : points ⊆ journal ∪ new) :
    Journalled rows (points \ (new \ rows)) journal where
  rows := hrows
  points := by
    intro id hid
    obtain ⟨hpoint, hkept⟩ := Finset.mem_sdiff.mp hid
    rcases Finset.mem_union.mp (hpoints hpoint) with hjournal | hnew
    · exact hjournal
    · by_contra hjournal
      exact hkept (Finset.mem_sdiff.mpr ⟨hnew, fun hrow => hjournal (hrows hrow)⟩)

/-- Nothing has to be taken back if every new point belongs to a row. -/
theorem of_covered (hrows : rows ⊆ journal) (hpoints : points ⊆ journal ∪ new)
    (hnew : new \ rows = ∅) : Journalled rows points journal := by
  have h := compensate hrows hpoints
  rwa [hnew, Finset.sdiff_empty] at h

/-- The commit of the new rows journals everything that has been put. -/
theorem commit (hpoints : points ⊆ journal ∪ new) : Journalled new points (journal ∪ new) where
  rows := Finset.subset_union_right
  points := hpoints

/-- A sweep leaves a journalled state, however far it gets. -/
theorem sweep (h : Journalled rows points journal) (swept : Finset α) :
    Journalled rows (points \ swept) journal where
  rows := h.rows
  points := Finset.sdiff_subset.trans h.points

/-- A sweep of all that is journalled and not current leaves exactly the current points. -/
theorem sweep_all (h : Journalled new points journal) (hput : new ⊆ points)
    (hall : journal \ new ⊆ stale) (hcurrent : Disjoint stale new) : points \ stale = new := by
  ext id
  rw [Finset.mem_sdiff]
  constructor
  · rintro ⟨hpoint, hkept⟩
    by_contra hnew
    exact hkept (hall (Finset.mem_sdiff.mpr ⟨h.points hpoint, hnew⟩))
  · intro hnew
    exact ⟨hput hnew, fun hstale => Finset.disjoint_left.mp hcurrent hstale hnew⟩

end Journalled

end Odirag
