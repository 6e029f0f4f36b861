import Mathlib.Data.List.Induction
import Mathlib.Data.List.Nodup
import Mathlib.Data.List.Perm.Basic
import Mathlib.Data.List.Pairwise

/-!
# Tables with a key

A table with one row for each key, kept in the order in which the keys came: what an
insertion-ordered dictionary holds, and what a relation with a unique column does on insert and
update. `put` replaces the row of a key in its place or appends it, `remove` drops it. A table is
known from its rows by key (`find?_putAll`) up to the order of its rows (`perm_of_find?`).
-/

namespace Odirag.Keyed

variable {α κ : Type*} [DecidableEq κ] (key : α → κ)

/-- The row of a key. -/
def find? (k : κ) (rows : List α) : Option α := rows.find? fun row => key row = k

/-- Store a row: in the place of the row with its key, or at the end. -/
def put (rows : List α) (x : α) : List α :=
  if key x ∈ rows.map key then rows.map fun row => if key row = key x then x else row
  else rows ++ [x]

/-- Store rows one after another. -/
def putAll (rows xs : List α) : List α := xs.foldl (put key) rows

/-- Drop the row of a key. -/
def remove (rows : List α) (k : κ) : List α := rows.filter fun row => key row ≠ k

variable {key} {rows rows' xs : List α} {x row : α} {k : κ}

@[simp] theorem putAll_nil : putAll key rows [] = rows := rfl

@[simp] theorem putAll_cons : putAll key rows (x :: xs) = putAll key (put key rows x) xs := rfl

@[simp] theorem find?_nil : find? key k [] = none := rfl

theorem find?_cons :
    find? key k (row :: rows) = if key row = k then some row else find? key k rows := by
  unfold find?
  by_cases h : key row = k <;> simp [h]

theorem find?_eq_none_iff : find? key k rows = none ↔ k ∉ rows.map key := by
  rw [find?, List.find?_eq_none]
  simp

theorem find?_some (h : find? key k rows = some row) : row ∈ rows ∧ key row = k :=
  ⟨List.mem_of_find?_eq_some h, by simpa using List.find?_some h⟩

/-- With distinct keys a row is the one of its key. -/
theorem find?_eq_some_iff (hnodup : (rows.map key).Nodup) :
    find? key k rows = some row ↔ row ∈ rows ∧ key row = k := by
  constructor
  · exact find?_some
  · rintro ⟨hmem, rfl⟩
    cases hfind : find? key (key row) rows with
    | none => exact absurd (List.mem_map_of_mem hmem) (find?_eq_none_iff.mp hfind)
    | some other =>
        obtain ⟨hother, hkey⟩ := find?_some hfind
        rw [List.inj_on_of_nodup_map hnodup hother hmem hkey]

/-- What all rows of a key agree in is read from any of them. -/
theorem map_find?_of_unique {β : Type*} {f : α → β} (hmem : row ∈ rows)
    (hunique : ∀ other ∈ rows, key other = key row → f other = f row) :
    (find? key (key row) rows).map f = some (f row) := by
  cases hfind : find? key (key row) rows with
  | none => exact absurd (List.mem_map_of_mem hmem) (find?_eq_none_iff.mp hfind)
  | some other =>
      obtain ⟨hother, hkey⟩ := find?_some hfind
      rw [Option.map_some, hunique other hother hkey]

/-! ## Keys -/

theorem map_key_put (h : key x ∈ rows.map key) : (put key rows x).map key = rows.map key := by
  rw [put, if_pos h, List.map_map]
  refine List.map_congr_left fun row _ => ?_
  by_cases hrow : key row = key x <;> simp [hrow]

theorem nodup_put (hnodup : (rows.map key).Nodup) : ((put key rows x).map key).Nodup := by
  by_cases h : key x ∈ rows.map key
  · rwa [map_key_put h]
  · rw [put, if_neg h, List.map_append, List.map_singleton]
    exact List.nodup_append.mpr ⟨hnodup, List.nodup_singleton _, fun a ha b hb => by
      rw [List.mem_singleton.mp hb]
      exact fun heq => h (heq ▸ ha)⟩

theorem nodup_putAll (hnodup : (rows.map key).Nodup) : ((putAll key rows xs).map key).Nodup := by
  induction xs generalizing rows with
  | nil => exact hnodup
  | cons x xs ih => exact ih (nodup_put hnodup)

theorem mem_of_mem_put (h : row ∈ put key rows x) : row = x ∨ row ∈ rows := by
  unfold put at h
  split at h
  · obtain ⟨old, hold, rfl⟩ := List.mem_map.mp h
    split
    · exact .inl rfl
    · exact .inr hold
  · rcases List.mem_append.mp h with h | h
    · exact .inr h
    · exact .inl (List.mem_singleton.mp h)

theorem mem_of_mem_putAll (h : row ∈ putAll key rows xs) : row ∈ xs ∨ row ∈ rows := by
  induction xs generalizing rows with
  | nil => exact .inr h
  | cons x xs ih =>
      rcases ih h with hmem | hmem
      · exact .inl (List.mem_cons_of_mem _ hmem)
      · rcases mem_of_mem_put hmem with rfl | hmem
        · exact .inl List.mem_cons_self
        · exact .inr hmem

/-! ## Rows by key -/

theorem find?_map_replace :
    find? key k (rows.map fun row => if key row = key x then x else row) =
      if k = key x ∧ k ∈ rows.map key then some x else find? key k rows := by
  induction rows with
  | nil => simp
  | cons row rows ih =>
      simp only [List.map_cons, List.mem_cons, find?_cons, ih]
      by_cases hrow : key row = key x
      · by_cases hk : k = key x
        · simp [hrow, hk]
        · simp [hrow, hk, Ne.symm hk]
      · by_cases hk : key row = k
        · have hne : k ≠ key x := hk ▸ hrow
          simp [hk, hne]
        · have hk' : k ≠ key row := Ne.symm hk
          simp [hrow, hk, hk']

/-- Storing a row changes the row of its key. -/
theorem find?_put : find? key k (put key rows x) =
    if k = key x then some x else find? key k rows := by
  by_cases h : key x ∈ rows.map key
  · rw [put, if_pos h, find?_map_replace]
    by_cases hk : k = key x
    · subst hk
      rw [if_pos ⟨rfl, h⟩, if_pos rfl]
    · rw [if_neg fun hboth => hk hboth.1, if_neg hk]
  · rw [put, if_neg h, find?, List.find?_append]
    by_cases hk : k = key x
    · subst hk
      have hnone : rows.find? (fun row => key row = key x) = none := find?_eq_none_iff.mpr h
      simp [hnone]
    · have hlast : [x].find? (fun row => decide (key row = k)) = none := by
        simp [Ne.symm hk]
      rw [hlast, Option.or_none, if_neg hk]
      rfl

/-- Of the stored rows of a key the last one is found. -/
theorem find?_putAll_reverse :
    find? key k (putAll key rows xs) = (find? key k xs.reverse).or (find? key k rows) := by
  induction xs using List.reverseRecOn with
  | nil => rfl
  | append_singleton xs x ih =>
      rw [putAll, List.foldl_append, List.foldl_cons, List.foldl_nil, ← putAll, find?_put, ih,
        List.reverse_append, List.reverse_singleton, List.singleton_append, find?_cons]
      by_cases hk : k = key x
      · simp [hk]
      · rw [if_neg hk, if_neg (Ne.symm hk)]

theorem find?_reverse (hnodup : (xs.map key).Nodup) :
    find? key k xs.reverse = find? key k xs := by
  have hnodup' : (xs.reverse.map key).Nodup := by
    rwa [List.map_reverse, List.nodup_reverse]
  refine Option.ext fun row => ?_
  rw [find?_eq_some_iff hnodup', find?_eq_some_iff hnodup, List.mem_reverse]

/-- Stored rows with distinct keys are found, and the others are as before. -/
theorem find?_putAll (hnodup : (xs.map key).Nodup) :
    find? key k (putAll key rows xs) = (find? key k xs).or (find? key k rows) := by
  rw [find?_putAll_reverse, find?_reverse hnodup]

theorem find?_remove {k' : κ} :
    find? key k' (remove key rows k) = if k' = k then none else find? key k' rows := by
  induction rows with
  | nil => simp [remove]
  | cons row rows ih =>
      rw [remove] at ih ⊢
      rw [List.filter_cons, find?_cons]
      by_cases hrow : key row = k
      · rw [if_neg (by simpa using hrow), ih]
        by_cases hk : k' = k
        · simp [hk]
        · have hne : key row ≠ k' := fun h => hk (h ▸ hrow)
          simp [hk, hne]
      · rw [if_pos (by simpa using hrow), find?_cons, ih]
        by_cases hk : k' = k
        · have hne : key row ≠ k' := fun h => hrow (h.trans hk)
          simp [hk, hrow]
        · simp [hk]

/-- Storing what is stored changes nothing. -/
theorem put_of_find? (hnodup : (rows.map key).Nodup) (h : find? key (key x) rows = some x) :
    put key rows x = rows := by
  obtain ⟨hmem, -⟩ := find?_some h
  rw [put, if_pos (List.mem_map_of_mem hmem)]
  refine (List.map_congr_left fun row hrow => ?_).trans (List.map_id rows)
  by_cases hkey : key row = key x
  · rw [if_pos hkey, List.inj_on_of_nodup_map hnodup hrow hmem hkey]
    rfl
  · rw [if_neg hkey]
    rfl

/-- The same of several rows. -/
theorem putAll_of_find? (hnodup : (rows.map key).Nodup)
    (h : ∀ x ∈ xs, find? key (key x) rows = some x) : putAll key rows xs = rows := by
  induction xs with
  | nil => rfl
  | cons x xs ih =>
      rw [putAll_cons, put_of_find? hnodup (h x List.mem_cons_self)]
      exact ih fun y hy => h y (List.mem_cons_of_mem _ hy)

/-- Storing rows a second time changes nothing. -/
theorem putAll_putAll (hnodup : (rows.map key).Nodup) (hxs : (xs.map key).Nodup) :
    putAll key (putAll key rows xs) xs = putAll key rows xs := by
  refine putAll_of_find? (nodup_putAll hnodup) fun x hx => ?_
  rw [find?_putAll hxs, (find?_eq_some_iff hxs).mpr ⟨hx, rfl⟩]
  rfl

/-- Tables with the same row for each key have the same rows. -/
theorem perm_of_find? (hnodup : (rows.map key).Nodup) (hnodup' : (rows'.map key).Nodup)
    (h : ∀ k, find? key k rows = find? key k rows') : rows.Perm rows' := by
  refine (List.perm_ext_iff_of_nodup hnodup.of_map hnodup'.of_map).mpr fun row => ?_
  have hrow := h (key row)
  constructor
  · intro hmem
    rw [(find?_eq_some_iff hnodup).mpr ⟨hmem, rfl⟩] at hrow
    exact (find?_some hrow.symm).1
  · intro hmem
    rw [(find?_eq_some_iff hnodup').mpr ⟨hmem, rfl⟩] at hrow
    exact (find?_some hrow).1

end Odirag.Keyed
