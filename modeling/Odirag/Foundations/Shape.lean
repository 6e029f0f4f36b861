import Mathlib.Data.List.Forall2
import Odirag.Foundations.Json

/-!
# Reading records out of JSON objects

A record is read field by field: a field is required or has a default, and a reader takes its value
or refuses it. A list is read if every item of it is (`listOf_map`).
-/

namespace Odirag.Json

variable {α β γ : Type}

/-- A field that has to be there. -/
def required (fields : Fields) (key : Text) (read : Json → Option α) : Option α :=
  (fields.lookup key).bind read

/-- A field with a default. -/
def defaulted (fields : Fields) (key : Text) (default : α) (read : Json → Option α) : Option α :=
  match fields.lookup key with
  | none => some default
  | some value => read value

/-- The first of two names that is used for a field. -/
def nameUsed (fields : Fields) (key other : Text) : Text :=
  if (fields.lookup key).isSome then key else other

/-- No other names occur. -/
def known (keys : List Text) (fields : Fields) : Bool := fields.all fun field => field.1 ∈ keys

/-- A text. -/
def readText : Json → Option Text
  | .str s => some s
  | _ => none

/-- Null, or what is read. -/
def nullable (read : Json → Option α) : Json → Option (Option α)
  | .null => some none
  | value => (read value).map some

/-- A list of what is read. -/
def listOf (read : Json → Option α) : Json → Option (List α)
  | .arr values => values.mapM read
  | _ => none

/-- One of these texts. -/
def literal (table : List (Text × α)) : Json → Option α
  | .str s => table.lookup s
  | _ => none

theorem mapM_eq_some {f : α → Option β} {as : List α} {bs : List β} :
    as.mapM f = some bs ↔ List.Forall₂ (fun a b => f a = some b) as bs := by
  induction as generalizing bs with
  | nil =>
      rw [List.mapM_nil, List.forall₂_nil_left_iff]
      exact ⟨fun h => (Option.some.inj h).symm, fun h => by rw [h]; rfl⟩
  | cons a as ih =>
      rw [List.mapM_cons, List.forall₂_cons_left_iff]
      simp only [Option.bind_eq_bind, Option.bind_eq_some_iff, ih]
      constructor
      · rintro ⟨b, hb, bs', hbs, h⟩
        exact ⟨b, bs', hb, hbs, (Option.some.inj h).symm⟩
      · rintro ⟨b, bs', hb, hbs, rfl⟩
        exact ⟨b, hb, bs', hbs, rfl⟩

theorem mapM_isSome {f : α → Option β} {as : List α} :
    (as.mapM f).isSome = true ↔ ∀ a ∈ as, (f a).isSome = true := by
  induction as with
  | nil => simp
  | cons a as ih =>
      rw [List.mapM_cons, List.forall_mem_cons, ← ih]
      cases f a with
      | none => simp
      | some b =>
          cases as.mapM f with
          | none => simp
          | some bs => simp

/-- What is read comes from an item. -/
theorem exists_of_mem_mapM {f : α → Option β} {as : List α} {bs : List β} (h : as.mapM f = some bs)
    {b : β} (hb : b ∈ bs) : ∃ a ∈ as, f a = some b := by
  rw [mapM_eq_some] at h
  induction h with
  | nil => cases hb
  | cons hab _ ih =>
      rcases List.mem_cons.mp hb with rfl | hb
      · exact ⟨_, List.mem_cons_self, hab⟩
      · obtain ⟨a, ha, hab'⟩ := ih hb
        exact ⟨a, List.mem_cons_of_mem _ ha, hab'⟩

/-- A list is read if its items are, one by one. -/
theorem listOf_map {write : γ → Json} {read : Json → Option α} {f : γ → Option α}
    (h : ∀ c, read (write c) = f c) (cs : List γ) : listOf read (.arr (cs.map write)) = cs.mapM f := by
  rw [listOf, List.mapM_map]
  exact congrArg (fun g => cs.mapM g) (funext h)

/-- A list of texts is read as it is. -/
theorem listOf_readText (ts : List Text) : listOf readText (.arr (ts.map .str)) = some ts := by
  have hitems : ∀ t : Text, readText (.str t) = some t := fun _ => rfl
  rw [listOf_map hitems, mapM_eq_some]
  induction ts with
  | nil => exact .nil
  | cons t ts ih => exact .cons rfl ih

theorem nullable_text (t : Option Text) :
    nullable readText (t.elim .null .str) = some t := by
  cases t <;> rfl

end Odirag.Json
