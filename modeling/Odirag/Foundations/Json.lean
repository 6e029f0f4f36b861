import Odirag.Foundations.Text
import Mathlib.Data.Rat.Defs

/-!
# JSON values

A JSON document as a program holds it after reading: objects are lists of fields without a key
twice, numbers are integers or finite floating-point numbers. `get` reads a field the way a lookup
with a default of null does, and `mapping` is the guard that takes anything but an object for the
empty one.
-/

namespace Odirag

/-- A JSON value. -/
inductive Json
  | null
  | bool (b : Bool)
  | int (n : ℤ)
  | float (x : ℚ)
  | str (s : Text)
  | arr (items : List Json)
  | obj (fields : List (Text × Json))

namespace Json

/-- The fields of an object. -/
abbrev Fields := List (Text × Json)

/-- The value of a field, null where there is none. -/
def get (fields : Fields) (key : Text) : Json :=
  ((fields.find? (fun field => field.1 == key)).map Prod.snd).getD .null

/-- The fields of an object, and no fields for anything else. -/
def mapping : Json → Fields
  | .obj fields => fields
  | _ => []

/-- Is the value true where a truth value is asked for? -/
def truthy : Json → Bool
  | .null => false
  | .bool b => b
  | .int n => n != 0
  | .float x => x != 0
  | .str s => !s.isEmpty
  | .arr items => !items.isEmpty
  | .obj fields => !fields.isEmpty

/-- Is the value null? -/
def isNull : Json → Bool
  | .null => true
  | _ => false

/-- Is the value this text? -/
def isText (text : Text) : Json → Bool
  | .str s => s == text
  | _ => false

/-- Is the value this truth value? -/
def isBool (b : Bool) : Json → Bool
  | .bool c => c == b
  | _ => false

/-- Is the value equal to this integer? A truth value counts as 0 or 1. -/
def isNumber (n : ℤ) : Json → Bool
  | .bool b => (if b then 1 else 0) == n
  | .int m => m == n
  | .float x => x == n
  | _ => false

/-- The value of a field, another one where there is none. -/
def getD (fields : List (Text × Json)) (key : Text) (default : Json) : Json :=
  ((fields.find? (fun field => field.1 == key)).map Prod.snd).getD default

/-- Can a program loop over the value, with null for nothing to loop over? -/
def iterable : Json → Bool
  | .null | .str _ | .arr _ | .obj _ => true
  | _ => false

/-- The value, or another one where it is not true. -/
def orElse (value other : Json) : Json := if value.truthy then value else other

/-- The text of a value; `render` is the text of what is not a text. -/
def toText (render : Json → Text) : Json → Text
  | .str s => s
  | value => render value

@[simp] theorem get_nil (key : Text) : get [] key = .null := rfl

theorem get_cons (field : Text × Json) (fields : Fields) (key : Text) :
    get (field :: fields) key = if field.1 = key then field.2 else get fields key := by
  unfold get
  rw [List.find?_cons]
  by_cases h : field.1 = key
  · simp [h]
  · rw [if_neg h, beq_eq_false_iff_ne.mpr h]

@[simp] theorem get_cons_self (key : Text) (value : Json) (fields : Fields) :
    get ((key, value) :: fields) key = value := by
  rw [get_cons, if_pos rfl]

@[simp] theorem mapping_obj (fields : Fields) : mapping (.obj fields) = fields := rfl

@[simp] theorem mapping_null : mapping .null = [] := rfl

@[simp] theorem truthy_null : truthy .null = false := rfl

@[simp] theorem truthy_bool (b : Bool) : truthy (.bool b) = b := rfl

@[simp] theorem toText_str (render : Json → Text) (s : Text) : toText render (.str s) = s := rfl

@[simp] theorem iterable_null : iterable .null = true := rfl

theorem iterable_orElse {value other : Json} (hvalue : value.iterable) (hother : other.iterable) :
    (value.orElse other).iterable := by
  unfold orElse
  split
  · exact hvalue
  · exact hother

theorem truthy_str_iff (s : Text) : truthy (.str s) = true ↔ s ≠ [] := by
  cases s <;> simp [truthy]

/-! ## Equality -/

mutual

/-- Are the values the same? -/
def same : Json → Json → Bool
  | .null, .null => true
  | .bool a, .bool b => a == b
  | .int m, .int n => m == n
  | .float x, .float y => x == y
  | .str s, .str t => s == t
  | .arr items, .arr others => sameItems items others
  | .obj fields, .obj others => sameFields fields others
  | _, _ => false

def sameItems : List Json → List Json → Bool
  | [], [] => true
  | item :: items, other :: others => same item other && sameItems items others
  | _, _ => false

def sameFields : Fields → Fields → Bool
  | [], [] => true
  | (key, value) :: fields, (key', value') :: others =>
      key == key' && same value value' && sameFields fields others
  | _, _ => false

end

mutual

theorem same_iff : (value other : Json) → (same value other = true ↔ value = other)
  | .null, other => by cases other <;> simp [same]
  | .bool _, other => by cases other <;> simp [same]
  | .int _, other => by cases other <;> simp [same]
  | .float _, other => by cases other <;> simp [same]
  | .str _, other => by cases other <;> simp [same]
  | .arr items, other => by cases other <;> simp [same, sameItems_iff items]
  | .obj fields, other => by cases other <;> simp [same, sameFields_iff fields]

theorem sameItems_iff :
    (items others : List Json) → (sameItems items others = true ↔ items = others)
  | [], others => by cases others <;> simp [sameItems]
  | item :: items, others => by
      cases others <;> simp [sameItems, same_iff item, sameItems_iff items]

theorem sameFields_iff :
    (fields others : Fields) → (sameFields fields others = true ↔ fields = others)
  | [], others => by cases others <;> simp [sameFields]
  | (key, value) :: fields, others => by
      cases others <;> simp [sameFields, same_iff value, sameFields_iff fields, Prod.ext_iff]

end

instance : DecidableEq Json := fun value other => decidable_of_iff _ (same_iff value other)

/-! ## Keys -/

mutual

/-- Does no object of the value have a key twice? -/
def distinct : Json → Bool
  | .arr items => distinctItems items
  | .obj fields => decide (fields.map Prod.fst).Nodup && distinctFields fields
  | _ => true

def distinctItems : List Json → Bool
  | [] => true
  | item :: items => distinct item && distinctItems items

def distinctFields : Fields → Bool
  | [] => true
  | (_, value) :: fields => distinct value && distinctFields fields

end

theorem distinctItems_iff {items : List Json} :
    distinctItems items = true ↔ ∀ item ∈ items, item.distinct = true := by
  induction items with
  | nil => simp [distinctItems]
  | cons item items ih => simp [distinctItems, ih]

end Json

end Odirag
