import Odirag.Foundations.Text

/-!
# Rows of fields

A table as a text: a line for each row, and the fields of a row with a separator between them. The
fields are read the way a shell reads them into variables when the separator counts as a blank: blanks
before a field are skipped, several count as one, and the last variable takes the rest of the line.
Fields that are not empty and do not contain the separator are read back (`readFields_row`).
-/

namespace Odirag.Rows

variable {sep : Char}

/-- Read a line into this many variables. -/
def readFields (sep : Char) : ℕ → Text → List Text
  | 0, _ => []
  | 1, line => [Text.stripBy (· == sep) line]
  | n + 2, line =>
      let rest := line.dropWhile (· == sep)
      rest.takeWhile (· != sep) :: readFields sep (n + 1) (rest.dropWhile (· != sep))

/-- The lines of a text that end with a line feed; a loop that reads lines does not see what comes
after the last one. -/
def lines (text : Text) : List Text := (text.splitOn '\n').dropLast

/-- A row with its line feed. -/
def row (sep : Char) (fields : List Text) : Text := [sep].intercalate fields ++ ['\n']

/-- A field that is read back. -/
def IsWord (sep : Char) (field : Text) : Prop := field ≠ [] ∧ sep ∉ field ∧ '\n' ∉ field

instance (field : Text) : Decidable (IsWord sep field) := inferInstanceAs (Decidable (_ ∧ _ ∧ _))

theorem dropWhile_word {field : Text} (h : IsWord sep field) (rest : Text) :
    (field ++ rest).dropWhile (· == sep) = field ++ rest := by
  cases field with
  | nil => exact absurd rfl h.1
  | cons c field =>
      have hc : (c == sep) = false :=
        beq_eq_false_iff_ne.mpr fun heq => h.2.1 (heq ▸ List.mem_cons_self)
      rw [List.cons_append, List.dropWhile_cons_of_neg (by simpa using hc)]

theorem stripBy_word {field : Text} (h : IsWord sep field) :
    Text.stripBy (· == sep) field = field := by
  have hreverse : IsWord sep field.reverse :=
    ⟨by simpa using h.1, by simpa using h.2.1, by simpa using h.2.2⟩
  have hleft := dropWhile_word h []
  have hright := dropWhile_word hreverse []
  rw [List.append_nil] at hleft hright
  rw [Text.stripBy, hleft, hright, List.reverse_reverse]

theorem takeWhile_word {field : Text} (h : IsWord sep field) (rest : Text) :
    (field ++ sep :: rest).takeWhile (· != sep) = field ∧
      (field ++ sep :: rest).dropWhile (· != sep) = sep :: rest := by
  have hall : ∀ c ∈ field, (c != sep) = true := fun c hc =>
    bne_iff_ne.mpr fun heq => h.2.1 (heq ▸ hc)
  rw [List.takeWhile_append_of_pos hall, List.dropWhile_append_of_pos hall]
  simp

/-- The blank before a field is skipped. -/
theorem readFields_blank (n : ℕ) (line : Text) :
    readFields sep (n + 1) (sep :: line) = readFields sep (n + 1) line := by
  cases n with
  | zero => simp [readFields, Text.stripBy]
  | succ n => simp [readFields]

/-- A row of words is read back. -/
theorem readFields_row {fields : List Text} (h : ∀ field ∈ fields, IsWord sep field) :
    readFields sep fields.length ([sep].intercalate fields) = fields := by
  induction fields with
  | nil => rfl
  | cons field fields ih =>
      have hfield := h field List.mem_cons_self
      have htail := ih fun f hf => h f (List.mem_cons_of_mem field hf)
      cases fields with
      | nil => simp [readFields, stripBy_word hfield]
      | cons next fields =>
          rw [List.intercalate_cons_cons]
          obtain ⟨htake, hdrop⟩ := takeWhile_word hfield ([sep].intercalate (next :: fields))
          simp only [List.length_cons, readFields, List.append_assoc, List.singleton_append,
            dropWhile_word hfield, htake, hdrop, readFields_blank]
          rw [show fields.length + 1 = (next :: fields).length from rfl, htail]

theorem newline_not_mem_intercalate {fields : List Text}
    (h : ∀ field ∈ fields, IsWord sep field) (hsep : sep ≠ '\n') :
    '\n' ∉ [sep].intercalate fields := by
  induction fields with
  | nil => simp
  | cons field fields ih =>
      have hfield := (h field List.mem_cons_self).2.2
      have htail := ih fun f hf => h f (List.mem_cons_of_mem field hf)
      cases fields with
      | nil => simpa using hfield
      | cons next fields =>
          rw [List.intercalate_cons_cons]
          simp only [List.mem_append, List.mem_singleton, not_or]
          exact ⟨⟨hfield, hsep.symm⟩, htail⟩

/-- The first line of a text. -/
theorem lines_cons {line rest : Text} (h : '\n' ∉ line) :
    lines (line ++ '\n' :: rest) = line :: lines rest := by
  unfold lines
  rw [List.splitOn_append_cons_self_of_not_mem h]
  exact List.dropLast_cons_of_ne_nil (List.splitOn_ne_nil _ _)

/-- Rows that are written one after another are read one after another. -/
theorem lines_rows {rows : List (List Text)}
    (h : ∀ fields ∈ rows, ∀ field ∈ fields, IsWord sep field) (hsep : sep ≠ '\n') :
    lines (rows.flatMap (row sep)) = rows.map ([sep].intercalate ·) := by
  induction rows with
  | nil => rfl
  | cons fields rows ih =>
      have htail := ih fun f hf => h f (List.mem_cons_of_mem fields hf)
      rw [List.flatMap_cons, row, List.append_assoc, List.singleton_append,
        lines_cons (newline_not_mem_intercalate (h fields List.mem_cons_self) hsep), htail]
      rfl

end Odirag.Rows
