import Mathlib.Data.List.Nodup
import Odirag.Foundations.Netloc

/-!
# Files of assignments

A file of lines `KEY=value`, as shell scripts write it with `printf` and read it with `grep`: a key
is looked up by the lines that begin with it and an equals sign, there has to be exactly one, and the
value is what follows the first equals sign. A key may be a prefix of another one. What was written
is found again (`valueOf_render`) if the keys are distinct and have no equals sign.
-/

namespace Odirag.KeyFile

open Url

variable {key value line text : Text} {entries : List (Text × Text)}

/-- The lines of a file; the last one may lack its newline. -/
def lines (text : Text) : List Text :=
  let parts := text.splitOnP (· == '\n')
  if parts.getLast? = some [] then parts.dropLast else parts

/-- `KEY=value`. -/
def entry (e : Text × Text) : Text := e.1 ++ '=' :: e.2

/-- One line for each assignment. -/
def render (entries : List (Text × Text)) : Text := entries.flatMap fun e => entry e ++ ['\n']

/-- `grep -E "^KEY="`. -/
def assigns (key line : Text) : Bool := (key ++ ['=']).isPrefixOf line

/-- The value of the one line that assigns the key, `${line#*=}`. -/
def valueOf (text key : Text) : Option Text :=
  match (lines text).filter (assigns key) with
  | [line] => some ((partition '=' line).2.getD line)
  | _ => none

/-- One of the keys is assigned a text that is not empty and has no blank in it. -/
def expected (blank : Char → Bool) (keys : List Text) (line : Text) : Bool :=
  keys.any fun key =>
    let value := line.drop (key.length + 1)
    assigns key line && !value.isEmpty && value.all fun c => !blank c

/-- Assignments that a line each can hold. -/
structure Writable (entries : List (Text × Text)) : Prop where
  distinct : (entries.map Prod.fst).Nodup
  key_equals : ∀ e ∈ entries, '=' ∉ e.1
  key_line : ∀ e ∈ entries, '\n' ∉ e.1
  value_line : ∀ e ∈ entries, '\n' ∉ e.2

theorem assigns_iff : assigns key line = true ↔ ∃ value, line = entry (key, value) := by
  rw [assigns, List.isPrefixOf_iff_prefix]
  constructor
  · rintro ⟨value, rfl⟩
    exact ⟨value, by simp [entry]⟩
  · rintro ⟨value, rfl⟩
    exact ⟨value, by simp [entry]⟩

/-- The first equals sign tells the keys apart. -/
theorem assigns_entry {e : Text × Text} (hkey : '=' ∉ key) (he : '=' ∉ e.1) :
    assigns key (entry e) = true ↔ e.1 = key := by
  rw [assigns_iff]
  constructor
  · rintro ⟨value, h⟩
    have hparts := congrArg (partition '=') h
    rw [entry, entry, partition_append he, partition_append hkey] at hparts
    exact (Prod.mk.inj hparts).1
  · rintro rfl
    exact ⟨e.2, rfl⟩

theorem not_mem_entry {e : Text × Text} (hkey : '\n' ∉ e.1) (hvalue : '\n' ∉ e.2) :
    '\n' ∉ entry e := by
  simp [entry, hkey, hvalue]

/-- The pieces between the newlines, and nothing after the last one. -/
theorem splitOnP_render (hkey : ∀ e ∈ entries, '\n' ∉ e.1) (hvalue : ∀ e ∈ entries, '\n' ∉ e.2) :
    (render entries).splitOnP (· == '\n') = entries.map entry ++ [[]] := by
  induction entries with
  | nil => rfl
  | cons e rest ih =>
      have hline : ∀ c ∈ entry e, (c == '\n') = false := by
        intro c hc
        rw [beq_eq_false_iff_ne]
        rintro rfl
        exact not_mem_entry (hkey e List.mem_cons_self) (hvalue e List.mem_cons_self) hc
      have hrest := ih (fun f hf => hkey f (List.mem_cons_of_mem e hf))
        fun f hf => hvalue f (List.mem_cons_of_mem e hf)
      have hrender : render (e :: rest) = entry e ++ '\n' :: render rest := by
        simp [render]
      rw [hrender, List.splitOnP_append_cons_of_forall_mem hline _ (by simp), hrest]
      rfl

theorem lines_render (h : Writable entries) : lines (render entries) = entries.map entry := by
  simp [lines, splitOnP_render h.key_line h.value_line]

/-- With distinct keys one line assigns the key. -/
theorem filter_assigns (h : Writable entries) (hmem : (key, value) ∈ entries) :
    (entries.map entry).filter (assigns key) = [entry (key, value)] := by
  have hkey : '=' ∉ key := h.key_equals _ hmem
  have hfilter : entries.filter (fun e => assigns key (entry e)) =
      entries.filter (fun e => e.1 = key) := by
    apply List.filter_congr
    intro e he
    rw [Bool.eq_iff_iff, assigns_entry hkey (h.key_equals e he), decide_eq_true_iff]
  have hone : entries.filter (fun e => e.1 = key) = [(key, value)] := by
    have hnodup : entries.Nodup := h.distinct.of_map
    apply List.perm_singleton.mp
    apply (List.perm_ext_iff_of_nodup (hnodup.filter _) (List.nodup_singleton _)).mpr
    intro e
    rw [List.mem_filter, List.mem_singleton, decide_eq_true_iff]
    constructor
    · rintro ⟨he, hfst⟩
      exact List.inj_on_of_nodup_map h.distinct he hmem hfst
    · rintro rfl
      exact ⟨hmem, rfl⟩
  rw [List.filter_map, Function.comp_def, hfilter, hone]
  rfl

/-- What was written under a key is read back. -/
theorem valueOf_render (h : Writable entries) (hmem : (key, value) ∈ entries) :
    valueOf (render entries) key = some value := by
  have hkey : '=' ∉ key := h.key_equals _ hmem
  rw [valueOf, lines_render h, filter_assigns h hmem]
  simp [entry, partition_append hkey]

/-- A written line is expected if its value is not empty and has no blank. -/
theorem expected_entry {blank : Char → Bool} {keys : List Text} (hkey : key ∈ keys)
    (hne : value ≠ []) (hvalue : ∀ c ∈ value, blank c = false) :
    expected blank keys (entry (key, value)) = true := by
  have hdrop : (entry (key, value)).drop (key.length + 1) = value := by
    simp [entry]
  rw [expected, List.any_eq_true]
  refine ⟨key, hkey, ?_⟩
  rw [hdrop, assigns_iff.mpr ⟨value, rfl⟩]
  simpa [hne] using hvalue

end Odirag.KeyFile
