import Mathlib.Logic.Function.Basic
import Odirag.Foundations.Script

/-!
# Replacing a file

A file is replaced by writing another one beside it and renaming that one. The writing may fail and
leave any part of the content, and a signal handler may remove the file at any moment; the file
itself is as before until the rename, and complete from there on (`triple_replace`). The names are
those of a directory, and the other files of it are left alone.
-/

namespace Odirag.Replace

/-- A file and the one that is written first. -/
structure Files (β : Type) where
  target : Option β
  temporary : Option β

/-- What is done to the files of one name. -/
inductive Action (β : Type)
  /-- Nothing that changes a content. -/
  | other
  | write (content : β)
  | rename
  | remove

/-- A command on the files of a name. -/
structure FileCommand (ν β : Type) where
  name : ν
  action : Action β

/-- How a command ends: whether it succeeds, what it has written when it does not, and whether the
temporary file was removed before it. -/
structure Outcome (β : Type) where
  ok : Bool
  written : β
  removed : Bool

namespace Files

variable {β : Type}

def dropTemporary (files : Files β) : Files β := { files with temporary := none }

/-- An action on the two files. -/
def act (files : Files β) (e : Outcome β) : Action β → Bool × Files β
  | .other => (e.ok, files)
  | .write content =>
      if e.ok then (true, { files with temporary := some content })
      else (false, { files with temporary := some e.written })
  | .rename =>
      match e.ok, files.temporary with
      | true, some content => (true, ⟨some content, none⟩)
      | _, _ => (false, files)
  | .remove => (true, files.dropTemporary)

end Files

variable {ν β : Type} [DecidableEq ν]

/-- The commands on the files of a directory. -/
def commands (ν β : Type) [DecidableEq ν] :
    Commands (FileCommand ν β) (ν → Files β) (Outcome β) where
  run c d e :=
    let files := if e.removed then (d c.name).dropTemporary else d c.name
    ((files.act e c.action).1, Function.update d c.name (files.act e c.action).2)
  allowed _ _ _ := True

/-- Issue an action on the files of a name. -/
def issue (name : ν) (action : Action β) : Script (FileCommand ν β) (ν → Files β) Bool :=
  Script.issue ⟨name, action⟩

/-- Write the content beside the file and rename it. -/
def replace (name : ν) (content : β) : Script (FileCommand ν β) (ν → Files β) Bool := do
  if ← issue name (.write content) then
    if ← issue name .other then issue name .rename else return false
  else return false

/-- The files of the other names are these, the one of the name is this one. -/
def Has (name : ν) (target : Option β) (others : ν → Option β) (d : ν → Files β) : Prop :=
  (d name).target = target ∧ ∀ n, n ≠ name → (d n).target = others n

/-- An action that does not rename keeps the targets. -/
theorem has_run (action : Action β) {name : ν} {target : Option β} {others : ν → Option β}
    {d : ν → Files β} (h : Has name target others d) (haction : action ≠ .rename)
    (e : Outcome β) : Has name target others ((commands ν β).run ⟨name, action⟩ d e).2 := by
  have hdrop : ∀ files : Files β,
      (if e.removed then files.dropTemporary else files).target = files.target := by
    intro files
    split <;> rfl
  refine ⟨?_, fun n hn => ?_⟩
  · have hact : ∀ files : Files β, (files.act e action).2.target = files.target := by
      intro files
      cases action with
      | other => rfl
      | write content =>
          simp only [Files.act]
          split <;> rfl
      | rename => exact absurd rfl haction
      | remove => rfl
    simp only [commands, Function.update_self, hact, hdrop]
    exact h.1
  · simp only [commands, Function.update_of_ne hn]
    exact h.2 n hn

/-- What stands beside a file that is being replaced. -/
def Written (name : ν) (content : β) (d : ν → Files β) : Prop :=
  (d name).temporary = none ∨ (d name).temporary = some content

theorem written_write {name : ν} {content : β} {d : ν → Files β} {e : Outcome β}
    (hok : ((commands ν β).run ⟨name, .write content⟩ d e).1 = true) :
    Written name content ((commands ν β).run ⟨name, .write content⟩ d e).2 := by
  simp only [commands, Files.act, Function.update_self, Written] at hok ⊢
  split at hok
  · next h => simp [h]
  · cases hok

theorem written_other {name : ν} {content : β} {d : ν → Files β} {e : Outcome β}
    (h : Written name content d) :
    Written name content ((commands ν β).run ⟨name, .other⟩ d e).2 := by
  simp only [commands, Files.act, Function.update_self, Written]
  split
  · exact .inl rfl
  · exact h

/-- A rename puts the new content in place or leaves the file alone. -/
theorem has_rename {name : ν} {content : β} {old : Option β} {others : ν → Option β}
    {d : ν → Files β} (h : Has name old others d) (hwritten : Written name content d)
    (e : Outcome β) :
    Has name (if ((commands ν β).run ⟨name, .rename⟩ d e).1 then some content else old) others
      ((commands ν β).run ⟨name, .rename⟩ d e).2 := by
  refine ⟨?_, fun n hn => ?_⟩
  · simp only [commands, Function.update_self]
    generalize hfiles : (if e.removed then (d name).dropTemporary else d name) = files
    have htarget : files.target = old := by
      rw [← hfiles, ← h.1]
      split <;> rfl
    have htemporary : files.temporary = none ∨ files.temporary = some content := by
      rw [← hfiles]
      split
      · exact .inl rfl
      · exact hwritten
    rcases htemporary with hnone | hsome
    · simp [Files.act, hnone, htarget]
    · cases hok : e.ok <;> simp [Files.act, hsome, hok, htarget]
  · simp only [commands, Function.update_of_ne hn]
    exact h.2 n hn

section

variable {I : (ν → Files β) → Prop} {name : ν} {content : β} {old : Option β}
  {others : ν → Option β}

theorem triple_write (hI : ∀ d, Has name old others d → I d) :
    Script.Triple (commands ν β) I (Has name old others) (issue name (.write content))
      (fun ok d => Has name old others d ∧ (ok = true → Written name content d)) :=
  Script.Triple.issue hI fun _ e hd _ =>
    have hkeep := has_run (.write content) hd (by simp) e
    ⟨hI _ hkeep, hkeep, written_write⟩

theorem triple_rename (hI : ∀ d, Has name old others d ∨ Has name (some content) others d → I d) :
    Script.Triple (commands ν β) I (fun d => Has name old others d ∧ Written name content d)
      (issue name .rename) (fun ok d => Has name (if ok then some content else old) others d) := by
  refine Script.Triple.issue (fun d hd => hI d (.inl hd.1)) fun d e hd _ => ?_
  have hrename := has_rename hd.1 hd.2 e
  refine ⟨hI _ ?_, hrename⟩
  split at hrename
  · exact .inr hrename
  · exact .inl hrename

/-- At every moment the file has its old content or the new one; it has the new one exactly if the
script ends well. -/
theorem triple_replace (name : ν) (content : β) (old : Option β) (others : ν → Option β)
    (hI : ∀ d, Has name old others d ∨ Has name (some content) others d → I d) :
    Script.Triple (commands ν β) I (Has name old others) (replace name content)
      (fun ok d => Has name (if ok then some content else old) others d) := by
  have hold : ∀ d, Has name old others d → I d := fun d hd => hI d (.inl hd)
  unfold replace
  refine Script.Triple.bind (triple_write hold) fun written => ?_
  cases written with
  | false => exact Script.Triple.pure fun d hd => ⟨hold d hd.1, hd.1⟩
  | true =>
      refine Script.Triple.bind (Script.Triple.issue (fun d hd => hold d hd.1)
        (Q := fun _ d => Has name old others d ∧ Written name content d)
        fun d e hd _ => ?_) fun ready => ?_
      · have hkeep := has_run .other hd.1 (by simp) e
        exact ⟨hold _ hkeep, hkeep, written_other (hd.2 rfl)⟩
      cases ready with
      | false => exact Script.Triple.pure fun d hd => ⟨hold d hd.1, hd.1⟩
      | true => exact triple_rename hI

end

/-- An action that does not rename, in a script that keeps the targets. -/
theorem triple_issue {I : (ν → Files β) → Prop} (action : Action β) {name : ν} {target : Option β}
    {others : ν → Option β} (haction : action ≠ .rename)
    (hI : ∀ d, Has name target others d → I d) :
    Script.Triple (commands ν β) I (Has name target others) (issue name action)
      (fun _ => Has name target others) :=
  Script.Triple.issue hI fun _ e hd _ =>
    have hkeep := has_run action hd haction e
    ⟨hI _ hkeep, hkeep⟩

/-- No command takes a file away. -/
theorem target_run {c : FileCommand ν β} {d : ν → Files β} {e : Outcome β} {name : ν}
    (h : (((commands ν β).run c d e).2 name).target = none) : (d name).target = none := by
  by_cases hname : name = c.name
  · subst hname
    simp only [commands, Function.update_self] at h
    generalize hfiles : (if e.removed then (d c.name).dropTemporary else d c.name) = files at h
    have htarget : files.target = (d c.name).target := by
      rw [← hfiles]
      split <;> rfl
    rw [← htarget]
    cases haction : c.action with
    | other =>
        rw [haction] at h
        exact h
    | write content =>
        simp only [haction, Files.act] at h
        split at h <;> exact h
    | rename =>
        simp only [haction, Files.act] at h
        split at h
        · cases h
        · exact h
    | remove =>
        rw [haction] at h
        exact h
  · simpa [commands, Function.update_of_ne hname] using h

end Odirag.Replace
