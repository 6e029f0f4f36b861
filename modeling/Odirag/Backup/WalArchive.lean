import Odirag.Foundations.Replace
import Odirag.Foundations.Text

/-!
# The archive of the write-ahead log

Reference: `deploy/production/scripts/archive-postgres-wal.sh`.

PostgreSQL calls the script with a segment and its name until it exits with 0, and recycles the
segment then. The script compresses the segment beside its place in the archive and renames the
result; its trap removes the unfinished file when a signal arrives, and the script goes on. The
script may also be killed at any moment.
-/

namespace Odirag.Backup

open Replace (FileCommand Files Outcome commands issue replace)

/-- A character of `[0-9A-F]`. -/
def isHex (c : Char) : Bool := c.isDigit || ('A' ≤ c && c ≤ 'F')

/-- The line matches `^([0-9A-F]{24}|[0-9A-F]{24}\.[0-9A-F]{8}\.backup)$`. -/
def isWalLine (line : Text) : Bool :=
  let segment := line.take 24
  let rest := line.drop 24
  segment.length = 24 && segment.all isHex &&
    (rest = [] || rest.length = 16 && rest.take 1 = ['.'] && (rest.drop 1 |>.take 8).all isHex &&
      rest.drop 9 = str ".backup")

/-- `grep -Eq` finds a line that matches. -/
def isWalName (name : Text) : Bool := (name.splitOn '\n').any isWalLine

variable {α β : Type}

/-- `archive-postgres-wal.sh` with a segment and its name. -/
def archiveWal (gzip : α → β) (name : Text) (segment : α) :
    Script (FileCommand Text β) (Text → Files β) ℕ := do
  if isWalName name = false then return 1
  else if ← issue name .other then
    if ← Script.inspect fun d => (d name).target.isSome then return 0
    else if ← replace name (gzip segment) then return 0
    else
      -- The trap on `EXIT`.
      let _ ← issue name .remove
      return 1
  else return 1

/-- The calls of the script for the segments of a server, one at a time. -/
def archiver (gzip : α → β) (segment : Text → α) :
    Service (FileCommand Text β) (Text → Files β) (Outcome β) (Text → Files β) Text where
  toCommands := commands Text β
  host := id
  start _ d := d
  main name := archiveWal gzip name (segment name)
  handler status := return status

/-- Every file of the archive is its whole segment. -/
def Complete (gzip : α → β) (segment : Text → α) (d : Text → Files β) : Prop :=
  ∀ name, (d name).target = none ∨ (d name).target = some (gzip (segment name))

variable {gzip : α → β} {segment : Text → α} {name : Text} {d : Text → Files β}

/-- The files of a complete archive, and one of them old or new. -/
theorem complete_of_has {target : Option β} {others : Text → Option β}
    (h : Replace.Has name target others d)
    (htarget : target = none ∨ target = some (gzip (segment name)))
    (hothers : ∀ n, others n = none ∨ others n = some (gzip (segment n))) :
    Complete gzip segment d := by
  intro n
  by_cases hn : n = name
  · subst hn
    rw [h.1]
    exact htarget
  · rw [h.2 n hn]
    exact hothers n

/-- An action that does not rename leaves the archive as it is. -/
theorem triple_issue (action : Replace.Action β) (haction : action ≠ .rename) :
    Script.Triple (commands Text β) (Complete gzip segment) (Complete gzip segment)
      (issue name action) (fun _ => Complete gzip segment) := by
  intro d hd
  have hkeep : ∀ d', Replace.Has name (d name).target (fun n => (d n).target) d' →
      Complete gzip segment d' := fun d' h => complete_of_has h (hd name) hd
  exact Script.wp_mono (Replace.triple_issue action haction hkeep d ⟨rfl, fun _ _ => rfl⟩)
    fun _ d' h => hkeep d' h

theorem triple_replace_segment :
    Script.Triple (commands Text β) (Complete gzip segment) (Complete gzip segment)
      (replace name (gzip (segment name)))
      (fun ok d => Complete gzip segment d ∧
        (ok = true → (d name).target = some (gzip (segment name)))) := by
  intro d hd
  have hboth : ∀ d', Replace.Has name (d name).target (fun n => (d n).target) d' ∨
      Replace.Has name (some (gzip (segment name))) (fun n => (d n).target) d' →
      Complete gzip segment d' := by
    rintro d' (h | h)
    · exact complete_of_has h (hd name) hd
    · exact complete_of_has h (.inr rfl) hd
  refine Script.wp_mono (Replace.triple_replace name (gzip (segment name)) (d name).target
    (fun n => (d n).target) hboth d ⟨rfl, fun _ _ => rfl⟩) fun ok d' h => ?_
  cases ok with
  | false => exact ⟨hboth d' (.inl h), by simp⟩
  | true => exact ⟨hboth d' (.inr h), fun _ => h.1⟩

/-- A call keeps the archive complete at every moment, and exits with 0 only when the segment is
there. -/
theorem triple_archiveWal :
    Script.Triple (commands Text β) (Complete gzip segment) (Complete gzip segment)
      (archiveWal gzip name (segment name))
      (fun status d => Complete gzip segment d ∧
        (status = 0 → (d name).target = some (gzip (segment name)))) := by
  unfold archiveWal
  split
  · exact Script.Triple.pure fun d hd => ⟨hd, hd, by simp⟩
  refine Script.Triple.bind (triple_issue .other (by simp)) fun made => ?_
  cases made with
  | false => exact Script.Triple.pure fun d hd => ⟨hd, hd, by simp⟩
  | true =>
      refine Script.Triple.bind (Script.Triple.inspect fun d hd => hd) fun found => ?_
      cases found with
      | true =>
          refine Script.Triple.pure fun d hd => ⟨hd.1, hd.1, fun _ => ?_⟩
          refine (hd.1 name).resolve_left fun hnone => ?_
          have hfound := hd.2
          rw [hnone] at hfound
          cases hfound
      | false =>
          refine Script.Triple.bind (triple_replace_segment.pre fun d hd => hd.1) fun replaced => ?_
          cases replaced with
          | true => exact Script.Triple.pure fun d hd => ⟨hd.1, hd.1, fun _ => hd.2 rfl⟩
          | false =>
              refine Script.Triple.bind ((triple_issue .remove (by simp)).pre fun d hd => hd.1)
                fun _ => ?_
              exact Script.Triple.pure fun d hd => ⟨hd, hd, by simp⟩

/-- The archive is complete after any events. -/
theorem complete_of_run {tr : List (World (FileCommand Text β) (Text → Files β) (Text → Files β) ×
      Event (Outcome β) Text)} {w : World (FileCommand Text β) (Text → Files β) (Text → Files β)}
    (h : (System.ofNext (archiver gzip segment).next fun w =>
      ∃ d, w = .idle d ∧ Complete gzip segment d).Run System.always tr w) :
    Complete gzip segment ((archiver gzip segment).hostOf w) := by
  obtain ⟨w₀, hinit, hpath⟩ := h
  refine Service.invariant (S := archiver gzip segment) (D := Complete gzip segment)
    ⟨w₀, hinit, hpath.mono fun _ _ _ _ _ => Service.allowed_of fun _ _ _ _ => trivial⟩ ?_ ?_ ?_
  · rintro w ⟨d, rfl, hd⟩
    exact hd
  · intro name d hd
    exact Script.wp_mono (triple_archiveWal d hd) fun _ _ _ => trivial
  · exact fun status d hd => ⟨hd, trivial⟩

/-- Whatever segments the server hands over, whatever commands fail and wherever a call is killed:
every file of the archive is its whole segment at every moment, none is changed or taken away, and a
call exits with 0 only when its segment is in the archive. -/
theorem archive_spec (gzip : α → β) (segment : Text → α)
    {tr : List (World (FileCommand Text β) (Text → Files β) (Text → Files β) ×
      Event (Outcome β) Text)} {w}
    (h : (System.ofNext (archiver gzip segment).next fun w =>
      ∃ d, w = .idle d ∧ Complete gzip segment d).Run System.always tr w) :
    Complete gzip segment ((archiver gzip segment).hostOf w) ∧
      (∀ e w', (archiver gzip segment).next w e = some w' → ∀ name file,
        ((archiver gzip segment).hostOf w name).target = some file →
          ((archiver gzip segment).hostOf w' name).target = some file) ∧
      ∀ name, Script.Triple (commands Text β) (Complete gzip segment) (Complete gzip segment)
        (archiveWal gzip name (segment name))
        fun status d => status = 0 → (d name).target = some (gzip (segment name)) := by
  have hcomplete := complete_of_run h
  refine ⟨hcomplete, fun e w' hstep name file hfile => ?_,
    fun name => triple_archiveWal.post fun _ _ hend => hend.2⟩
  have hwhole : file = gzip (segment name) := by
    rcases hcomplete name with hnone | hsome
    · rw [hnone] at hfile
      cases hfile
    · exact Option.some_inj.mp (hfile.symm.trans hsome)
  have hcomplete' : Complete gzip segment ((archiver gzip segment).hostOf w') := by
    obtain ⟨w₀, hinit, hpath⟩ := h
    exact complete_of_run ⟨w₀, hinit, .cons hpath trivial hstep⟩
  rw [hwhole]
  refine (hcomplete' name).resolve_left fun hgone => ?_
  have hbefore : ((archiver gzip segment).hostOf w name).target = none := by
    rcases Service.hostOf_next hstep with heq | ⟨i, d, rfl, heq⟩ | ⟨c, d, e', hd, heq⟩
    · rwa [heq] at hgone
    · rw [heq] at hgone
      exact hgone
    · rw [heq] at hgone
      rw [hd]
      exact Replace.target_run hgone
  rw [hbefore] at hfile
  cases hfile

/-- A call is killed while it compresses, and the next one goes through. -/
def killedAndRepeated : List (Event (Outcome Text) Text) :=
  let name := str "000000010000000000000001"
  let fine : Outcome Text := ⟨true, [], false⟩
  [.start name, .outcome fine, .outcome fine, .outcome ⟨false, str "half", false⟩, .kill,
    .start name, .outcome fine, .outcome fine, .outcome fine, .outcome fine, .outcome fine]

/-- An archive without files. -/
def emptyArchive : Text → Files Text := fun _ => ⟨none, none⟩

/-- The compressed bytes of a segment. -/
def zipped (segment : Text) : Text := str "gzip " ++ segment

theorem archive_spec_killedAndRepeated :
    ∃ w, System.exec (archiver zipped id).next (.idle emptyArchive) killedAndRepeated = some w ∧
      Complete zipped id ((archiver zipped id).hostOf w) := by
  have hexec : (System.exec (archiver zipped id).next (.idle emptyArchive)
      killedAndRepeated).isSome := by
    decide
  obtain ⟨w, hw⟩ := Option.isSome_iff_exists.mp hexec
  have hempty : Complete zipped id emptyArchive := fun _ => .inl rfl
  have hrun : (System.ofNext (archiver zipped id).next fun w =>
      ∃ d, w = .idle d ∧ Complete zipped id d).Run System.always
        (System.traceOf (archiver zipped id).next (.idle emptyArchive) killedAndRepeated) w :=
    ⟨.idle emptyArchive, ⟨emptyArchive, rfl, hempty⟩, System.exec_path hw⟩
  exact ⟨w, hw, (archive_spec zipped id hrun).1⟩

end Odirag.Backup
