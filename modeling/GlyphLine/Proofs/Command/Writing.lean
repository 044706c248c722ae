import GlyphLine.Proofs.Command.Outcome
import GlyphLine.Proofs.Host.Directories

/-!
# When the files of a run are written

How a run ends depends on whether its files can be written.  They can if nothing is denied and
nothing is in the way: the path of a file leads down and ends with a name, no file stands where a
directory has to be, and no directory where the file has to be.  Directories that are missing are
no obstacle, since they are made.

Writing one file makes directories above it.  So another file that could be written still can,
unless one of the two stands above the other.

* `Writable`: a file can be written under a path.
* `writeFile_ok`: it is.
* `Writable.after`: it still can be once another file has been written.
* `run_lint_writes`: **a run that has a report ends with its files written**.
-/

namespace GlyphLine
namespace Command

open Lint
open GlyphLine.Path (isStep steps Parent)
open Volume (namesOf placeOf start)

/-- A file can be written under a path. -/
structure Writable (s : Machine) (path : String) : Prop where
  /-- No directory may be denied, nor the file itself. -/
  createAllowed : ∀ q, s.denials.lookup (.createDirectory q) = none
  writeAllowed : s.denials.lookup (.write path) = none
  /-- The path leads down, from where there is a directory, and ends with a name. -/
  down : ".." ∉ namesOf path
  named : ∃ front name, namesOf path = front ++ [name] ∧ name ≠ "" ∧ name ≠ "."
  begins : s.volume.find? (start s.here path) = some .directory
  /-- No file stands above the place of the file, and no directory in it. -/
  above : ∀ p c, s.volume.find? p = some (.file c) → p <+: placeOf s.here path →
    p = placeOf s.here path
  free : s.volume.find? (placeOf s.here path) ≠ some .directory

variable {s t : Machine} {path : String}

/-- A path that can be written has another one above it, where directories can be made. -/
theorem Writable.exists_parent (h : Writable s path) :
    ∃ parent, Path.parent? path = some parent ∧ Parent path parent ∧
      Machine.CanMake s parent := by
  obtain ⟨front, name, hnames, hempty, hpoint⟩ := h.named
  have hstep : isStep name = true := by simp [isStep, hempty, hpoint]
  have hsome : steps path.toList ≠ [] := by
    refine List.ne_nil_of_mem (a := name) (List.mem_filter.mpr ⟨?_, hstep⟩)
    show name ∈ namesOf path
    rw [hnames]
    exact List.mem_append_right _ List.mem_cons_self
  cases hparent : Path.parent? path with
  | none => exact absurd (Path.parent?_eq_none hparent) hsome
  | some parent =>
    rcases Path.parent?_eq_some hparent with hp | ⟨hnil, -⟩
    · refine ⟨parent, rfl, hp, Machine.canMake_parent h.createAllowed h.down h.begins ?_ hp⟩
      intro pre hpre hne c hfile
      have hplace : placeOf s.here path = start s.here path ++ steps path.toList :=
        Volume.placeOf_eq h.down
      have heq := h.above _ c hfile (hplace ▸ (List.prefix_append_right_inj _).mpr hpre)
      exact hne (List.append_cancel_left (heq.trans hplace))
    · exact absurd hnil hsome

/-- A file that can be written is, and directories are made above it only. -/
theorem writeFile_ok (h : Writable s path) (what content : String) :
    ∃ v, (writeFile what path content : Act (StateM Machine) Unit).on s =
        (.ok (), { s with volume := v }) ∧
      ∀ p, v.find? p = some .directory →
        s.volume.find? p = some .directory ∨ p <+: placeOf s.here path := by
  obtain ⟨parent, hparent, hp, hmake⟩ := h.exists_parent
  obtain ⟨w, hmade, hdirs⟩ := Machine.createDirectories_ok hmake
  rw [Machine.start_parent hp] at hdirs
  obtain ⟨front, name, hnames, hempty, hpoint⟩ := h.named
  obtain ⟨last, -, hsteps⟩ := hp.step
  have hplace : placeOf s.here path = start s.here path ++ steps path.toList :=
    Volume.placeOf_eq h.down
  have hbegins : w.find? (start s.here path) = some .directory :=
    List.append_nil (start s.here path) ▸ hdirs.made [] List.nil_prefix
  have hwrite : w.write s.here path (Text.encode content) =
      .ok (w.put (placeOf s.here path) (.file (Text.encode content))) := by
    refine Volume.write_of_above h.down hnames hempty (by simp [isStep, hempty, hpoint]) hbegins
      (hsteps ▸ hdirs.above last) ?_ _
    rw [hplace, hsteps, hdirs.find?_concat, ← hsteps, ← hplace]
    exact h.free
  refine ⟨w.put (placeOf s.here path) (.file (Text.encode content)), ?_, fun p hdir => ?_⟩
  · unfold writeFile
    rw [hparent]
    dsimp only
    rw [Act.on_bind_ok s (Act.on_during_ok s hmade _)]
    exact Act.on_during_ok _
      (Machine.run_write_ok (s := { s with volume := w }) h.writeAllowed hwrite) _
  · by_cases hp : p = placeOf s.here path
    · exact .inr (hp ▸ List.prefix_rfl)
    rw [Volume.find?_put_of_ne w _ hp] at hdir
    by_cases hmadeThere : ∃ pre, pre <+: steps parent.toList ∧ p = start s.here path ++ pre
    · obtain ⟨pre, hpre, rfl⟩ := hmadeThere
      rw [hplace, hsteps]
      exact .inr ((List.prefix_append_right_inj _).mpr (hpre.trans (List.prefix_append _ _)))
    · rw [hdirs.kept p fun pre hpre heq => hmadeThere ⟨pre, hpre, heq⟩] at hdir
      exact .inl hdir

/-- A file that can be written still can once another one has been written, if neither stands
above the other. -/
theorem Writable.after {q : String} (h : Writable s q)
    (hframed : Machine.Framed [placeOf s.here path] s t)
    (hdirs : ∀ p, t.volume.find? p = some .directory →
      s.volume.find? p = some .directory ∨ p <+: placeOf s.here path)
    (hpq : ¬ placeOf s.here path <+: placeOf s.here q)
    (hqp : ¬ placeOf s.here q <+: placeOf s.here path) : Writable t q := by
  have hhere := hframed.here_eq
  have hdenials : t.denials = s.denials := by rw [hframed.same]
  refine ⟨hdenials ▸ h.createAllowed, hdenials ▸ h.writeAllowed, h.down, h.named, ?_, ?_, ?_⟩
  · rw [hhere]
    exact hframed.frame.directories _ h.begins
  · rw [hhere]
    intro p c hfile hle
    have hother : p ∉ [placeOf s.here path] := fun hmem =>
      hpq (List.mem_singleton.mp hmem ▸ hle)
    exact h.above p c ((hframed.frame.files p hother c).mp hfile) hle
  · rw [hhere]
    intro hdir
    rcases hdirs _ hdir with hdir | hle
    · exact h.free hdir
    · exact hqp hle

theorem writeAsked_ok (h : Writable s path) (doing what content : String) :
    ∃ v, (writeAsked doing what (some path) content : Act (StateM Machine) Unit).on s =
        (.ok (), { s with volume := v }) ∧
      ∀ p, v.find? p = some .directory →
        s.volume.find? p = some .directory ∨ p <+: placeOf s.here path := by
  obtain ⟨v, hwritten, hdirs⟩ := writeFile_ok h what content
  refine ⟨v, ?_, hdirs⟩
  rw [writeAsked, Act.on_adapt, hwritten]
  rfl

/-- The files that are asked for can both be written, and neither stands above the other. -/
structure AllWritable (s : Machine) (o : LintOptions) : Prop where
  report : ∀ p, o.report = some p → Writable s p
  markdown : ∀ q, o.markdown = some q → Writable s q
  apart : ∀ p q, o.report = some p → o.markdown = some q →
    ¬ placeOf s.here p <+: placeOf s.here q ∧ ¬ placeOf s.here q <+: placeOf s.here p

theorem AllWritable.apart_places {o : LintOptions} (h : AllWritable s o) : Apart s o :=
  fun p q hp hq heq => (h.apart p q hp hq).1 (heq ▸ List.prefix_rfl)

/-- What is read and printed before has no part in it. -/
theorem AllWritable.of_printed {o : LintOptions} {r : Report} {u : Machine} (h : AllWritable s o)
    (hu : Printed s r u) : AllWritable u o := by
  have hvolume : u.volume = s.volume := by rw [hu.same]
  have hhere : u.here = s.here := by rw [hu.same]
  have hdenials : u.denials = s.denials := by rw [hu.same]
  have hwritable {p : String} (hp : Writable s p) : Writable u p := by
    refine ⟨hdenials ▸ hp.createAllowed, hdenials ▸ hp.writeAllowed, hp.down, hp.named, ?_, ?_, ?_⟩
    · rw [hvolume, hhere]
      exact hp.begins
    · rw [hvolume, hhere]
      exact hp.above
    · rw [hvolume, hhere]
      exact hp.free
  exact ⟨fun p hp => hwritable (h.report p hp), fun q hq => hwritable (h.markdown q hq),
    hhere ▸ h.apart⟩

/-- Both files are written. -/
theorem AllWritable.writes {o : LintOptions} (h : AllWritable s o) (r : Report) :
    ∃ v w, (writeReport o r).on s = (.ok (), v) ∧ (writeMarkdown o r).on v = (.ok (), w) := by
  obtain ⟨v, hreport, hlater⟩ : ∃ v, (writeReport o r).on s = (.ok (), v) ∧
      ∀ q, o.markdown = some q → Writable v q := by
    cases hp : o.report with
    | none => exact ⟨s, by rw [writeReport, hp]; rfl, h.markdown⟩
    | some p =>
      obtain ⟨v, hwritten, hdirs⟩ :=
        writeAsked_ok (h.report p hp) "write report json" "report" r.file
      have hframed := framed_writeAsked "write report json" "report" (some p) r.file s
      rw [hwritten] at hframed
      refine ⟨{ s with volume := v }, by rw [writeReport, hp, hwritten], fun q hq => ?_⟩
      exact (h.markdown q hq).after hframed hdirs (h.apart p q hp hq).1 (h.apart p q hp hq).2
  cases hq : o.markdown with
  | none => exact ⟨v, v, hreport, by rw [writeMarkdown, hq]; rfl⟩
  | some q =>
    obtain ⟨w, hwritten, -⟩ :=
      writeAsked_ok (hlater q hq) "write markdown" "text" (Render.markdown r.outcome)
    exact ⟨v, _, hreport, by rw [writeMarkdown, hq, hwritten]⟩

/-- **A run that has a report ends with its files written**, if they can be written: its exit
code is that of the verdict, the report is in its file, and its Markdown is in the other one. -/
theorem run_lint_writes {ws : List String} {o : LintOptions}
    (hws : Request.ofWords ws = .ok (.lint o)) (hwritable : AllWritable s o) {i : Report.Input}
    {p : Policy} (husable : usable? s o = some (i, p)) :
    ∃ startedAt finishedAt r u w,
      Report.run i Report.thisTool startedAt finishedAt = .ok (p, r) ∧ Printed s r u ∧
      (run ws : StateM Machine Nat).run s = (r.outcome.verdict.exitCode, w) ∧
      w.printed = u.printed ∧ (∀ path, o.report = some path → Holds w path r) ∧
      ∀ path, o.markdown = some path →
        w.volume.read w.here path = .ok (Text.encode (Render.markdown r.outcome)) := by
  obtain ⟨startedAt, finishedAt, r, u, hreport, hprinted, hlint⟩ := lint_usable husable
  have hu := hwritable.of_printed hprinted
  obtain ⟨v, w, hfirst, hsecond⟩ := hu.writes r
  have hapart : Apart v o := by
    rw [Apart, (printed_writeReport hfirst).2]
    exact hu.apart_places
  have hends := written_of_ok (Report.storable_of_run hreport) hapart hfirst hsecond
  have hdone : (lint o : Act (StateM Machine) Nat).on s = (.ok r.outcome.verdict.exitCode, w) :=
    hlint.trans ((Act.on_bind_ok u hfirst).trans (Act.on_bind_ok v hsecond))
  have hrun : (run ws : StateM Machine Nat).run s = (r.outcome.verdict.exitCode, w) := by
    rw [run, hws]
    exact run_exitCode_ok hdone
  obtain ⟨-, -, hholds, htext, -⟩ := hends.allWritten v w hfirst hsecond
  exact ⟨startedAt, finishedAt, r, u, w, hreport, hprinted, hrun, hends.printed, hholds, htext⟩

/-- A directory that is missing is no obstacle. -/
theorem allWritable_kept : AllWritable keptMachine keptOptions := by
  have hwritable {path : String} (name : String) (hnames : namesOf path = ["out", name])
      (hname : name ≠ "" ∧ name ≠ "." ∧ ".." ≠ name) (hplace : placeOf [] path = ["out", name])
      (hstart : start [] path = []) : Writable keptMachine path := by
    have hroot : keptMachine.volume.find? (start [] path) = some .directory := by rw [hstart]; rfl
    have habove (p : Place) (c : List UInt8) (hfile : keptMachine.volume.find? p = some (.file c))
        (hle : p <+: placeOf [] path) : p = placeOf [] path := by
      rw [hplace] at hle ⊢
      rcases List.prefix_cons_iff.mp hle with rfl | ⟨q, rfl, -⟩
      · cases hfile
      · cases hfile
    refine ⟨fun _ => rfl, rfl, ?_, ⟨["out"], name, hnames, hname.1, hname.2.1⟩, hroot, habove, ?_⟩
    · rw [hnames]
      simp [hname.2.2]
    · show keptMachine.volume.find? (placeOf [] path) ≠ _
      rw [hplace]
      exact fun h => by cases h
  refine ⟨fun p hp => ?_, fun q hq => ?_, fun p q hp hq => ?_⟩
  · cases hp
    exact hwritable "r.json" (by decide +kernel) (by decide) (by decide +kernel) (by decide +kernel)
  · cases hq
    exact hwritable "m.md" (by decide +kernel) (by decide) (by decide +kernel) (by decide +kernel)
  · cases hp
    cases hq
    decide +kernel

end Command
end GlyphLine
