import GlyphLine.Command.Dispatch
import GlyphLine.Proofs.Host.Act

/-!
# Linting on a machine

A run of the linter reads before it writes, prints before it writes files, and writes the
report before its Markdown.  Here each of these steps is said by what it gives and by what
it leaves of the machine.  What a step leaves alone is said for all of its ends at once, so
that a failure in it needs no lemma of its own.

## Main definitions

* `given?`, `usable?`: what a machine gives to a run, and the policy of it.
* `Told`, `Printed`: the machines that a run leaves before it writes files.

## Main statements

* `on_readInput`, `on_runReport`: reading, and the report.
* `framed_writeAsked`, `read_of_writeAsked`: the files.
* `lint_unusable`, `lint_usable`: linting up to its files.
-/

namespace GlyphLine
namespace Command

open Lint

/-! ## What a run is given -/

/-- The bytes of the text to be linted: those of a file, or the whole input. -/
def linted (s : Machine) : Option String → Except SystemError (List UInt8)
  | some path => s.read path
  | none => s.unlessDenied .input (.ok s.input)

/-- What a run is given by a machine on which the file of the policy is a text and the text
to be linted can be read. -/
def given? (s : Machine) (o : LintOptions) : Option Report.Input := do
  let bytes ← (s.read o.policy).toOption
  let policy ← Text.decode? bytes
  let text ← (linted s o.text).toOption
  some ⟨policy, .ofPath o.policy, Text.decodeLossy text,
    Policy.requiresAdoption o.adoptionRequired (s.environment.lookup Policy.adoptionVariable)⟩

/-- What a run is given, with the policy, if this one is accepted. -/
def usable? (s : Machine) (o : LintOptions) : Option (Report.Input × Policy) := do
  let i ← given? s o
  let p ← (Policy.load i.policyText i.form).toOption
  some (i, p)

theorem eq_ok_of_toOption {ε α : Type} {r : Except ε α} {a : α} (h : r.toOption = some a) :
    r = .ok a := by
  cases r with
  | ok b => rw [Option.some.inj h]
  | error e => cases h

/-- A run has a usable input exactly if it is given one whose policy is accepted. -/
theorem usable?_eq_some_iff {s : Machine} {o : LintOptions} {i : Report.Input} {p : Policy} :
    usable? s o = some (i, p) ↔
      given? s o = some i ∧ Policy.load i.policyText i.form = .ok p := by
  constructor
  · intro h
    obtain ⟨j, hgiven, h⟩ := Option.bind_eq_some_iff.1 h
    obtain ⟨q, hload, h⟩ := Option.bind_eq_some_iff.1 h
    cases h
    exact ⟨hgiven, eq_ok_of_toOption hload⟩
  · rintro ⟨hgiven, hload⟩
    have hsome : (Policy.load i.policyText i.form).toOption = some p := by
      rw [hload]
      rfl
    exact Option.bind_eq_some_iff.2 ⟨i, hgiven, Option.bind_eq_some_iff.2 ⟨p, hsome, rfl⟩⟩

/-- The text to be linted is read, or there is a failure; nothing but the input changes. -/
theorem on_readLinted (s : Machine) (path : Option String) :
    ∃ t : Machine, t = { s with input := t.input } ∧
      match linted s path with
      | .ok bytes => (readLinted path).on s = (.ok (Text.decodeLossy bytes), t)
      | .error _ => ∃ f, (readLinted path).on s = (.error f, t) := by
  cases path with
  | some path =>
    refine ⟨s, rfl, ?_⟩
    rw [linted]
    cases hread : s.read path with
    | ok bytes => exact Act.on_bind_ok s (Act.on_read_ok s hread _)
    | error e => exact ⟨_, Act.on_bind_error s (Act.on_read_error s hread _)⟩
  | none =>
    refine ⟨{ s with input := [] }, rfl, ?_⟩
    rw [linted]
    cases hinput : s.unlessDenied .input (.ok s.input) with
    | ok bytes =>
      have hrun : (Host.input : StateM Machine _).run s = (.ok bytes, { s with input := [] }) := by
        show (s.unlessDenied .input (.ok s.input), { s with input := [] }) = _
        rw [hinput]
      exact Act.on_bind_ok s (Act.on_during_ok s hrun _)
    | error e =>
      have hrun : (Host.input : StateM Machine _).run s = (.error e, { s with input := [] }) := by
        show (s.unlessDenied .input (.ok s.input), { s with input := [] }) = _
        rw [hinput]
      exact ⟨_, Act.on_bind_error s (Act.on_during_error s hrun _)⟩

/-- What a run is given is read, or there is a failure; nothing but the input changes. -/
theorem on_readInput (s : Machine) (o : LintOptions) :
    ∃ t : Machine, t = { s with input := t.input } ∧
      match given? s o with
      | some i => (readInput o).on s = (.ok i, t)
      | none => ∃ f, (readInput o).on s = (.error f, t) := by
  by_cases hpolicy : ∃ bytes policy,
      s.read o.policy = .ok bytes ∧ Text.decode? bytes = some policy
  · obtain ⟨bytes, policy, hread, htext⟩ := hpolicy
    have hfile := Act.on_readText_ok s hread htext ("read ICEMAP policy: " ++ o.policy)
    obtain ⟨t, ht, hlinted⟩ := on_readLinted s o.text
    refine ⟨t, ht, ?_⟩
    have henv : t.environment = s.environment := by rw [ht]
    cases htarget : linted s o.text with
    | ok target =>
      rw [htarget] at hlinted
      have hgiven : given? s o = some ⟨policy, .ofPath o.policy, Text.decodeLossy target,
          Policy.requiresAdoption o.adoptionRequired
            (s.environment.lookup Policy.adoptionVariable)⟩ := by
        simp [given?, hread, htext, htarget, Except.toOption]
      rw [hgiven, ← henv]
      rw [readInput, Act.on_bind_ok s hfile, Act.on_bind_ok s hlinted]
      rfl
    | error e =>
      rw [htarget] at hlinted
      obtain ⟨f, hf⟩ := hlinted
      have hgiven : given? s o = none := by
        simp [given?, hread, htarget, Except.toOption]
      rw [hgiven]
      exact ⟨f, by rw [readInput, Act.on_bind_ok s hfile, Act.on_bind_error s hf]⟩
  · have hnone : ∀ bytes, s.read o.policy = .ok bytes → Text.decode? bytes = none := by
      intro bytes hread
      cases htext : Text.decode? bytes with
      | none => rfl
      | some policy => exact absurd ⟨bytes, policy, hread, htext⟩ hpolicy
    obtain ⟨f, hf⟩ := Act.on_readText_error s hnone ("read ICEMAP policy: " ++ o.policy)
    have hgiven : given? s o = none := by
      unfold given?
      cases hread : s.read o.policy with
      | error e => rfl
      | ok bytes => simp [Except.toOption, hnone bytes hread]
    refine ⟨s, rfl, ?_⟩
    rw [hgiven]
    exact ⟨f, by rw [readInput, Act.on_bind_error s hf]⟩

/-! ## The report of a run -/

/-- Nothing but the clock has changed, and what is told has only grown. -/
structure Told (s t : Machine) : Prop where
  same : t = { s with clock := t.clock, told := t.told }
  grown : ∃ log, t.told = s.told ++ log

theorem Told.refl (s : Machine) : Told s s := ⟨rfl, "", by rw [String.append_empty]⟩

theorem Told.trans {s t u : Machine} (h : Told s t) (h' : Told t u) : Told s u := by
  obtain ⟨log, hlog⟩ := h.grown
  obtain ⟨log', hlog'⟩ := h'.grown
  refine ⟨?_, log ++ log', ?_⟩
  · rw [h'.same, h.same]
  · rw [hlog', hlog, String.append_assoc]

/-- Events that are told go where errors go, and nowhere else. -/
theorem told_tellEvents (events : List Log.Event) (s : Machine) :
    Told s ((tellEvents events : StateM Machine Unit).run s).2 := by
  rw [tellEvents, Machine.run_bind]
  generalize Log.Filter.ofVariable _ = filter
  show Told s ((List.forM (events.filter filter.shows) _ : StateM Machine Unit).run s).2
  generalize events.filter filter.shows = shown
  induction shown generalizing s with
  | nil => exact .refl s
  | cons e shown ih =>
    rw [List.forM, Machine.run_bind]
    refine Told.trans ?_ (ih _)
    exact ⟨rfl, _, rfl⟩

/-- The run of a report, up to its result: what is told in between. -/
theorem on_runReport (i : Report.Input) (s : Machine) :
    ∃ startedAt finishedAt t, Told s t ∧ (Report.runEvents i = [] → t.told = s.told) ∧
      (runReport i).on s =
        (Act.ofExcept (fun f => .ofMessages (Report.loadingMessages f))
          (Report.run i Report.thisTool startedAt finishedAt) >>= fun p =>
            (pure p.2 : Act (StateM Machine) Report)).on t := by
  have hstart : Told s { s with clock := s.clock + 1 } := ⟨rfl, "", by rw [String.append_empty]⟩
  have htold := told_tellEvents (Report.runEvents i) { s with clock := s.clock + 1 }
  obtain ⟨t, ht⟩ : ∃ t, ((tellEvents (Report.runEvents i) : StateM Machine Unit).run
    { s with clock := s.clock + 1 }).2 = t := ⟨_, rfl⟩
  rw [ht] at htold
  refine ⟨Machine.timeOf s.clock, Machine.timeOf t.clock, { t with clock := t.clock + 1 },
    (hstart.trans htold).trans ⟨rfl, "", by rw [String.append_empty]⟩, fun hnil => ?_, ?_⟩
  · have hquiet : t = { s with clock := s.clock + 1 } := by
      rw [← ht, hnil]
      rfl
    rw [hquiet]
  · have hnow : (liftM (Host.now : StateM Machine Timestamp) : Act (StateM Machine) _).on t =
        (.ok (Machine.timeOf t.clock), { t with clock := t.clock + 1 }) := rfl
    have htell : (liftM (tellEvents (Report.runEvents i) : StateM Machine Unit) :
        Act (StateM Machine) Unit).on { s with clock := s.clock + 1 } = (.ok (), t) := by
      rw [Act.on_lift, ht]
    rw [runReport, Act.on_bind_ok s (Act.on_lift s _)]
    refine (Act.on_bind_ok _ htell).trans ?_
    exact Act.on_bind_ok t hnow

/-- A policy that is refused is a failure, of which nothing is told before. -/
theorem on_runReport_error {i : Report.Input} {e : Policy.Fault}
    (h : Policy.load i.policyText i.form = .error e) (s : Machine) :
    ∃ f t, (runReport i).on s = (.error f, t) ∧ Told s t ∧ t.told = s.told := by
  obtain ⟨startedAt, finishedAt, t, ht, hquiet, hrun⟩ := on_runReport i s
  have hevents : Report.runEvents i = [] := by rw [Report.runEvents, h]
  have hreport : Report.run i Report.thisTool startedAt finishedAt = .error e := by
    rw [Report.run, h]
    rfl
  refine ⟨.ofMessages (Report.loadingMessages e), t, ?_, ht, hquiet hevents⟩
  rw [hrun, hreport]
  exact Act.on_bind_error t (Act.on_ofExcept_error t _ e)

/-- With a policy that is accepted there is a report. -/
theorem on_runReport_ok {i : Report.Input} {p : Policy}
    (h : Policy.load i.policyText i.form = .ok p) (s : Machine) :
    ∃ startedAt finishedAt r t,
      Report.run i Report.thisTool startedAt finishedAt = .ok (p, r) ∧
      (runReport i).on s = (.ok r, t) ∧ Told s t := by
  obtain ⟨startedAt, finishedAt, t, ht, -, hrun⟩ := on_runReport i s
  have hreport : Report.run i Report.thisTool startedAt finishedAt = .ok (p,
      ⟨Report.thisTool, startedAt, finishedAt, Lint.lint i.text p i.adoptionRequired⟩) := by
    rw [Report.run, h]
    rfl
  refine ⟨startedAt, finishedAt, _, t, hreport, ?_, ht⟩
  rw [hrun, hreport]
  exact Act.on_bind_ok t (Act.on_ofExcept_ok t _ _)

/-! ## Files -/

/-- Writing a file makes directories and changes the file, and nothing else. -/
theorem framed_writeFile (what path content : String) (s : Machine) :
    Machine.Framed [Volume.placeOf s.here path] s
      ((writeFile what path content : Act (StateM Machine) Unit).on s).2 := by
  unfold writeFile
  split
  · next directory _ =>
    have hmade := Machine.framed_during (Machine.framed_createDirectories directory s)
      ("create directory: " ++ directory)
    refine Machine.framed_bind hmade fun x t ht => ?_
    rw [ht] at hmade
    rw [← hmade.here_eq]
    exact Machine.framed_during (Machine.framed_write path _ t) _
  · exact Machine.framed_during (Machine.framed_write path _ s) _

/-- A file that has been written can be read. -/
theorem read_of_writeFile {what path content : String} {s t : Machine}
    (h : (writeFile what path content : Act (StateM Machine) Unit).on s = (.ok (), t)) :
    t.volume.read t.here path = .ok (Text.encode content) := by
  unfold writeFile at h
  split at h
  · obtain ⟨_, u, -, hwrite⟩ := Act.exists_of_on_bind s h
    exact Machine.read_of_write_ok (Act.run_eq_of_on_during u hwrite)
  · exact Machine.read_of_write_ok (Act.run_eq_of_on_during s h)

/-- The place of a file that is asked for, if one is. -/
def askedPlaces (s : Machine) (path : Option String) : List Place :=
  path.toList.map (Volume.placeOf s.here)

theorem framed_writeAsked (doing what : String) (path : Option String) (content : String)
    (s : Machine) :
    Machine.Framed (askedPlaces s path) s
      ((writeAsked doing what path content : Act (StateM Machine) Unit).on s).2 := by
  cases path with
  | none => exact .refl _ s
  | some path =>
    rw [writeAsked, Act.on_adapt]
    exact framed_writeFile what path content s

theorem read_of_writeAsked {doing what path content : String} {s t : Machine}
    (h : (writeAsked doing what (some path) content : Act (StateM Machine) Unit).on s =
      (.ok (), t)) : t.volume.read t.here path = .ok (Text.encode content) := by
  rw [writeAsked, Act.on_adapt] at h
  cases hr : (writeFile what path content : Act (StateM Machine) Unit).on s with
  | mk r u =>
    rw [hr] at h
    cases r with
    | ok x =>
      cases h
      exact read_of_writeFile hr
    | error e => cases h

/-! ## Linting, up to its files -/

/-- The exit code of an act with a result. -/
theorem run_exitCode_ok {layout : Failure → String} {a : Act (StateM Machine) Nat} {c : Nat}
    {s t : Machine} (h : a.on s = (.ok c, t)) :
    (exitCode layout a : StateM Machine Nat).run s = (c, t) := by
  have hrun : (ExceptT.run a).run s = (.ok c, t) := h
  rw [exitCode, Machine.run_bind, hrun]
  rfl

/-- A failure is told, and the exit code is 1. -/
theorem run_exitCode_error {layout : Failure → String} {a : Act (StateM Machine) Nat}
    {f : Failure} {s t : Machine} (h : a.on s = (.error f, t)) :
    (exitCode layout a : StateM Machine Nat).run s =
      (1, { t with told := t.told ++ layout f }) := by
  have hrun : (ExceptT.run a).run s = (.error f, t) := h
  rw [exitCode, Machine.run_bind, hrun]
  rfl

/-- Without a usable policy and a text, linting fails before it has written anything. -/
theorem lint_unusable {s : Machine} {o : LintOptions} (h : usable? s o = none) :
    ∃ f t, (lint o : Act (StateM Machine) Nat).on s = (.error f, t) ∧
      t.volume = s.volume ∧ t.printed = s.printed ∧ t.told = s.told := by
  obtain ⟨t, ht, hinput⟩ := on_readInput s o
  cases hgiven : given? s o with
  | none =>
    rw [hgiven] at hinput
    obtain ⟨f, hf⟩ := hinput
    refine ⟨f, t, ?_, by rw [ht], by rw [ht], by rw [ht]⟩
    rw [lint, Act.on_bind_error s hf]
  | some i =>
    rw [hgiven] at hinput
    cases hload : Policy.load i.policyText i.form with
    | ok p =>
      rw [usable?_eq_some_iff.2 ⟨hgiven, hload⟩] at h
      cases h
    | error e =>
      obtain ⟨f, u, hf, hu, htold⟩ := on_runReport_error hload t
      refine ⟨f, u, ?_, ?_, ?_, ?_⟩
      · rw [lint, Act.on_bind_ok s hinput, Act.on_bind_error t hf]
      · rw [hu.same, ht]
      · rw [hu.same, ht]
      · rw [htold, ht]

/-- The machine on which the files of a run are written: it has printed the report. -/
structure Printed (s : Machine) (r : Report) (u : Machine) : Prop where
  same : u = { s with input := u.input, clock := u.clock, printed := u.printed, told := u.told }
  printed : u.printed = s.printed ++ Render.console r.outcome
  told : ∃ log, u.told = s.told ++ log

/-- With a usable policy and a text there is a report, which is printed.  What is left are
the files and the exit code. -/
theorem lint_usable {s : Machine} {o : LintOptions} {i : Report.Input} {p : Policy}
    (h : usable? s o = some (i, p)) :
    ∃ startedAt finishedAt r u,
      Report.run i Report.thisTool startedAt finishedAt = .ok (p, r) ∧ Printed s r u ∧
      (lint o : Act (StateM Machine) Nat).on s =
        (do
          writeAsked "write report json" "report" o.report r.file
          writeAsked "write markdown" "text" o.markdown (Render.markdown r.outcome)
          pure r.outcome.verdict.exitCode : Act (StateM Machine) Nat).on u := by
  obtain ⟨hgiven, hload⟩ := usable?_eq_some_iff.1 h
  obtain ⟨t, ht, hinput⟩ := on_readInput s o
  rw [hgiven] at hinput
  obtain ⟨startedAt, finishedAt, r, u, hrun, hreport, htold⟩ := on_runReport_ok hload t
  obtain ⟨log, hlog⟩ := htold.grown
  refine ⟨startedAt, finishedAt, r, { u with printed := u.printed ++ Render.console r.outcome },
    hrun, ⟨?_, ?_, log, ?_⟩, ?_⟩
  · rw [htold.same, ht]
  · rw [htold.same, ht]
  · show u.told = s.told ++ log
    rw [hlog, ht]
  · rw [lint, Act.on_bind_ok s hinput, Act.on_bind_ok t hreport]
    exact Act.on_bind_ok u (Act.on_print u _)

end Command
end GlyphLine
