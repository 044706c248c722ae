import GlyphLine.Proofs.Command.Lint
import GlyphLine.Proofs.Report.RoundTrip
import GlyphLine.Proofs.Text.Utf8

/-!
# How linting ends

There are four ways in which a run of the linter can end: nothing usable has been read, the
report cannot be written, its Markdown cannot be written, or everything is done.  Which one
it is depends on the machine alone, and each one fixes the exit code and what is left in
files and on the output.

## Main definitions

* `Holds`: a machine has a report in the file under a path.
* `Keeps`: the file under a path is as it was.
* `Apart`: the report and its Markdown go to two files.
* `Unread`, `Written`: how a run ends.

## Main statements

* `run_markdown`: what is shown of a kept report.
* `written_lint`: how a run ends that has a report.
* `run_lint_outcome`: how a command line that asks for linting ends.
-/

namespace GlyphLine
namespace Command

open Lint

/-! ## Kept reports -/

/-- The file under a path is a text, and is read as the report `r`. -/
def Holds (s : Machine) (path : String) (r : Report) : Prop :=
  ∃ bytes content, s.volume.read s.here path = .ok bytes ∧
    Text.decode? bytes = some content ∧ Report.ofFile content = .ok r

theorem holds_of_read {s : Machine} {path : String} {r : Report} (hr : r.Storable)
    (h : s.volume.read s.here path = .ok (Text.encode r.file)) : Holds s path r :=
  ⟨_, _, h, Text.decode?_encode r.file, Report.ofFile_file hr⟩

/-- A report stays in its file when other files change. -/
theorem Holds.of_framed {places : List Place} {s t : Machine} {path : String} {r : Report}
    (h : Holds s path r) (hframed : Machine.Framed places s t)
    (hp : Volume.placeOf s.here path ∉ places) : Holds t path r := by
  obtain ⟨bytes, content, hread, htext, hreport⟩ := h
  refine ⟨bytes, content, ?_, htext, hreport⟩
  rw [hframed.here_eq]
  exact Volume.read_of_frame hframed.frame hp hread

/-- The words that ask for the Markdown of a kept report. -/
def markdownWords (path : String) : List String := ["md", "--report=" ++ path]

theorem ofWords_markdownWords (path : String) :
    Request.ofWords (markdownWords path) = .ok (.markdown path none) := by
  have hchars : ("--report=" ++ path).toList = "--report=".toList ++ path.toList :=
    String.toList_append
  have hne : "--report=" ++ path ≠ "--" := by
    intro h
    have hlist := congrArg String.toList h
    rw [hchars] at hlist
    cases hlist
  have hvalue : splitValue ("report=".toList ++ path.toList) = ("report", some path) := by
    show (String.ofList "report".toList, some (String.ofList path.toList)) = _
    rw [String.ofList_toList, String.ofList_toList]
  have hword : ∀ output : CommandOption ReportWords,
      readWord [reportOption, output, .help] noOperand ("--report=" ++ path) {} =
        .ok (.done { report := some path }) := by
    intro output
    rw [readWord, hchars]
    show readLong _ ("report=".toList ++ path.toList) _ = _
    rw [readLong, hvalue]
    rfl
  show (markdownRequest ["--report=" ++ path]).mapError _ = _
  rw [markdownRequest, readWords, if_neg hne, hword]
  rfl

/-- What is shown of a kept report is its Markdown, and nothing else changes. -/
theorem run_markdown {s : Machine} {path : String} {r : Report} (h : Holds s path r)
    (hopen : s.denials.lookup (.read path) = none) :
    (run (markdownWords path) : StateM Machine Nat).run s =
      (0, { s with printed := s.printed ++ Render.markdown r.outcome }) := by
  obtain ⟨bytes, content, hbytes, htext, hreport⟩ := h
  have hread : s.read path = .ok bytes := by
    rw [Machine.read, Machine.unlessDenied, hopen, hbytes]
  have hkept : (readReport path : Act (StateM Machine) Report).on s = (.ok r, s) := by
    rw [readReport, Act.on_bind_ok s (Act.on_readText_ok s hread htext _), hreport]
    rfl
  have hshown : (markdown path none : Act (StateM Machine) Unit).on s =
      (.ok (), { s with printed := s.printed ++ Render.markdown r.outcome }) := by
    rw [markdown, Act.on_bind_ok s hkept]
    exact Act.on_print s _
  rw [run, ofWords_markdownWords]
  exact run_exitCode_ok ((Act.on_bind_ok s hshown).trans (Act.on_pure _ 0))

/-! ## The files of a run -/

/-- The file under a path is as it was, and there is none if there was none. -/
def Keeps (s t : Machine) (path : String) : Prop :=
  ∀ c, t.volume.find? (Volume.placeOf s.here path) = some (.file c) ↔
    s.volume.find? (Volume.placeOf s.here path) = some (.file c)

/-- The file of the report, written if it is asked for. -/
def writeReport (o : LintOptions) (r : Report) : Act (StateM Machine) Unit :=
  writeAsked "write report json" "report" o.report r.file

/-- The file of the Markdown, written if it is asked for. -/
def writeMarkdown (o : LintOptions) (r : Report) : Act (StateM Machine) Unit :=
  writeAsked "write markdown" "text" o.markdown (Render.markdown r.outcome)

/-- The files that are asked for are two. -/
def Apart (s : Machine) (o : LintOptions) : Prop :=
  ∀ p q, o.report = some p → o.markdown = some q →
    Volume.placeOf s.here p ≠ Volume.placeOf s.here q

/-- Writing the report, whether it succeeds or not, does not touch the Markdown. -/
theorem keeps_writeReport {o : LintOptions} {s : Machine} (hapart : Apart s o) (r : Report)
    {q : String} (hq : o.markdown = some q) : Keeps s ((writeReport o r).on s).2 q := by
  intro c
  have hframed := framed_writeAsked "write report json" "report" o.report r.file s
  refine hframed.frame.files _ (fun hmem => ?_) c
  obtain ⟨p, hp, hplace⟩ := List.mem_map.1 hmem
  exact hapart p q (Option.mem_toList.1 hp) hq hplace

/-- A report that has been written is in its file. -/
theorem holds_writeReport {o : LintOptions} {s t : Machine} {r : Report} (hr : r.Storable)
    (h : (writeReport o r).on s = (.ok (), t)) {p : String} (hp : o.report = some p) :
    Holds t p r := by
  rw [writeReport, hp] at h
  exact holds_of_read hr (read_of_writeAsked h)

/-- Writing the Markdown, whether it succeeds or not, leaves the report in its file. -/
theorem holds_writeMarkdown {o : LintOptions} {s : Machine} (hapart : Apart s o) {r : Report}
    {p : String} (hp : o.report = some p) (h : Holds s p r) :
    Holds ((writeMarkdown o r).on s).2 p r := by
  refine h.of_framed (framed_writeAsked _ _ _ _ s) fun hmem => ?_
  obtain ⟨q, hq, hplace⟩ := List.mem_map.1 hmem
  exact hapart p q hp (Option.mem_toList.1 hq) hplace.symm

/-! ## The ways to end -/

/-- A failure has been told on a machine, and nothing else has been done any more. -/
def Fails (s : Machine) (code : Nat) (t : Machine) : Prop :=
  code = 1 ∧ ∃ line, t = { s with told := s.told ++ ("glyphlint error: " ++ line ++ "\n") }

theorem fails_lint (f : Failure) (s : Machine) :
    Fails s 1 { s with told := s.told ++ lintFailure f } := ⟨rfl, f.line, rfl⟩

/-- How a run ends that has read nothing usable: with a failure, and with no output, file or
directory. -/
structure Unread (s : Machine) (code : Nat) (t : Machine) : Prop where
  code : code = 1
  printed : t.printed = s.printed
  told : ∃ line, t.told = s.told ++ ("glyphlint error: " ++ line ++ "\n")
  volume : t.volume = s.volume

/-- How a run ends that has a report, from the machine `u` on which its files are written. -/
structure Written (o : LintOptions) (r : Report) (u : Machine) (code : Nat) (t : Machine) :
    Prop where
  /-- Nothing is printed any more. -/
  printed : t.printed = u.printed
  /-- The report could not be written. -/
  reportFails : ∀ f v, (writeReport o r).on u = (.error f, v) →
    Fails v code t ∧ ∀ q, o.markdown = some q → Keeps u t q
  /-- The report could be written, and its Markdown could not. -/
  markdownFails : ∀ v f w, (writeReport o r).on u = (.ok (), v) →
    (writeMarkdown o r).on v = (.error f, w) →
    Fails w code t ∧ ∀ p, o.report = some p → Holds t p r
  /-- Both could be written: the exit code is that of the verdict, the report is in its file,
  and its Markdown is what is shown of that file on any machine with these files. -/
  allWritten : ∀ v w, (writeReport o r).on u = (.ok (), v) →
    (writeMarkdown o r).on v = (.ok (), w) →
    t = w ∧
    code = (match r.outcome.verdict with
      | .pass => 0
      | .fail => 1
      | .noAdoption => 2) ∧
    (∀ p, o.report = some p → Holds t p r) ∧
    (∀ q, o.markdown = some q →
      t.volume.read t.here q = .ok (Text.encode (Render.markdown r.outcome))) ∧
    ∀ p q, o.report = some p → o.markdown = some q →
      ∀ m : Machine, m.volume = t.volume → m.here = t.here →
        m.denials.lookup (.read p) = none →
        ∃ shown, (run (markdownWords p) : StateM Machine Nat).run m =
            (0, { m with printed := m.printed ++ shown }) ∧
          t.volume.read t.here q = .ok (Text.encode shown)

section Ends

variable {o : LintOptions} {r : Report} {u v w : Machine}

theorem printed_writeReport {result : Except Failure Unit}
    (h : (writeReport o r).on u = (result, v)) : v.printed = u.printed ∧ v.here = u.here := by
  have hframed := framed_writeAsked "write report json" "report" o.report r.file u
  rw [← writeReport, h] at hframed
  have hsame : v = { u with volume := v.volume } := hframed.same
  rw [hsame]
  exact ⟨rfl, rfl⟩

theorem printed_writeMarkdown {result : Except Failure Unit}
    (h : (writeMarkdown o r).on v = (result, w)) : w.printed = v.printed := by
  have hframed := framed_writeAsked "write markdown" "text" o.markdown
    (Render.markdown r.outcome) v
  rw [← writeMarkdown, h] at hframed
  have hsame : w = { v with volume := w.volume } := hframed.same
  rw [hsame]

theorem written_of_report_error {f : Failure} (hapart : Apart u o)
    (h : (writeReport o r).on u = (.error f, v)) :
    Written o r u 1 { v with told := v.told ++ lintFailure f } := by
  refine ⟨(printed_writeReport h).1, fun g v' h' => ?_, fun v' g w h' => ?_, fun v' w h' => ?_⟩
  · rw [h] at h'
    cases h'
    refine ⟨fails_lint f v, fun q hq => ?_⟩
    have hkeeps := keeps_writeReport hapart r hq
    rw [h] at hkeeps
    exact hkeeps
  · rw [h] at h'
    cases h'
  · rw [h] at h'
    cases h'

theorem written_of_markdown_error {f : Failure} (hr : r.Storable) (hapart : Apart v o)
    (h : (writeReport o r).on u = (.ok (), v)) (hm : (writeMarkdown o r).on v = (.error f, w)) :
    Written o r u 1 { w with told := w.told ++ lintFailure f } := by
  have hprinted := (printed_writeMarkdown hm).trans (printed_writeReport h).1
  refine ⟨hprinted, fun g v' h' => ?_, fun v' g w' h' hm' => ?_, fun v' w' h' hm' => ?_⟩
  · rw [h] at h'
    cases h'
  · rw [h] at h'
    cases h'
    rw [hm] at hm'
    cases hm'
    refine ⟨fails_lint f w, fun p hp => ?_⟩
    have hholds := holds_writeMarkdown hapart hp (holds_writeReport hr h hp)
    rw [hm] at hholds
    exact hholds
  · rw [h] at h'
    cases h'
    rw [hm] at hm'
    cases hm'

theorem written_of_ok (hr : r.Storable) (hapart : Apart v o)
    (h : (writeReport o r).on u = (.ok (), v)) (hm : (writeMarkdown o r).on v = (.ok (), w)) :
    Written o r u r.outcome.verdict.exitCode w := by
  have hprinted := (printed_writeMarkdown hm).trans (printed_writeReport h).1
  refine ⟨hprinted, fun g v' h' => ?_, fun v' g w' h' hm' => ?_, fun v' w' h' hm' => ?_⟩
  · rw [h] at h'
    cases h'
  · rw [h] at h'
    cases h'
    rw [hm] at hm'
    cases hm'
  · rw [h] at h'
    cases h'
    rw [hm] at hm'
    cases hm'
    have hholds : ∀ p, o.report = some p → Holds w p r := by
      intro p hp
      have hkept := holds_writeMarkdown hapart hp (holds_writeReport hr h hp)
      rw [hm] at hkept
      exact hkept
    have htext : ∀ q, o.markdown = some q →
        w.volume.read w.here q = .ok (Text.encode (Render.markdown r.outcome)) := by
      intro q hq
      rw [writeMarkdown, hq] at hm
      exact read_of_writeAsked hm
    refine ⟨rfl, ?_, hholds, htext, fun p q hp hq m hvolume hhere hopen => ?_⟩
    · cases r.outcome.verdict
      · rfl
      · rfl
      · rfl
    · have hshown : Holds m p r := by
        rw [Holds, hvolume, hhere]
        exact hholds p hp
      exact ⟨_, run_markdown hshown hopen, htext q hq⟩

/-- Whichever way a run ends that has a report. -/
theorem written_lint {s : Machine} (hr : r.Storable) (hapart : Apart u o)
    (hlint : (lint o : Act (StateM Machine) Nat).on s =
      (do
        writeReport o r
        writeMarkdown o r
        pure r.outcome.verdict.exitCode : Act (StateM Machine) Nat).on u) :
    Written o r u ((perform (.lint o) : StateM Machine Nat).run s).1
      ((perform (.lint o) : StateM Machine Nat).run s).2 := by
  cases hreport : (writeReport o r).on u with
  | mk result v =>
    cases result with
    | error f =>
      rw [Act.on_bind_error u hreport] at hlint
      rw [perform, run_exitCode_error hlint]
      exact written_of_report_error hapart hreport
    | ok x =>
      rw [Act.on_bind_ok u hreport] at hlint
      have hapart' : Apart v o := by
        rw [Apart, (printed_writeReport hreport).2]
        exact hapart
      cases hmarkdown : (writeMarkdown o r).on v with
      | mk result w =>
        cases result with
        | error f =>
          rw [Act.on_bind_error v hmarkdown] at hlint
          rw [perform, run_exitCode_error hlint]
          exact written_of_markdown_error hr hapart' hreport hmarkdown
        | ok x =>
          rw [Act.on_bind_ok v hmarkdown] at hlint
          rw [perform, run_exitCode_ok hlint]
          exact written_of_ok hr hapart' hreport hmarkdown

end Ends

/-- A command line that asks for linting ends in one of four ways.  If the policy is no text
that is accepted, or the text cannot be read, then there is a failure and nothing else.
Otherwise a report is printed, and how the run ends is decided by its files. -/
theorem run_lint_outcome {ws : List String} {o : LintOptions} {s : Machine}
    (hws : Request.ofWords ws = .ok (.lint o)) (hapart : Apart s o) :
    (usable? s o = none →
      Unread s ((run ws : StateM Machine Nat).run s).1 ((run ws : StateM Machine Nat).run s).2) ∧
    ∀ i p, usable? s o = some (i, p) → ∃ startedAt finishedAt r u,
      Report.run i Report.thisTool startedAt finishedAt = .ok (p, r) ∧ Printed s r u ∧
      Written o r u ((run ws : StateM Machine Nat).run s).1
        ((run ws : StateM Machine Nat).run s).2 := by
  have hrun : (run ws : StateM Machine Nat) = perform (.lint o) := by
    rw [run, hws]
  rw [hrun]
  constructor
  · intro h
    obtain ⟨f, t, hlint, hvolume, hprinted, htold⟩ := lint_unusable h
    rw [perform, run_exitCode_error hlint]
    refine ⟨rfl, hprinted, ⟨f.line, ?_⟩, hvolume⟩
    show t.told ++ lintFailure f = _
    rw [htold]
    rfl
  · intro i p h
    obtain ⟨startedAt, finishedAt, r, u, hreport, hprinted, hlint⟩ := lint_usable h
    have hapart' : Apart u o := by
      rw [Apart, hprinted.same]
      exact hapart
    exact ⟨startedAt, finishedAt, r, u, hreport, hprinted,
      written_lint (Report.storable_of_run hreport) hapart' hlint⟩

/-- Words that ask for both files, in a directory that is still missing. -/
def keptWords : List String :=
  ["--icemap", "p.json", "--report-out", "out/r.json", "--markdown-out=out/m.md"]

def keptOptions : LintOptions := ⟨"p.json", none, false, some "out/r.json", some "out/m.md"⟩

/-- A machine with a policy and an input that passes. -/
def keptMachine : Machine where
  volume := ⟨[(["p.json"],
    .file (Text.encode "\x7b\"icemap_id\":\"i\",\"loads\":\x7b\x7d\x7d"))]⟩
  input := Text.encode "~ICEMAP:i"

theorem apart_kept : Apart keptMachine keptOptions := by
  intro p q hp hq
  cases hp
  cases hq
  decide +kernel

/-- There the run passes, and everything is written. -/
theorem run_lint_outcome_kept :
    Request.ofWords keptWords = .ok (.lint keptOptions) ∧ Apart keptMachine keptOptions ∧
    ∃ i p startedAt finishedAt r u, usable? keptMachine keptOptions = some (i, p) ∧
      Report.run i Report.thisTool startedAt finishedAt = .ok (p, r) ∧
      Printed keptMachine r u ∧
      Written keptOptions r u 0 ((run keptWords : StateM Machine Nat).run keptMachine).2 := by
  have hws : Request.ofWords keptWords = .ok (.lint keptOptions) := by decide +kernel
  have hsome : (usable? keptMachine keptOptions).isSome = true := by decide +kernel
  have hcode : ((run keptWords : StateM Machine Nat).run keptMachine).1 = 0 := by
    decide +kernel
  obtain ⟨⟨i, p⟩, husable⟩ := Option.isSome_iff_exists.1 hsome
  obtain ⟨startedAt, finishedAt, r, u, hreport, hprinted, hwritten⟩ :=
    (run_lint_outcome hws apart_kept).2 i p husable
  rw [hcode] at hwritten
  exact ⟨hws, apart_kept, i, p, startedAt, finishedAt, r, u, husable, hreport, hprinted,
    hwritten⟩

end Command
end GlyphLine
