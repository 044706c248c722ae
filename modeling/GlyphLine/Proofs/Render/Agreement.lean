import GlyphLine.Proofs.Lint.Adoption
import GlyphLine.Proofs.Render.Annotations
import GlyphLine.Proofs.Render.Lines
import GlyphLine.Report.Run

/-!
# All that is shown of a run agrees

The exit code, the console, the annotations and the Markdown text are made separately.  Each
looks at the verdict or at whether there are findings, and they could contradict each other
on an outcome that fails without findings or passes with some.  Linting has no such outcome.

What each of them has to show is said in its own words here, and not in those of the renderers:
an annotation by the command that a build service reads, an item of a list by the text that a
reader of Markdown sees.  A renderer that left something out would not show what is asked for.

* `Listing`: the lines that list findings in Markdown.
* `ShownPass`, `ShownFail`, `ShownUnadopted`: what a run shows, in three cases.
* `not_endsWith_noFindings`: no list of findings looks like the lack of findings.
* `outputs_agree`: every run shows exactly one of the three.
-/

namespace GlyphLine
namespace Render

open Lint

variable {o : Outcome} {max : Nat}

/-! ## What is shown -/

/-- A text ends with another one. -/
def EndsWith (s ending : String) : Prop := ∃ front, s = front ++ ending

/-- What is shown of a text in which nothing is wrong. -/
structure ShownPass (o : Outcome) (max : Nat) : Prop where
  findings : o.findings = []
  exitCode : o.verdict.exitCode = 0
  console : console o = "glyphlint: PASS\n"
  annotations : annotations o max = []
  markdown : EndsWith (markdown o) "\nNo findings.\n"

/-- What is said of a finding in one text. -/
def told (g : Finding) : String := "[" ++ g.checkId ++ ":" ++ g.code ++ "] " ++ g.message

/-- The lines of a list in Markdown that holds findings in their order: an item for each, with
its identifiers as code and its message as a reader sees it, and its help below, if it has one. -/
inductive Listing : List Finding → List String → Prop
  | nil : Listing [] []
  | bare {g : Finding} {gs : List Finding} {ls : List String} {message : String}
      (hmessage : ReadAs message g.message) (hhelp : g.help = none) (hrest : Listing gs ls) :
      Listing (g :: gs) (("- `" ++ g.checkId ++ "` / `" ++ g.code ++ "`: " ++ message) :: ls)
  | helped {g : Finding} {gs : List Finding} {ls : List String} {message advice help : String}
      (hmessage : ReadAs message g.message) (hhelp : g.help = some advice)
      (hadvice : ReadAs help advice) (hrest : Listing gs ls) :
      Listing (g :: gs) (("- `" ++ g.checkId ++ "` / `" ++ g.code ++ "`: " ++ message) ::
        ("  - help: " ++ help) :: ls)

/-- What is shown of a text in which something is wrong: all findings in their order, but
only the first annotations. -/
structure ShownFail (o : Outcome) (max : Nat) : Prop where
  findings : o.findings ≠ []
  exitCode : o.verdict.exitCode = 1
  console : console o =
    "glyphlint: FAIL\n" ++ Text.lines (o.findings.map fun g => "- " ++ g.message)
  count : (annotations o max).length = min max o.findings.length
  annotations : annotations o max = (o.findings.take max).map fun g =>
    "::error title=glyphlint::" ++ String.ofList (escapedInTurn (told g).toList)
  readBack : (Render.annotations o max).map readCommand = (o.findings.take max).map (some <| told ·)
  listed : ∃ ls, Listing o.findings ls ∧
    EndsWith (markdown o) ("\n## Findings\n\n" ++ Text.lines ls)
  notClean : ¬ EndsWith (markdown o) "No findings.\n"

/-- What is shown of a text without tokens that must have some. -/
structure ShownUnadopted (o : Outcome) (max : Nat) : Prop where
  findings : o.findings = []
  required : o.summary.adoptionRequired = true
  scanned : o.summary.scanned = 0
  exitCode : o.verdict.exitCode = 2
  console : console o = "glyphlint: FAIL (no ~tokens found; add a GlyphLine)\n"
  annotations : annotations o max =
    ["::error title=glyphlint::no ~tokens found; add a GlyphLine"]
  markdown : EndsWith (markdown o)
    "\n> No `~` tokens found and adoption is required. Add a GlyphLine.\n"

/-- What is shown by a verdict. -/
def Shown (o : Outcome) (max : Nat) : Verdict → Prop
  | .pass => ShownPass o max
  | .fail => ShownFail o max
  | .noAdoption => ShownUnadopted o max

theorem Shown.exitCode {v : Verdict} (h : Shown o max v) : o.verdict.exitCode = v.exitCode := by
  cases v with
  | pass => exact ShownPass.exitCode h
  | fail => exact ShownFail.exitCode h
  | noAdoption => exact ShownUnadopted.exitCode h

theorem exitCode_injective {v w : Verdict} (h : v.exitCode = w.exitCode) : v = w := by
  revert h
  cases v <;> cases w <;> decide

/-! ## How the Markdown text ends -/

theorem EndsWith.trans {s t u : String} (h : EndsWith s t) (h' : EndsWith t u) : EndsWith s u := by
  obtain ⟨a, rfl⟩ := h
  obtain ⟨b, rfl⟩ := h'
  exact ⟨a ++ b, String.append_assoc.symm⟩

theorem endsWith_iff {s e : String} : EndsWith s e ↔ e.toList <:+ s.toList := by
  constructor
  · rintro ⟨front, rfl⟩
    exact ⟨front.toList, String.toList_append.symm⟩
  · rintro ⟨front, h⟩
    refine ⟨String.ofList front, String.toList_inj.mp ?_⟩
    rw [String.toList_append, String.toList_ofList, h]

theorem endsWith_lines (ss ts : List String) : EndsWith (Text.lines (ss ++ ts)) (Text.lines ts) :=
  ⟨Text.lines ss, Text.lines_append ss ts⟩

/-- Behind the facts there is an empty line, and then the result. -/
theorem endsWith_result (o : Outcome) :
    EndsWith (markdown o) ("\n" ++ Text.lines (resultLines o)) := by
  have hlines : "\n" ++ Text.lines (resultLines o) = Text.lines ([""] ++ resultLines o) := by
    rw [Text.lines_append, Text.lines_singleton]
    rfl
  rw [hlines, markdown, List.append_assoc]
  exact endsWith_lines _ _

/-- Two endings of a text of which neither is an ending of the other exclude each other. -/
theorem EndsWith.not_endsWith {s e e' : String} (h : EndsWith s e) (hne : ¬ e.toList <:+ e'.toList)
    (hne' : ¬ e'.toList <:+ e.toList) : ¬ EndsWith s e' := by
  intro h'
  rcases List.suffix_or_suffix_of_suffix (endsWith_iff.mp h) (endsWith_iff.mp h') with hs | hs
  · exact hne hs
  · exact hne' hs

/-- The lines of findings list them. -/
theorem listing_findingLines (gs : List Finding) : Listing gs (gs.flatMap findingLines) := by
  induction gs with
  | nil => exact .nil
  | cons g gs ih =>
    rw [List.flatMap_cons, findingLines]
    cases hhelp : g.help with
    | none => exact .bare (readAs_escaped _) hhelp ih
    | some advice => exact .helped (readAs_escaped _) hhelp (readAs_escaped _) ih

/-- The line of the advice that goes with a code. -/
def adviceLine (c : Code) : String := "  - help: " ++ escaped (Violation.advice c)

/-- The lines of a violation end with an advice. -/
theorem findingLines_finding (v : Violation) :
    findingLines v.finding =
      ["- `" ++ v.finding.checkId ++ "` / `" ++ v.finding.code ++ "`: " ++ escaped v.message,
        adviceLine v.code] := by rfl

theorem toList_adviceLine {c : Code} {cs : List Char} (h : Violation.advice c = String.ofList cs) :
    (adviceLine c ++ "\n").toList =
      [' ', ' ', '-', ' ', 'h', 'e', 'l', 'p', ':', ' '] ++ cs.flatMap escapedChar ++ ['\n'] := by
  rw [adviceLine, escaped, h, String.toList_append, String.toList_append, String.toList_ofList,
    String.toList_ofList, String.toList_ofList]
  rfl

/-- An advice and the lack of findings are no endings of each other. -/
theorem adviceLine_ne (c : Code) :
    ¬ (adviceLine c ++ "\n").toList <:+ "No findings.\n".toList ∧
      ¬ "No findings.\n".toList <:+ (adviceLine c ++ "\n").toList := by
  -- both are compared as characters, which the kernel does not have to decode
  cases c <;>
    rw [toList_adviceLine rfl, show "No findings.\n".toList = _ from String.toList_ofList] <;>
    decide +kernel

/-- A list of findings ends with an advice, and so not as if there were none. -/
theorem not_endsWith_noFindings {vs : List Violation} (hne : vs ≠ []) {s : String}
    (h : EndsWith s (Text.lines ((vs.map Violation.finding).flatMap findingLines))) :
    ¬ EndsWith s "No findings.\n" := by
  obtain ⟨us, v, rfl⟩ : ∃ us v, vs = us ++ [v] :=
    ⟨vs.dropLast, vs.getLast hne, (List.dropLast_append_getLast hne).symm⟩
  have hlast : EndsWith s (adviceLine v.code ++ "\n") := by
    refine h.trans ?_
    rw [List.map_append, List.flatMap_append, List.map_singleton, List.flatMap_singleton,
      findingLines_finding, ← Text.lines_singleton, ← List.singleton_append, ← List.append_assoc]
    exact endsWith_lines _ _
  exact hlast.not_endsWith (adviceLine_ne v.code).1 (adviceLine_ne v.code).2

/-! ## The three cases -/

theorem shownPass (hverdict : o.verdict = .pass) (hfindings : o.findings = []) (max : Nat) :
    ShownPass o max where
  findings := hfindings
  exitCode := by rw [hverdict]; rfl
  console := by rw [console, consoleLines, hverdict]; rfl
  annotations := by rw [annotations, hverdict, hfindings, List.take_nil]; rfl
  markdown := by
    have hresult : resultLines o = ["No findings."] := by
      rw [resultLines, hverdict, hfindings]; rfl
    have h := endsWith_result o
    rwa [hresult] at h

theorem shownFail {vs : List Violation} (hverdict : o.verdict = .fail)
    (hfindings : o.findings = vs.map Violation.finding) (hne : vs ≠ []) (max : Nat) :
    ShownFail o max := by
  have hlines : annotations o max = (o.findings.take max).map (commandLine <| told ·) := by
    rw [annotations_eq, announced, hverdict, if_neg (by decide), ← List.map_take, List.map_map]
    rfl
  have hsome : o.findings ≠ [] := by
    rw [hfindings]
    exact mt List.map_eq_nil_iff.mp hne
  have hresult : Text.lines (resultLines o) =
      "## Findings\n\n" ++ Text.lines (o.findings.flatMap findingLines) := by
    rw [resultLines_of_fail hverdict hsome]
    exact Text.lines_append ["## Findings", ""] _
  have hlisted : EndsWith (markdown o)
      ("\n## Findings\n\n" ++ Text.lines (o.findings.flatMap findingLines)) := by
    have h := endsWith_result o
    rwa [hresult, ← String.append_assoc] at h
  exact {
    findings := hsome
    exitCode := by rw [hverdict]; rfl
    console := by
      rw [console, consoleLines, hverdict]
      exact Text.lines_append ["glyphlint: FAIL"] _
    count := by rw [hlines, List.length_map, List.length_take]
    annotations := hlines
    readBack := by
      rw [hlines, List.map_map]
      refine List.map_congr_left fun g _ => ?_
      rw [Function.comp_apply, readCommand_commandLine]
    listed := ⟨_, listing_findingLines o.findings, hlisted⟩
    notClean := not_endsWith_noFindings hne (hfindings ▸ hlisted.trans ⟨_, rfl⟩) }

theorem shownUnadopted (hverdict : o.verdict = .noAdoption) (hfindings : o.findings = [])
    (hrequired : o.summary.adoptionRequired = true) (hscanned : o.summary.scanned = 0)
    (hmax : 1 ≤ max) : ShownUnadopted o max where
  findings := hfindings
  required := hrequired
  scanned := hscanned
  exitCode := by rw [hverdict]; rfl
  console := by rw [console, consoleLines, hverdict]; rfl
  annotations := by rw [annotations, if_pos hverdict]; exact List.take_of_length_le hmax
  markdown := by
    have hresult : resultLines o =
        ["> No `~` tokens found and adoption is required. Add a GlyphLine."] := by
      rw [resultLines, if_pos hverdict]
    have h := endsWith_result o
    rwa [hresult] at h

/-- An outcome of linting is shown by its verdict. -/
theorem shown_lint (text : String) (p : Policy) (required : Bool) (hmax : 1 ≤ max) :
    Shown (lint text p required) max (lint text p required).verdict := by
  have hfound : (lint text p required).findings = _ := findings_eq (.ofText text) p required
  have hnone (h : (lint text p required).verdict ≠ .fail) : (lint text p required).findings = [] :=
    findings_eq_nil_of_ne_fail h
  cases hverdict : (lint text p required).verdict with
  | pass => exact shownPass hverdict (hnone (hverdict ▸ Verdict.noConfusion)) max
  | fail =>
    refine shownFail hverdict hfound (fun hnil => ?_) max
    -- without a violation the verdict is one of the other two
    have hverdict' : (lintTokens (.ofText text) p required).verdict = .fail := hverdict
    cases hu : isUnadopted (.ofText text) required with
    | true => rw [lintTokens_of_unadopted hu] at hverdict'; cases hverdict'
    | false => rw [lintTokens_of_adopted hu, hnil] at hverdict'; cases hverdict'
  | noAdoption =>
    have hunadopted := verdict_eq_noAdoption_iff.mp hverdict
    obtain ⟨hrequired, hempty⟩ := Bool.and_eq_true_iff.mp hunadopted
    have hsummary : (lint text p required).summary = _ :=
      summary_lintTokens_eq (.ofText text) p required
    refine shownUnadopted hverdict (hnone (hverdict ▸ Verdict.noConfusion)) ?_ ?_ hmax
    · rw [hsummary]; exact hrequired
    · have ht : TokenSet.ofText text = ⟨[]⟩ :=
        congrArg TokenSet.mk (TokenSet.isEmpty_iff.mp hempty)
      rw [hsummary, ht]
      rfl

/-- Of the report that is built for a text and a policy, whatever they are, the exit code, the
console, the annotations and the Markdown text show one of three things: that nothing is
wrong, that something is wrong, or that there are no tokens though there must be some.  They
all show the same one. -/
theorem outputs_agree (tool : Tool) (startedAt finishedAt : Timestamp) (text : String)
    (p : Policy) (required : Bool) (hmax : 1 ≤ max) :
    let r : Report := ⟨tool, startedAt, finishedAt, lint text p required⟩
    (∀ (policyText : String) (form : Policy.Notation), Policy.load policyText form = .ok p →
        Report.run ⟨policyText, form, text, required⟩ tool startedAt finishedAt = .ok (p, r)) ∧
      r.outcome.summary.adoptionRequired = required ∧ ∃! v, Shown r.outcome max v := by
  intro r
  refine ⟨fun policyText form hload => ?_, ?_, r.outcome.verdict, ?_, fun v hv => ?_⟩
  · rw [Report.run, hload]
    rfl
  · show (lintTokens (.ofText text) p required).summary.adoptionRequired = required
    rw [summary_lintTokens_eq]
    rfl
  · exact shown_lint text p required hmax
  · exact (exitCode_injective hv.exitCode).symm

/-- A text with two findings, of which one is annotated. -/
theorem outputs_agree_freeze :
    let text := "~P3 ~PASS ~ICE-"
    let r : Report := ⟨Report.thisTool, .epoch, .epoch, lint text {} true⟩
    1 ≤ 1 ∧ Policy.load "\x7b\x7d" .json = .ok {} ∧
      Report.run ⟨"\x7b\x7d", .json, text, true⟩ Report.thisTool .epoch .epoch = .ok ({}, r) ∧
      (∃! v, Shown r.outcome 1 v) ∧ ShownFail r.outcome 1 ∧ r.outcome.findings.length = 2 := by
  intro text r
  have hone : 1 ≤ 1 := Nat.le_refl 1
  have hload : Policy.load "\x7b\x7d" .json = .ok {} := by rfl
  have hfail : r.outcome.verdict = .fail := by decide +kernel
  obtain ⟨hrun, -, v, hv, hunique⟩ :=
    outputs_agree Report.thisTool .epoch .epoch text {} true hone
  obtain rfl : r.outcome.verdict = v := exitCode_injective hv.exitCode
  refine ⟨hone, hload, hrun _ _ hload, ⟨_, hv, hunique⟩, ?_, by decide +kernel⟩
  rwa [hfail] at hv

end Render
end GlyphLine
