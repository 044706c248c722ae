import GlyphLine.Proofs.Explain.Registered

/-!
# Runs are the same but for their times

What a run reports depends on its input alone, except for the times at which it began and ended
and the version of the tool.  These stand in three places of the report's file, and masking
puts fixed texts there.

Masking goes into every value, the data of findings included.  These are objects of a few
fixed forms, none of which has a member with the name of a time; what a text or a policy says
comes into them as strings only, never as a name.  So masking gets at nothing else in a report
of a run.

## Main definitions

* `Untimed`: the members that masking leaves as they are.
* `fileValue`: the value in the file of a report, with any texts in the three places.

## Main statements

* `sorted_toJson_eq_fileValue`: what stands in the three places of a report.
* `mask_fileValue`: masking changes the three places and nothing else.
* `masked_runs_agree`: two runs on one input.
-/

namespace GlyphLine
namespace Report

open Lint Json

/-! ## Members without times -/

/-- A member that masking leaves as it is: it is no time, and no time is in its value. -/
structure Untimed (m : String × Json) : Prop where
  key : isTimeKey m.1 = false
  value : maskTimes m.2 = m.2

theorem maskMembers_eq_self {ms : List (String × Json)} (h : ∀ m ∈ ms, Untimed m) :
    maskMembers ms = ms := by
  induction ms with
  | nil => rfl
  | cons m ms ih =>
    obtain ⟨k, v⟩ := m
    obtain ⟨hkey, hvalue⟩ := h (k, v) List.mem_cons_self
    rw [maskMembers, ih fun m hm => h m (List.mem_cons_of_mem _ hm), hvalue, hkey,
      if_neg Bool.false_ne_true]

theorem maskTimes_object {ms : List (String × Json)} (h : ∀ m ∈ ms, Untimed m) :
    maskTimes (.object ms) = .object ms := by
  rw [maskTimes, maskMembers_eq_self h]

theorem maskTimes_array {vs : List Json} (h : ∀ v ∈ vs, maskTimes v = v) :
    maskTimes (.array vs) = .array vs := by
  rw [maskTimes, maskItems_eq_map, List.map_congr_left h, List.map_id']

theorem untimed_string {key : String} (h : isTimeKey key = false) (s : String) :
    Untimed (key, .string s) := ⟨h, rfl⟩

theorem untimed_member? {name : String} (h : isTimeKey name = false) (s : Option String) :
    ∀ m ∈ member? name s, Untimed m := by
  intro m hm
  cases s with
  | none => exact absurd hm List.not_mem_nil
  | some s => exact List.mem_singleton.1 hm ▸ untimed_string h s

/-! ## Findings and summaries -/

theorem maskTimes_plain {v : Json} (h : IsPlain v) : maskTimes v = v := by
  cases h with
  | string s => rfl
  | strings ss =>
    refine maskTimes_array fun v hv => ?_
    obtain ⟨s, -, rfl⟩ := List.mem_map.1 hv
    rfl

/-- No member of a violation's data has the name of a time. -/
theorem isTimeKey_of_mem_data {v : Violation} {ms : List (String × Json)}
    (h : v.data = .object ms) : ∀ m ∈ ms, isTimeKey m.1 = false := by
  cases v <;> cases h
  all_goals
    simp only [List.forall_mem_cons, List.not_mem_nil, false_implies, implies_true, and_true]
    decide

/-- There are no times in the data of a violation, whatever names and texts are in them. -/
theorem maskTimes_data (v : Violation) : maskTimes v.data = v.data := by
  obtain ⟨ms, hdata, -, hplain⟩ := v.data_eq_object
  rw [hdata]
  exact maskTimes_object fun m hm =>
    ⟨isTimeKey_of_mem_data hdata m hm, maskTimes_plain (hplain m hm)⟩

theorem maskTimes_findingJson {f : Finding} (ho : f.data.Ordered)
    (hd : maskTimes f.data = f.data) :
    maskTimes (findingJson f).sorted = (findingJson f).sorted := by
  have hdata : ∀ m ∈ dataMember f.data, Untimed m := by
    intro m hm
    rw [dataMember] at hm
    split at hm
    · exact absurd hm List.not_mem_nil
    · exact List.mem_singleton.1 hm ▸ ⟨rfl, hd⟩
  rw [sorted_findingJson ho]
  refine maskTimes_object ?_
  simp only [List.forall_mem_cons, List.forall_mem_append, List.not_mem_nil, false_implies,
    implies_true, and_true]
  exact ⟨untimed_string (by decide) _, untimed_string (by decide) _, hdata,
    untimed_member? (by decide) _, untimed_member? (by decide) _, untimed_string (by decide) _⟩

theorem maskTimes_summaryJson (s : Summary) :
    maskTimes (summaryJson s).sorted = (summaryJson s).sorted := by
  have hcount (key : String) (h : isTimeKey key = false) (n : Nat) :
      Untimed (key, Json.ofNat n) := ⟨h, rfl⟩
  rw [sorted_summaryJson]
  refine maskTimes_object ?_
  simp only [List.forall_mem_cons, List.forall_mem_append, List.not_mem_nil, false_implies,
    implies_true, and_true]
  exact ⟨hcount _ (by decide) _, untimed_string (by decide) _, untimed_member? (by decide) _,
    untimed_member? (by decide) _, untimed_member? (by decide) _, ⟨rfl, rfl⟩,
    hcount _ (by decide) _, hcount _ (by decide) _, hcount _ (by decide) _⟩

/-- There are no times in the findings of an outcome of linting. -/
theorem maskTimes_findings {text : String} {p : Policy} {adoptionRequired : Bool} {f : Finding}
    (hf : f ∈ (lint text p adoptionRequired).findings) : maskTimes f.data = f.data := by
  rw [lint, lintTokens] at hf
  split at hf
  · exact absurd hf List.not_mem_nil
  · obtain ⟨v, -, rfl⟩ := List.mem_map.1 hf
    exact maskTimes_data v

/-! ## Reports -/

/-- The value in the file of a report, with the given texts for the version of its tool and for
its times. -/
def fileValue (o : Outcome) (tool version startedAt finishedAt : String) : Json := .object [
  ("data", (summaryJson o.summary).sorted),
  ("findings", .array (o.findings.map fun f => (findingJson f).sorted)),
  ("finished_at", .string finishedAt),
  ("schema", .string reportSchema),
  ("started_at", .string startedAt),
  ("tool", .object [("name", .string tool), ("version", .string version)]),
  ("verdict", .string o.verdict.name)]

theorem sorted_toJson_eq_fileValue (r : Report) :
    r.toJson.sorted =
      fileValue r.outcome r.tool.name r.tool.version r.startedAt.text r.finishedAt.text :=
  sorted_toJson r

/-- The value of a report is in its file. -/
theorem parse_file_eq_fileValue {r : Report} (h : r.Storable) :
    Json.parse r.file = .ok
      (fileValue r.outcome r.tool.name r.tool.version r.startedAt.text r.finishedAt.text) := by
  rw [← sorted_toJson_eq_fileValue]
  exact parse_file (nested_toJson h) (isWord_toJson h)

/-- Masking puts fixed texts into the three places and leaves everything else, if there are no
times in the data of the findings. -/
theorem mask_fileValue {o : Outcome}
    (h : ∀ f ∈ o.findings, f.data.Ordered ∧ maskTimes f.data = f.data)
    (tool version startedAt finishedAt : String) :
    mask (fileValue o tool version startedAt finishedAt) =
      fileValue o tool versionMask timeMask timeMask := by
  have htool : maskTool (fileValue o tool version startedAt finishedAt) =
      fileValue o tool versionMask startedAt finishedAt := rfl
  have hfindings : maskTimes (.array (o.findings.map fun f => (findingJson f).sorted)) =
      .array (o.findings.map fun f => (findingJson f).sorted) := by
    refine maskTimes_array fun v hv => ?_
    obtain ⟨f, hf, rfl⟩ := List.mem_map.1 hv
    exact maskTimes_findingJson (h f hf).1 (h f hf).2
  rw [mask, htool]
  show Json.object [
    ("data", maskTimes (summaryJson o.summary).sorted),
    ("findings", maskTimes (.array (o.findings.map fun f => (findingJson f).sorted))),
    ("finished_at", .string timeMask),
    ("schema", .string reportSchema),
    ("started_at", .string timeMask),
    ("tool", .object [("name", .string tool), ("version", .string versionMask)]),
    ("verdict", .string o.verdict.name)] = _
  rw [hfindings, maskTimes_summaryJson]
  rfl

/-! ## Runs -/

/-- Masking changes the three places of a run's report and nothing else. -/
theorem mask_fileValue_of_run {i : Input} {tool : Tool} {startedAt finishedAt : Timestamp}
    {p : Policy} {r : Report} (h : run i tool startedAt finishedAt = .ok (p, r))
    (name version first last : String) :
    mask (fileValue r.outcome name version first last) =
      fileValue r.outcome name versionMask timeMask timeMask := by
  have hr := storable_of_run h
  obtain ⟨q, -, heq⟩ := map_eq_ok_iff.1 h
  cases heq
  exact mask_fileValue (fun f hf => ⟨(hr.findings f hf).ordered, maskTimes_findings hf⟩) ..

/-- A run fails for its input, or it gives the outcome of its input. -/
theorem run_cases (i : Input) :
    (∃ e, ∀ (tool : Tool) (startedAt finishedAt : Timestamp),
      run i tool startedAt finishedAt = .error e) ∨
    (∃ p o, ∀ (tool : Tool) (startedAt finishedAt : Timestamp),
      run i tool startedAt finishedAt = .ok (p, ⟨tool, startedAt, finishedAt, o⟩)) := by
  cases hload : Policy.load i.policyText i.form with
  | error e =>
    refine .inl ⟨e, fun tool startedAt finishedAt => ?_⟩
    rw [run, hload]
    rfl
  | ok p =>
    refine .inr ⟨p, Lint.lint i.text p i.adoptionRequired, fun tool startedAt finishedAt => ?_⟩
    rw [run, hload]
    rfl

/-- **Runs are the same but for their times.**  Two runs on one input by two versions of the tool,
at whatever times, fail for the same reason, or the values in the files of their reports become
equal when they are masked.  In the report of a run masking changes the two times and the version
of the tool, and leaves the verdict, every finding with its data, and the summary. -/
theorem masked_runs_agree :
    (∀ (i : Input) (name version version' : String)
        (startedAt finishedAt startedAt' finishedAt' : Timestamp),
      (∃ e, run i ⟨name, version⟩ startedAt finishedAt = .error e ∧
        run i ⟨name, version'⟩ startedAt' finishedAt' = .error e) ∨
      (∃ p r r' v v', run i ⟨name, version⟩ startedAt finishedAt = .ok (p, r) ∧
        run i ⟨name, version'⟩ startedAt' finishedAt' = .ok (p, r') ∧
        Json.parse r.file = .ok v ∧ Json.parse r'.file = .ok v' ∧ mask v = mask v')) ∧
    (∀ (i : Input) (tool : Tool) (startedAt finishedAt : Timestamp) (p : Policy) (r : Report),
      run i tool startedAt finishedAt = .ok (p, r) →
        Json.parse r.file = .ok
          (fileValue r.outcome tool.name tool.version startedAt.text finishedAt.text) ∧
        mask (fileValue r.outcome tool.name tool.version startedAt.text finishedAt.text) =
          fileValue r.outcome tool.name versionMask timeMask timeMask) := by
  constructor
  · intro i name version version' startedAt finishedAt startedAt' finishedAt'
    rcases run_cases i with ⟨e, he⟩ | ⟨p, o, ho⟩
    · exact .inl ⟨e, he .., he ..⟩
    · refine .inr ⟨p, _, _, _, _, ho .., ho .., parse_file_eq_fileValue (storable_of_run (ho ..)),
        parse_file_eq_fileValue (storable_of_run (ho ..)), ?_⟩
      have hmask := mask_fileValue_of_run (ho ⟨name, version⟩ startedAt finishedAt)
      exact (hmask ..).trans (hmask ..).symm
  · intro i tool startedAt finishedAt p r h
    have hfile := parse_file_eq_fileValue (storable_of_run h)
    have hmask := mask_fileValue_of_run h tool.name tool.version startedAt.text finishedAt.text
    obtain ⟨q, -, heq⟩ := map_eq_ok_iff.1 h
    cases heq
    exact ⟨hfile, hmask⟩

end Report
end GlyphLine
