import GlyphLine.Proofs.Json.Shape
import GlyphLine.Report.Reader
import GlyphLine.Report.Run

/-!
# Reports that a file can hold

A report's file holds counts of thirty-two bits, and for every finding any data that a
JSON text can hold three levels further in.  A report that satisfies this is *storable*.

Every run makes storable reports: its counts are pinned to the greatest one, and the data
of its findings are objects of strings and lists of strings.  A report that has been read
from a file is storable as well if its data hold no doubles, since the reader admits no
other counts and no deeper nesting.

## Main definitions

* `Finding.Storable`, `Report.Storable`.

## Main statements

* `storable_of_run`: the report of a run.
* `storable_of_ofFile`: the report of a file.
-/

namespace GlyphLine

open Json

namespace Lint

/-- The data of a finding are as a file can hold them: whole numbers of sixty-four bits, at
most as many lists and objects inside each other as the reader enters behind the three
around a finding's data, and the members of objects in order. -/
structure Finding.Storable (f : Finding) : Prop where
  words : f.data.EachNumber Number.IsWord
  nested : f.data.Nested 124
  ordered : f.data.Ordered

/-- The counts of a summary are as a file can hold them. -/
structure Summary.Storable (s : Summary) : Prop where
  scanned : s.scanned ≤ countLimit
  unique : s.unique ≤ countLimit
  malformed : s.malformed ≤ countLimit
  findings : s.findings ≤ countLimit

/-! ## Runs -/

/-- A string, or a list of strings. -/
inductive IsPlain : Json → Prop
  | string (s : String) : IsPlain (.string s)
  | strings (ss : List String) : IsPlain (Json.strings ss)

/-- The data of a violation are an object of strings and lists of strings, whose members
are in order. -/
theorem Violation.data_eq_object (v : Violation) :
    ∃ ms, v.data = .object ms ∧ Increasing ms ∧ ∀ m ∈ ms, IsPlain m.2 := by
  cases v <;> refine ⟨_, rfl, ?_, ?_⟩
  all_goals
    simp only [Increasing, List.pairwise_cons, List.mem_cons, List.not_mem_nil, or_false,
      forall_eq_or_imp, forall_eq, IsEmpty.forall_iff, String.reduceLT, List.Pairwise.nil,
      implies_true, IsPlain.string, IsPlain.strings, and_self]

theorem IsPlain.eachNumber {P : Number → Prop} {v : Json} (h : IsPlain v) : v.EachNumber P := by
  cases h with
  | string s => exact .string
  | strings ss =>
    refine .array fun v hv => ?_
    obtain ⟨s, -, rfl⟩ := List.mem_map.1 hv
    exact .string

theorem IsPlain.nested {v : Json} (h : IsPlain v) : v.Nested 1 := by
  cases h with
  | string s => exact .string
  | strings ss =>
    refine .array fun v hv => ?_
    obtain ⟨s, -, rfl⟩ := List.mem_map.1 hv
    exact .string

theorem IsPlain.ordered {v : Json} (h : IsPlain v) : v.Ordered := by
  cases h with
  | string s => exact .string
  | strings ss =>
    refine .array fun v hv => ?_
    obtain ⟨s, -, rfl⟩ := List.mem_map.1 hv
    exact .string

/-- The finding of a violation can be held by a file. -/
theorem storable_finding (v : Violation) : v.finding.Storable := by
  obtain ⟨ms, hdata, hi, hplain⟩ := v.data_eq_object
  have heq : v.finding.data = .object ms := hdata
  refine ⟨?_, ?_, ?_⟩
  · rw [heq]
    exact .object fun m hm => (hplain m hm).eachNumber
  · rw [heq]
    exact .object fun m hm => (hplain m hm).nested.mono (by omega)
  · rw [heq]
    exact .object hi fun m hm => (hplain m hm).ordered

theorem pinned_le (n : Nat) : pinned n ≤ countLimit := Nat.min_le_right n countLimit

theorem storable_summary (t : TokenSet) (p : Policy) (adoptionRequired : Bool) (findings : Nat) :
    (summary t p adoptionRequired findings).Storable :=
  ⟨pinned_le _, pinned_le _, pinned_le _, pinned_le _⟩

end Lint

namespace Report

open Lint

/-- A report that a file can hold. -/
structure Storable (r : Report) : Prop where
  findings : ∀ f ∈ r.outcome.findings, f.Storable
  summary : r.outcome.summary.Storable

/-- Linting makes outcomes that a file can hold, for every text and every policy. -/
theorem storable_lint (text : String) (p : Policy) (adoptionRequired : Bool) :
    (∀ f ∈ (lint text p adoptionRequired).findings, f.Storable) ∧
      (lint text p adoptionRequired).summary.Storable := by
  rw [lint, lintTokens]
  split
  · exact ⟨fun f hf => absurd hf List.not_mem_nil, storable_summary ..⟩
  · refine ⟨fun f hf => ?_, storable_summary ..⟩
    obtain ⟨v, -, rfl⟩ := List.mem_map.1 hf
    exact storable_finding v

/-- Every report of a run can be held by a file. -/
theorem storable_of_run {i : Input} {tool : Tool} {startedAt finishedAt : Timestamp}
    {p : Policy} {r : Report} (h : run i tool startedAt finishedAt = .ok (p, r)) :
    r.Storable := by
  obtain ⟨q, -, heq⟩ := map_eq_ok_iff.1 h
  cases heq
  have hlint := storable_lint i.text p i.adoptionRequired
  exact ⟨hlint.1, hlint.2⟩

/-! ## Files -/

/-- A count that has been taken from a value is one of thirty-two bits. -/
theorem le_of_count {v : Json} {n : Nat} (h : Shape.count v = .ok n) : n ≤ countLimit := by
  unfold Shape.count at h
  split at h
  · split at h
    · next hn =>
      cases h
      have hlimit : (countLimit : Int) = Width.size 32 - 1 := by decide
      rw [Width.isUnsigned, Bool.and_eq_true, decide_eq_true_eq, decide_eq_true_eq] at hn
      omega
    · cases h
  · cases h

/-- The summary that a value gives can be held by a file. -/
theorem storable_of_summaryShape {v : Json} {s : Summary} (h : summaryShape v = .ok s) :
    s.Storable := by
  refine invariant_of_record (Q := fun _ => True) (I := Summary.Storable) ?_ ?_
    (fun _ _ _ _ => trivial) (fun _ _ _ _ => trivial) h
  · simp only [List.forall_mem_cons, List.not_mem_nil, false_implies, implies_true, and_true]
    refine ⟨?_, ?_, ?_, ?_, ?_, ?_, ?_, ?_, ?_⟩
    · exact keeps_of fun _ _ _ _ _ hi => ⟨hi.scanned, hi.unique, hi.malformed, hi.findings⟩
    · exact keeps_of fun _ _ _ _ _ hi => ⟨hi.scanned, hi.unique, hi.malformed, hi.findings⟩
    · exact keeps_of fun _ _ _ _ hn hi => ⟨le_of_count hn, hi.unique, hi.malformed, hi.findings⟩
    · exact keeps_of fun _ _ _ _ hn hi => ⟨hi.scanned, le_of_count hn, hi.malformed, hi.findings⟩
    · exact keeps_of fun _ _ _ _ hn hi => ⟨hi.scanned, hi.unique, le_of_count hn, hi.findings⟩
    · exact keeps_optional fun _ _ hi => ⟨hi.scanned, hi.unique, hi.malformed, hi.findings⟩
    · exact keeps_optional fun _ _ hi => ⟨hi.scanned, hi.unique, hi.malformed, hi.findings⟩
    · exact keeps_optional fun _ _ hi => ⟨hi.scanned, hi.unique, hi.malformed, hi.findings⟩
    · exact keeps_of fun _ _ _ _ hn hi => ⟨hi.scanned, hi.unique, hi.malformed, le_of_count hn⟩
  · exact ⟨Nat.zero_le _, Nat.zero_le _, Nat.zero_le _, Nat.zero_le _⟩

/-- The data of the finding that a value gives are a part of the value. -/
theorem accepted_of_findingShape {v : Json} {f : Finding} (hv : Accepted 125 v)
    (h : findingShape v = .ok f) : Accepted 124 f.data := by
  refine invariant_of_record (Q := Accepted 124) (I := fun f => Accepted 124 f.data) ?_
    ⟨.null, .null, .null⟩ ?_ ?_ h
  · simp only [List.forall_mem_cons, List.not_mem_nil, false_implies, implies_true, and_true]
    refine ⟨?_, ?_, ?_, ?_, ?_, ?_⟩
    · exact keeps_of fun _ _ _ _ _ hi => hi
    · exact keeps_of fun _ _ _ _ _ hi => hi
    · exact keeps_of fun _ _ _ _ _ hi => hi
    · exact keeps_optional fun _ _ hi => hi
    · exact keeps_optional fun _ _ hi => hi
    · intro w state state' hq _ hset
      cases hset
      exact hq
  · rintro vs rfl
    exact hv.of_array
  · rintro ms rfl
    exact hv.of_object

/-- What the reader of reports keeps of the value that it takes apart. -/
structure Kept (r : Report) : Prop where
  data : ∀ f ∈ r.outcome.findings, Accepted 124 f.data
  summary : r.outcome.summary.Storable

theorem kept_of_shape {v : Json} {r : Report} (hv : Accepted 127 v) (h : shape v = .ok r) :
    r.Kept := by
  have hfindings {w : Json} {fs : List Finding} (hw : Accepted 126 w)
      (hfs : Shape.list findingShape w = .ok fs) : ∀ f ∈ fs, Accepted 124 f.data := by
    refine forall_mem_of_list (Q := Accepted 125) (fun v f hv hf =>
      accepted_of_findingShape hv hf) ?_ hfs
    rintro vs rfl
    exact hw.of_array
  refine invariant_of_record (Q := Accepted 126) (I := Kept) ?_ ?_ ?_ ?_ h
  · simp only [List.forall_mem_cons, List.not_mem_nil, false_implies, implies_true, and_true]
    refine ⟨?_, ?_, ?_, ?_, ?_, ?_, ?_⟩
    · exact keeps_of fun _ _ _ _ _ hi => hi
    · exact keeps_of fun _ _ _ _ _ hi => ⟨hi.data, hi.summary⟩
    · exact keeps_of fun _ _ _ _ _ hi => ⟨hi.data, hi.summary⟩
    · exact keeps_of fun _ _ _ _ _ hi => ⟨hi.data, hi.summary⟩
    · exact keeps_of fun _ _ _ _ _ hi => ⟨hi.data, hi.summary⟩
    · exact keeps_of fun _ _ _ hq hfs hi => ⟨hfindings hq hfs, hi.summary⟩
    · exact keeps_of fun _ _ _ _ hs hi => ⟨hi.data, storable_of_summaryShape hs⟩
  · exact ⟨fun f hf => absurd hf List.not_mem_nil,
      Nat.zero_le _, Nat.zero_le _, Nat.zero_le _, Nat.zero_le _⟩
  · rintro vs rfl
    exact hv.of_array
  · rintro ms rfl
    exact hv.of_object

theorem kept_of_ofFile {content : String} {r : Report} (h : ofFile content = .ok r) : r.Kept := by
  unfold ofFile at h
  split at h
  · cases h
  · next v hv =>
    split at h
    · cases hshape : shape v with
      | error f =>
        rw [hshape] at h
        cases h
      | ok s =>
        rw [hshape] at h
        cases h
        exact kept_of_shape (accepted_of_parse hv) hshape
    · cases h

/-- A number that is no double. -/
def IsWhole : Number → Prop
  | .whole _ => True
  | .double _ => False

/-- A report that has been read from a file can be held by one again, if its data hold no
doubles. -/
theorem storable_of_ofFile {content : String} {r : Report} (h : ofFile content = .ok r)
    (hwhole : ∀ f ∈ r.outcome.findings, f.data.EachNumber IsWhole) : r.Storable := by
  have hkept := kept_of_ofFile h
  refine ⟨fun f hf => ?_, hkept.summary⟩
  obtain ⟨hnested, hreadable, hordered⟩ := hkept.data f hf
  refine ⟨(hreadable.and (hwhole f hf)).imp ?_, hnested, hordered⟩
  rintro (n | d) ⟨hn, hw⟩
  · exact hn
  · exact absurd hw id

end Report
end GlyphLine
