import GlyphLine.Proofs.Report.RoundTrip
import GlyphLine.Upkeep.Conformance

/-!
# Registered identifiers

Checks and codes are registered by name in two lists, and their explanations stand in a third
one.  The three are written apart, but a name has an explanation if and only if it is
registered (`map_fst_explanations`).  What linting reports bears registered names only, so that
the maintenance commands find nothing wrong with the identifiers of a report.

Between the report and the maintenance commands stand its file, from which it is read back
with the members of every object in another order, and the mask that hides times and
versions.  Neither gets at the names: the two members that hold them stay in front of their
finding, whatever becomes of the others.

* `Explain.lookup?_isSome_iff`: the names that have an explanation.
* `Upkeep.Identified`: a report whose findings bear registered names.
* `Upkeep.Identified.mask`: masking keeps this.
* `Upkeep.identified_toJson`, `Upkeep.identified_sorted`: the reports of linting, as they are
  written and as they are read back.
-/

namespace GlyphLine

open Lint

namespace Explain

theorem id_mem_checkIds (c : Check) : c.id ∈ checkIds := by cases c <;> decide

theorem name_mem_codeNames (c : Code) : c.name ∈ codeNames := by cases c <;> decide

/-- The table has the registered names, and no others. -/
theorem map_fst_explanations : explanations.map Prod.fst = checkIds ++ codeNames := rfl

/-- A name has an explanation if a check or a code is registered under it. -/
theorem lookup?_isSome_iff (name : String) :
    (lookup? name).isSome = true ↔ name ∈ checkIds ∨ name ∈ codeNames := by
  rw [← List.mem_append, ← map_fst_explanations, lookup?, List.lookup_isSome_iff, List.mem_map]
  exact exists_congr fun e => and_congr_right fun _ => beq_iff_eq.trans eq_comm

end Explain

/-! ## Masking -/

namespace Report

/-- Masking the times of a value masks those of its members. -/
theorem member?_maskTimes {key : String} (hkey : isTimeKey key = false) (v : Json) :
    (maskTimes v).member? key = (v.member? key).map maskTimes := by
  cases v with
  | object ms =>
    rw [maskTimes, Json.member?, Json.member?]
    induction ms with
    | nil => rfl
    | cons m ms ih =>
      obtain ⟨k, v⟩ := m
      rw [maskMembers, List.lookup_cons, List.lookup_cons]
      cases heq : key == k with
      | false => exact ih
      | true => rw [← beq_iff_eq.mp heq, hkey]; rfl
  | _ => rfl

theorem lookup_map_maskVersion {key : String} (hkey : key ≠ "tool") (ms : List (String × Json)) :
    (ms.map fun m => if m.1 == "tool" then (m.1, maskVersion m.2) else m).lookup key =
      ms.lookup key := by
  induction ms with
  | nil => rfl
  | cons m ms ih =>
    obtain ⟨k, v⟩ := m
    rw [List.map_cons, List.lookup_cons]
    by_cases htool : k = "tool"
    · have hne : (key == k) = false := beq_eq_false_iff_ne.mpr (htool ▸ hkey)
      rw [if_pos (beq_iff_eq.mpr htool), List.lookup_cons, hne]
      exact ih
    · rw [if_neg (mt beq_iff_eq.mp htool), List.lookup_cons, ih]

/-- Masking the version of a tool changes no other member. -/
theorem member?_maskTool {key : String} (hkey : key ≠ "tool") (v : Json) :
    (maskTool v).member? key = v.member? key := by
  cases v with
  | object ms =>
    rw [maskTool]
    split
    · exact lookup_map_maskVersion hkey ms
    · rfl
  | _ => rfl

theorem maskItems_eq_map (vs : List Json) : maskItems vs = vs.map maskTimes := by
  induction vs with
  | nil => rfl
  | cons v vs ih => rw [maskItems, ih, List.map_cons]

end Report

/-! ## Identifiers of a report -/

namespace Upkeep

/-- The errors in the identifiers of a report's findings. -/
def identifierErrors (name : String) (v : Json) : List String :=
  findingErrors name 0 (((v.member? "findings").bind Json.items?).getD [])

theorem reportErrors_eq (name : String) (v : Json) :
    reportErrors name v =
      schemaErrors name Report.form (Report.mask v) ++ identifierErrors name (Report.mask v) :=
  rfl

/-- A finding that begins with the registered names of its check and its code. -/
def IsIdentified (v : Json) : Prop :=
  ∃ id ∈ Explain.checkIds, ∃ code ∈ Explain.codeNames, ∃ ms,
    v = .object (("check_id", .string id) :: ("code", .string code) :: ms)

/-- A report all of whose findings are identified. -/
def Identified (v : Json) : Prop :=
  ∃ vs, v.member? "findings" = some (.array vs) ∧ ∀ w ∈ vs, IsIdentified w

theorem memberErrors_eq_nil {name place member : String} {registered : List String} {v : Json}
    {s : String} (hv : v.member? member = some (.string s)) (hs : s ∈ registered) :
    memberErrors name place member registered v = [] := by
  rw [memberErrors, hv]
  exact if_pos (List.contains_iff_mem.mpr hs)

theorem findingErrors_eq_nil {vs : List Json} (h : ∀ v ∈ vs, IsIdentified v) (name : String)
    (n : Nat) : findingErrors name n vs = [] := by
  induction vs generalizing n with
  | nil => rfl
  | cons v vs ih =>
    obtain ⟨id, hid, code, hcode, ms, rfl⟩ := h v List.mem_cons_self
    simp only [findingErrors]
    rw [memberErrors_eq_nil rfl hid, memberErrors_eq_nil rfl hcode,
      ih fun w hw => h w (List.mem_cons_of_mem _ hw)]
    rfl

theorem Identified.identifierErrors {v : Json} (h : Identified v) (name : String) :
    identifierErrors name v = [] := by
  obtain ⟨vs, hvs, hall⟩ := h
  rw [Upkeep.identifierErrors, hvs]
  exact findingErrors_eq_nil hall name 0

theorem IsIdentified.maskTimes {v : Json} (h : IsIdentified v) :
    IsIdentified (Report.maskTimes v) := by
  obtain ⟨id, hid, code, hcode, ms, rfl⟩ := h
  exact ⟨id, hid, code, hcode, Report.maskMembers ms, rfl⟩

/-- Masking leaves the names of checks and codes. -/
theorem Identified.mask {v : Json} (h : Identified v) : Identified (Report.mask v) := by
  obtain ⟨vs, hvs, hall⟩ := h
  refine ⟨vs.map Report.maskTimes, ?_, ?_⟩
  · rw [Report.mask, Report.member?_maskTimes rfl, Report.member?_maskTool (by decide), hvs,
      Option.map_some, Report.maskTimes, Report.maskItems_eq_map]
  · exact List.forall_mem_map.mpr fun w hw => (hall w hw).maskTimes

/-! ## Reports of linting -/

/-- A finding bears the names of its violation's check and code. -/
theorem registered_finding (v : Violation) :
    v.finding.checkId ∈ Explain.checkIds ∧ v.finding.code ∈ Explain.codeNames :=
  ⟨Explain.id_mem_checkIds _, Explain.name_mem_codeNames _⟩

variable {r : Report}
  (h : ∀ g ∈ r.outcome.findings, g.checkId ∈ Explain.checkIds ∧ g.code ∈ Explain.codeNames)
include h

theorem identified_toJson : Identified r.toJson := by
  refine ⟨r.outcome.findings.map Report.findingJson, rfl, List.forall_mem_map.mpr fun g hg => ?_⟩
  exact ⟨g.checkId, (h g hg).1, g.code, (h g hg).2, _, rfl⟩

/-- A report that has been read back bears the same names. -/
theorem identified_sorted (hr : r.Storable) : Identified r.toJson.sorted := by
  refine ⟨r.outcome.findings.map fun g => (Report.findingJson g).sorted, ?_,
    List.forall_mem_map.mpr fun g hg => ?_⟩
  · rw [Report.sorted_toJson]
    rfl
  · rw [Report.sorted_findingJson (hr.findings g hg).ordered]
    exact ⟨g.checkId, (h g hg).1, g.code, (h g hg).2, _, rfl⟩

end Upkeep
end GlyphLine
