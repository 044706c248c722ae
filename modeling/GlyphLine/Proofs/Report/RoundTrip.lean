import GlyphLine.Proofs.Report.Storable
import GlyphLine.Proofs.Timestamp
import GlyphLine.Render.Annotation
import GlyphLine.Render.Console
import GlyphLine.Render.Markdown

/-!
# Reading undoes writing on reports

The file of a report is the text of a value, which is read back as its sorted form.  Taking
this apart by shape gives the report again: the reader goes through the members in the
order of their names, and each of them sets the part that it was written from.

## Main statements

* `findingShape_sorted`, `summaryShape_sorted`, `shape_sorted`: the shapes undo the
  written values.
* `ofFile_file`: a report is read back from its file.
* `file_round_trip`: the same with everything that it holds of.
-/

namespace GlyphLine
namespace Report

open Lint Json

/-! ## Written values and their bounds -/

/-- Everything in a member that may be missing is a string. -/
theorem forall_mem_member? {P : Json → Prop} (hs : ∀ s, P (.string s)) (name : String)
    (o : Option String) : ∀ m ∈ member? name o, P m.2 := by
  intro m hm
  cases o with
  | none => exact absurd hm List.not_mem_nil
  | some s =>
    rw [List.mem_singleton.1 hm]
    exact hs s

/-- A finding is an object of strings and its data. -/
theorem findingJson_eq_object (f : Finding) :
    ∃ ms, findingJson f = .object ms ∧
      ∀ P : Json → Prop, (∀ s, P (.string s)) → P f.data → ∀ m ∈ ms, P m.2 := by
  refine ⟨_, rfl, fun P hs hd => ?_⟩
  simp only [List.forall_mem_append, List.forall_mem_cons, hs, List.not_mem_nil, false_implies,
    implies_true, and_true, true_and]
  refine ⟨⟨forall_mem_member? hs _ _, forall_mem_member? hs _ _⟩, fun m hm => ?_⟩
  split at hm
  · exact absurd hm List.not_mem_nil
  · rw [List.mem_singleton.1 hm]
    exact hd

/-- A summary is an object of strings, a truth value and its counts. -/
theorem summaryJson_eq_object (s : Summary) :
    ∃ ms, summaryJson s = .object ms ∧
      ∀ P : Json → Prop, (∀ t, P (.string t)) → (∀ b, P (.bool b)) →
        (∀ n ∈ [s.scanned, s.unique, s.malformed, s.findings], P (Json.ofNat n)) →
        ∀ m ∈ ms, P m.2 := by
  refine ⟨_, rfl, fun P hs hb hn => ?_⟩
  simp only [List.forall_mem_append, List.forall_mem_cons, hs, hb, List.not_mem_nil,
    false_implies, implies_true, and_true, true_and] at hn ⊢
  obtain ⟨hscanned, hunique, hmalformed, hfindings⟩ := hn
  exact ⟨⟨⟨⟨⟨hscanned, hunique, hmalformed⟩, forall_mem_member? hs _ _⟩,
    forall_mem_member? hs _ _⟩, forall_mem_member? hs _ _⟩, hfindings⟩

theorem nested_findingJson {f : Finding} {depth : Nat} (h : f.data.Nested depth) :
    (findingJson f).Nested (depth + 1) := by
  obtain ⟨ms, heq, hms⟩ := findingJson_eq_object f
  rw [heq]
  exact .object (hms (Nested depth) (fun _ => .string) h)

theorem eachNumber_findingJson {f : Finding} {P : Number → Prop} (h : f.data.EachNumber P) :
    (findingJson f).EachNumber P := by
  obtain ⟨ms, heq, hms⟩ := findingJson_eq_object f
  rw [heq]
  exact .object (hms (EachNumber P) (fun _ => .string) h)

theorem nested_summaryJson (s : Summary) : (summaryJson s).Nested 1 := by
  obtain ⟨ms, heq, hms⟩ := summaryJson_eq_object s
  rw [heq]
  exact .object (hms (Nested 0) (fun _ => .string) (fun _ => .bool) fun _ _ => .number)

/-- A count of thirty-two bits fits into sixty-four. -/
theorem isWord_of_le {n : Nat} (h : n ≤ countLimit) : Number.IsWord (.whole n) := by
  have hlimit : countLimit < Width.size 64 := by decide
  have hunsigned : Width.isUnsigned 64 (n : Int) = true := by
    rw [Width.isUnsigned, Bool.and_eq_true, decide_eq_true_eq, decide_eq_true_eq]
    omega
  show Width.fits 64 (n : Int) = true
  rw [Width.fits, hunsigned, Bool.or_true]

theorem isWord_summaryJson {s : Summary} (h : s.Storable) :
    (summaryJson s).EachNumber Number.IsWord := by
  obtain ⟨ms, heq, hms⟩ := summaryJson_eq_object s
  rw [heq]
  refine .object (hms (EachNumber Number.IsWord) (fun _ => .string) (fun _ => .bool) ?_)
  simp only [List.forall_mem_cons, List.not_mem_nil, false_implies, implies_true, and_true]
  exact ⟨.number (isWord_of_le h.scanned), .number (isWord_of_le h.unique),
    .number (isWord_of_le h.malformed), .number (isWord_of_le h.findings)⟩

theorem nested_toJson {r : Report} (h : r.Storable) : r.toJson.Nested maxDepth := by
  refine @Nested.object 126 _ ?_
  simp only [List.forall_mem_cons, List.not_mem_nil, false_implies, implies_true, and_true]
  refine ⟨.string, ?_, .string, .string, .string, ?_, ?_⟩
  · exact .object (by simp [Nested.string])
  · refine .array fun v hv => ?_
    obtain ⟨f, hf, rfl⟩ := List.mem_map.1 hv
    exact nested_findingJson (h.findings f hf).nested
  · exact (nested_summaryJson _).mono (by omega)

theorem isWord_toJson {r : Report} (h : r.Storable) : r.toJson.EachNumber Number.IsWord := by
  refine .object ?_
  simp only [List.forall_mem_cons, List.not_mem_nil, false_implies, implies_true, and_true]
  refine ⟨.string, ?_, .string, .string, .string, ?_, ?_⟩
  · exact .object (by simp [EachNumber.string])
  · refine .array fun v hv => ?_
    obtain ⟨f, hf, rfl⟩ := List.mem_map.1 hv
    exact eachNumber_findingJson (h.findings f hf).words
  · exact isWord_summaryJson h.summary

/-! ## Shapes of sorted values -/

theorem timestampShape_text (t : Timestamp) : timestampShape (.string t.text) = .ok t := by
  rw [timestampShape, t.ofText?_text]

theorem verdictShape_name (v : Verdict) : verdictShape (.string v.name) = .ok v := by
  cases v <;> rfl

theorem count_ofNat {n : Nat} (h : n ≤ countLimit) : Shape.count (Json.ofNat n) = .ok n := by
  have hlimit : countLimit < Width.size 32 := by decide
  have hunsigned : Width.isUnsigned 32 (n : Int) = true := by
    rw [Width.isUnsigned, Bool.and_eq_true, decide_eq_true_eq, decide_eq_true_eq]
    omega
  unfold Shape.count Json.ofNat
  dsimp only
  rw [if_pos hunsigned, Int.toNat_natCast]

/-- A member that may be missing sets its part, or leaves the record as it is. -/
theorem setMembers_member? {σ : Type} {parts : List (Json.Part σ)} {name : String}
    {set : Option String → σ → σ}
    (hp : parts.find? (fun p => p.name == name) = some (Part.optional name Shape.string set))
    {state : σ} (hnone : set none state = state) (o : Option String)
    (ms : List (String × Json)) :
    setMembers parts (Report.member? name o ++ ms) state = setMembers parts ms (set o state) := by
  cases o with
  | none =>
    rw [hnone]
    rfl
  | some s =>
    rw [Report.member?, List.singleton_append, setMembers, hp]
    rfl

/-- The data of a finding as a member, if there are any. -/
def dataMember (data : Json) : List (String × Json) := if data.isNull then [] else [("data", data)]

theorem eq_null_of_isNull {v : Json} (h : v.isNull = true) : v = .null := by
  cases v with
  | null => rfl
  | _ => cases h

/-- The members of a finding in order. -/
theorem sorted_findingJson {f : Finding} (h : f.data.Ordered) :
    (findingJson f).sorted = .object (("check_id", .string f.checkId) ::
      ("code", .string f.code) :: (dataMember f.data ++
        (Report.member? "fingerprint" f.fingerprint ++
          (Report.member? "help" f.help ++ [("message", .string f.message)])))) := by
  obtain ⟨checkId, code, message, help, fingerprint, data⟩ := f
  have hdata : data.sorted = data := sorted_eq_self h
  by_cases hnull : data.isNull = true
  · cases help <;> cases fingerprint <;>
      simp only [findingJson, dataMember, Report.member?, hnull, sorted, sortedMembers, putEntry,
        String.reduceLT, String.reduceEq, ↓reduceIte, List.cons_append, List.nil_append,
        List.append_nil]
  · cases help <;> cases fingerprint <;>
      simp only [findingJson, dataMember, Report.member?, hnull, hdata, sorted, sortedMembers,
        putEntry, String.reduceLT, String.reduceEq, Bool.false_eq_true, ↓reduceIte,
        List.cons_append, List.nil_append, List.append_nil]

/-- The data of a finding set its last part; where there are none, it has none. -/
theorem setMembers_dataMember {parts : List (Json.Part Finding)}
    (hp : parts.find? (fun p => p.name == "data") =
      some ⟨"data", false, false, fun v f => .ok { f with data := v }⟩)
    (data : Json) {f : Finding} (hf : f.data = .null) (ms : List (String × Json)) :
    setMembers parts (dataMember data ++ ms) f = setMembers parts ms { f with data := data } := by
  rw [dataMember]
  split
  · next hnull =>
    have heq : { f with data := data } = f := by rw [eq_null_of_isNull hnull, ← hf]
    rw [heq, List.nil_append]
  · rw [List.singleton_append, setMembers, hp]

/-- A finding is taken again from the sorted form of its value, with its help, its
fingerprint and its data or without. -/
theorem findingShape_sorted {f : Finding} (h : f.data.Ordered) :
    findingShape (findingJson f).sorted = .ok f := by
  rw [sorted_findingJson h]
  refine record_object ?_ ?_
  · refine (setMembers_of rfl (string_eq_ok _) _ _).trans ?_
    refine (setMembers_of rfl (string_eq_ok _) _ _).trans ?_
    refine (setMembers_dataMember rfl f.data rfl _).trans ?_
    refine (setMembers_member? rfl rfl f.fingerprint _).trans ?_
    refine (setMembers_member? rfl rfl f.help _).trans ?_
    refine (setMembers_of rfl (string_eq_ok _) _ _).trans ?_
    rfl
  · simp [Part.of, Part.optional]

theorem toolShape_object (t : Tool) :
    toolShape (.object [("name", .string t.name), ("version", .string t.version)]) = .ok t := by
  refine record_object ?_ ?_
  · refine (setMembers_of rfl (string_eq_ok _) _ _).trans ?_
    refine (setMembers_of rfl (string_eq_ok _) _ _).trans ?_
    rfl
  · simp [Part.of]

/-- The members of a summary in order. -/
theorem sorted_summaryJson (s : Summary) :
    (summaryJson s).sorted = .object (("findings_total", Json.ofNat s.findings) ::
      ("icemap_id", .string s.policy) :: (Report.member? "load" s.load ++
        (Report.member? "pressure" s.pressure ++ (Report.member? "ready_tier" s.readyTier ++
          [("require_adoption", .bool s.adoptionRequired),
            ("tokens_malformed", Json.ofNat s.malformed),
            ("tokens_scanned", Json.ofNat s.scanned),
            ("tokens_unique", Json.ofNat s.unique)])))) := by
  obtain ⟨policy, adoptionRequired, scanned, unique, malformed, load, pressure, readyTier,
    findings⟩ := s
  have hnat (n : Nat) : (Json.ofNat n).sorted = Json.ofNat n := rfl
  cases load <;> cases pressure <;> cases readyTier <;>
    simp only [summaryJson, Report.member?, hnat, sorted, sortedMembers, putEntry,
      String.reduceLT, String.reduceEq, ↓reduceIte, List.cons_append, List.nil_append,
      List.append_nil]

/-- A summary is taken again from the sorted form of its value. -/
theorem summaryShape_sorted {s : Summary} (h : s.Storable) :
    summaryShape (summaryJson s).sorted = .ok s := by
  rw [sorted_summaryJson]
  refine record_object ?_ ?_
  · refine (setMembers_of rfl (count_ofNat h.findings) _ _).trans ?_
    refine (setMembers_of rfl (string_eq_ok _) _ _).trans ?_
    refine (setMembers_member? rfl rfl s.load _).trans ?_
    refine (setMembers_member? rfl rfl s.pressure _).trans ?_
    refine (setMembers_member? rfl rfl s.readyTier _).trans ?_
    refine (setMembers_of rfl (bool_eq_ok _) _ _).trans ?_
    refine (setMembers_of rfl (count_ofNat h.malformed) _ _).trans ?_
    refine (setMembers_of rfl (count_ofNat h.scanned) _ _).trans ?_
    refine (setMembers_of rfl (count_ofNat h.unique) _ _).trans ?_
    rfl
  · simp [Part.of, Part.optional]

/-- The members of a report in order. -/
theorem sorted_toJson (r : Report) :
    r.toJson.sorted = .object [
      ("data", (summaryJson r.outcome.summary).sorted),
      ("findings", .array (r.outcome.findings.map fun f => (findingJson f).sorted)),
      ("finished_at", .string r.finishedAt.text),
      ("schema", .string reportSchema),
      ("started_at", .string r.startedAt.text),
      ("tool", .object [("name", .string r.tool.name), ("version", .string r.tool.version)]),
      ("verdict", .string r.outcome.verdict.name)] := by
  have hitems : sortedItems (r.outcome.findings.map findingJson) =
      r.outcome.findings.map fun f => (findingJson f).sorted := by
    rw [sortedItems_eq_map, List.map_map]
    rfl
  simp only [toJson, sorted, sortedMembers, putEntry, hitems, String.reduceLT, String.reduceEq,
    ↓reduceIte]

/-- A report is taken again from the sorted form of its value. -/
theorem shape_sorted {r : Report} (h : r.Storable) : shape r.toJson.sorted = .ok r := by
  have hfindings : Shape.list findingShape
      (.array (r.outcome.findings.map fun f => (findingJson f).sorted)) =
      .ok r.outcome.findings :=
    list_eq_ok fun f hf => findingShape_sorted (h.findings f hf).ordered
  rw [sorted_toJson]
  refine record_object ?_ ?_
  · refine (setMembers_of rfl (summaryShape_sorted h.summary) _ _).trans ?_
    refine (setMembers_of rfl hfindings _ _).trans ?_
    refine (setMembers_of rfl (timestampShape_text r.finishedAt) _ _).trans ?_
    refine (setMembers_of rfl (string_eq_ok _) _ _).trans ?_
    refine (setMembers_of rfl (timestampShape_text r.startedAt) _ _).trans ?_
    refine (setMembers_of rfl (toolShape_object r.tool) _ _).trans ?_
    refine (setMembers_of rfl (verdictShape_name r.outcome.verdict) _ _).trans ?_
    rfl
  · simp [Part.of]

/-! ## Files -/

/-- The sorted form of a report's value names the form of reports. -/
theorem schemaOf_sorted (r : Report) : schemaOf r.toJson.sorted = reportSchema := by
  rw [sorted_toJson]
  simp [schemaOf, Json.member?, Json.string?, List.lookup_cons]

/-- A report that a file can hold is read back from its file. -/
theorem ofFile_file {r : Report} (h : r.Storable) : ofFile r.file = .ok r := by
  have hparse : Json.parse r.file = .ok r.toJson.sorted :=
    parse_file (nested_toJson h) (isWord_toJson h)
  rw [ofFile, hparse]
  dsimp only
  rw [if_pos (schemaOf_sorted r), shape_sorted h]
  rfl

/-- A report that a file can hold looks the same when it has been read back. -/
theorem map_ofFile_file {α : Type} (view : Outcome → α) {r : Report} (h : r.Storable) :
    (ofFile r.file).map (fun s => view s.outcome) = .ok (view r.outcome) := by
  rw [ofFile_file h]
  rfl

/-- **Reading undoes writing.**  Every report that a file can hold --- any strings, any
verdict, any times, counts of thirty-two bits, help and fingerprint or none, data with
whole numbers of sixty-four bits nested to a depth of 124 --- is read back from its file as
itself, and is shown in the same way on a console, as Markdown and as annotations.  This
holds of the report of every run, and of every report without doubles that has been read
from any file. -/
theorem file_round_trip :
    (∀ r : Report, r.Storable →
      ofFile r.file = .ok r ∧
      (ofFile r.file).map (fun s => Render.console s.outcome) = .ok (Render.console r.outcome) ∧
      (ofFile r.file).map (fun s => Render.markdown s.outcome) = .ok (Render.markdown r.outcome) ∧
      (ofFile r.file).map (fun s => Render.annotations s.outcome) =
        .ok (Render.annotations r.outcome)) ∧
    (∀ (i : Input) (tool : Tool) (startedAt finishedAt : Timestamp) (p : Policy) (r : Report),
      run i tool startedAt finishedAt = .ok (p, r) → r.Storable) ∧
    (∀ (content : String) (r : Report), ofFile content = .ok r →
      (∀ f ∈ r.outcome.findings, f.data.EachNumber IsWhole) → r.Storable) := by
  refine ⟨fun r h => ⟨ofFile_file h, ?_, ?_, ?_⟩, ?_, ?_⟩
  · exact map_ofFile_file Render.console h
  · exact map_ofFile_file Render.markdown h
  · exact map_ofFile_file Render.annotations h
  · intro i tool startedAt finishedAt p r h
    exact storable_of_run h
  · intro content r h hwhole
    exact storable_of_ofFile h hwhole

/-- A finding without help whose data hold the least and the greatest number, an escape and
an empty object. -/
def extremeFinding : Finding where
  checkId := "check \"\x01\""
  code := "code\\\n"
  message := "😀"
  help := none
  fingerprint := some ""
  data := .object [("", .array [.number (.whole (-9223372036854775808)), .null]),
    ("\x7f", .object []), ("ä", .number (.whole 18446744073709551615))]

/-- A report with the greatest counts and a time with a fraction and an offset. -/
def extremeReport : Report where
  tool := ⟨"", "\t"⟩
  startedAt := ⟨0, 2, 29, 23, 59, 59, 120000000, -1439, by decide, by decide, by decide⟩
  finishedAt := ⟨9999, 12, 31, 0, 0, 0, 999999999, 1, by decide, by decide, by decide⟩
  outcome := ⟨.noAdoption, [extremeFinding],
    ⟨"p", true, countLimit, countLimit, 0, none, some "P9", some "", 7⟩⟩

theorem storable_extremeReport : extremeReport.Storable := by
  refine ⟨fun f hf => ?_, ⟨Nat.le_refl _, Nat.le_refl _, Nat.zero_le _, by decide⟩⟩
  rw [List.mem_singleton.1 hf]
  refine ⟨?_, ?_, ?_⟩
  · refine .object ?_
    simp only [List.forall_mem_cons, List.not_mem_nil, false_implies, implies_true, and_true]
    refine ⟨.array ?_, .object (by simp), .number (by decide)⟩
    simp only [List.forall_mem_cons, List.not_mem_nil, false_implies, implies_true, and_true]
    exact ⟨.number (by decide), .null⟩
  · refine @Nested.object 123 _ ?_
    simp only [List.forall_mem_cons, List.not_mem_nil, false_implies, implies_true, and_true]
    refine ⟨@Nested.array 122 _ ?_, @Nested.object 122 _ (by simp), .number⟩
    simp only [List.forall_mem_cons, List.not_mem_nil, false_implies, implies_true, and_true]
    exact ⟨.number, .null⟩
  · refine .object (by simp only [Increasing, List.pairwise_cons, List.mem_cons,
      List.not_mem_nil, or_false, forall_eq_or_imp, forall_eq, String.reduceLT, and_self,
      IsEmpty.forall_iff, implies_true, List.Pairwise.nil]) ?_
    simp only [List.forall_mem_cons, List.not_mem_nil, false_implies, implies_true, and_true]
    refine ⟨.array ?_, .object List.Pairwise.nil (by simp), .number⟩
    simp only [List.forall_mem_cons, List.not_mem_nil, false_implies, implies_true, and_true]
    exact ⟨.number, .null⟩

/-- The report with the greatest counts is one that is read back. -/
theorem file_round_trip_extreme :
    extremeReport.Storable ∧ ofFile extremeReport.file = .ok extremeReport :=
  ⟨storable_extremeReport, (file_round_trip.1 extremeReport storable_extremeReport).1⟩

end Report
end GlyphLine
