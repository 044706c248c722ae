import GlyphLine.Policy.Resolution
import GlyphLine.Proofs.ByName

/-!
# What a document resolves to

A document asks for a pressure in every load and for a tier in its requirements, by texts.  Both
may be missing, and a tier may be empty.  White space around a name is of no account when it is
looked up, but the fault shows the text as it is written.

## Which fault is told

Loads are looked at in the order of their names, and the requirements behind all of them.  So a
fault is that of the least load that has one, however the loads have been written; an unknown
tier is told only if all loads are in order.

## What becomes of a document in order

Nothing but the two names can be wrong.  Everything else is taken over: lists with their order
and their repetitions, scalars by their texts, which are trimmed nowhere, and switches by whether
they are on.  A text that is empty counts as missing, except for the identity.

## Main statements

* `Document.AsksPressure`, `Document.AsksTier`: the texts of a document that have to be names.
* `Document.FirstUnknown`: the load of which an unknown pressure is told.
* `LoadSection.ResolvesTo`, `OfficialSection.ResolvesTo`, `Document.ResolvesTo`: what is taken
  over.
* `Document.resolve_eq_error_iff`: which fault a document has.
* `resolve_exact`: **when a document resolves, to what, and which fault it has otherwise**.
-/

namespace GlyphLine

/-! ## Names of levels -/

section Names

variable {α : Type} {name : α → String} {all : List α} {s : String}

/-- Of a list without an omission, whose members have different names, a name finds the member
that has it. -/
theorem find?_name_eq_some_iff (hall : ∀ a, a ∈ all) (hname : ∀ {a b}, name a = name b → a = b)
    {a : α} : all.find? (fun b => name b == s) = some a ↔ s = name a := by
  constructor
  · intro h
    exact (beq_iff_eq.mp (List.find?_some (p := fun b => name b == s) h)).symm
  · rintro rfl
    cases h : all.find? fun b => name b == name a with
    | none => exact absurd (beq_self_eq_true _) (List.find?_eq_none.mp h a (hall a))
    | some b => rw [hname (beq_iff_eq.mp (List.find?_some (p := fun b => name b == name a) h))]

end Names

theorem Pressure.ofName?_eq_some_iff {s : String} {q : Pressure} :
    ofName? s = some q ↔ s = q.name :=
  find?_name_eq_some_iff (fun q => by cases q <;> decide) fun {p q} => by
    cases p <;> cases q <;> decide

theorem ReadyTier.ofName?_eq_some_iff {s : String} {r : ReadyTier} :
    ofName? s = some r ↔ s = r.name :=
  find?_name_eq_some_iff (fun r => by cases r <;> decide) fun {q r} => by
    cases q <;> cases r <;> decide

namespace Policy

/-- A text names a pressure, with white space around the name or without. -/
def NamesPressure (value : String) : Prop := Text.trim value ∈ ["P0", "P1", "P2", "P3"]

/-- A text names a tier, with white space around the name or without. -/
def NamesTier (value : String) : Prop := Text.trim value ∈ ["core", "ui", "demo"]

theorem namesPressure_iff {value : String} :
    NamesPressure value ↔ ∃ q : Pressure, Text.trim value = q.name := by
  constructor
  · intro h
    simp only [NamesPressure, List.mem_cons, List.not_mem_nil, or_false] at h
    rcases h with h | h | h | h
    · exact ⟨.p0, h⟩
    · exact ⟨.p1, h⟩
    · exact ⟨.p2, h⟩
    · exact ⟨.p3, h⟩
  · rintro ⟨q, h⟩
    rw [NamesPressure, h]
    cases q <;> decide

theorem namesTier_iff {value : String} :
    NamesTier value ↔ ∃ r : ReadyTier, Text.trim value = r.name := by
  constructor
  · intro h
    simp only [NamesTier, List.mem_cons, List.not_mem_nil, or_false] at h
    rcases h with h | h | h
    · exact ⟨.core, h⟩
    · exact ⟨.ui, h⟩
    · exact ⟨.demo, h⟩
  · rintro ⟨r, h⟩
    rw [NamesTier, h]
    cases r <;> decide

theorem pressureOf_eq_ok_iff {load value : String} {q : Pressure} :
    pressureOf load value = .ok q ↔ Text.trim value = q.name := by
  rw [pressureOf, ← Pressure.ofName?_eq_some_iff]
  cases Pressure.ofName? (Text.trim value) <;> simp

theorem pressureOf_eq_error_iff {load value : String} {e : Fault} :
    pressureOf load value = .error e ↔
      ¬ NamesPressure value ∧ e = .unknownPressure load value := by
  simp only [pressureOf, namesPressure_iff, ← Pressure.ofName?_eq_some_iff]
  cases Pressure.ofName? (Text.trim value) <;> simp [eq_comm]

theorem readyTierOf_eq_ok_iff {value : String} {r : ReadyTier} :
    readyTierOf value = .ok r ↔ Text.trim value = r.name := by
  rw [readyTierOf, ← ReadyTier.ofName?_eq_some_iff]
  cases ReadyTier.ofName? (Text.trim value) <;> simp

theorem readyTierOf_eq_error_iff {value : String} {e : Fault} :
    readyTierOf value = .error e ↔ ¬ NamesTier value ∧ e = .unknownReadyTier value := by
  simp only [readyTierOf, namesTier_iff, ← ReadyTier.ofName?_eq_some_iff]
  cases ReadyTier.ofName? (Text.trim value) <;> simp [eq_comm]

/-! ## Load classes -/

/-- A load class is what becomes of a section. -/
structure LoadSection.ResolvesTo (s : LoadSection) (c : LoadClass) : Prop where
  minPressure : (s.minPressure = none ∧ c.minPressure = .p0) ∨
    ∃ value, s.minPressure.map Scalar.toText = some value ∧
      Text.trim value = c.minPressure.name
  probes : c.probes = (s.probes.getD []).map Scalar.toText
  vetoSignals : c.vetoSignals = (s.vetoSignals.getD []).map Scalar.toText

/-- A section with an unknown pressure becomes no load class. -/
theorem LoadSection.ResolvesTo.namesPressure {s : LoadSection} {c : LoadClass} (h : s.ResolvesTo c)
    {value : String} (hvalue : s.minPressure.map Scalar.toText = some value) :
    NamesPressure value := by
  rcases h.minPressure with ⟨hnone, -⟩ | ⟨value', hvalue', hname⟩
  · rw [hnone] at hvalue
    cases hvalue
  · obtain rfl : value' = value := Option.some_inj.mp (hvalue'.symm.trans hvalue)
    exact namesPressure_iff.mpr ⟨c.minPressure, hname⟩

theorem LoadSection.resolvesTo_of_resolve {name : String} {s : LoadSection} {c : LoadClass}
    (h : s.resolve name = .ok c) : s.ResolvesTo c := by
  obtain ⟨q, hq, rfl⟩ := map_eq_ok_iff.mp h
  refine ⟨?_, rfl, rfl⟩
  cases hv : s.minPressure with
  | none =>
    rw [hv] at hq
    exact .inl ⟨rfl, (Except.ok.inj hq).symm⟩
  | some v =>
    rw [hv] at hq
    exact .inr ⟨_, rfl, pressureOf_eq_ok_iff.mp hq⟩

theorem LoadSection.resolve_eq_error_iff {name : String} {s : LoadSection} {e : Fault} :
    s.resolve name = .error e ↔ ∃ value, s.minPressure.map Scalar.toText = some value ∧
      ¬ NamesPressure value ∧ e = .unknownPressure name value := by
  rw [LoadSection.resolve, map_eq_error_iff]
  cases s.minPressure with
  | none => simp
  | some v => simp [pressureOf_eq_error_iff]

/-- The sections of load classes, of which null ones are without fields. -/
def sections (loads : Option (ByName (Option LoadSection))) : ByName LoadSection :=
  (loads.getD .empty).map fun _ s => s.getD {}

/-- Of the loads only their sections matter. -/
theorem resolveLoads_eq (loads : Option (ByName (Option LoadSection))) :
    resolveLoads loads = ((sections loads).map LoadSection.resolve).collect := by
  rw [resolveLoads, sections, ByName.map_map]

/-- A document gives the pressure of a load by a text. -/
def Document.AsksPressure (d : Document) (load value : String) : Prop :=
  ∃ s, (sections d.loads).find? load = some s ∧ s.minPressure.map Scalar.toText = some value

/-- All pressures that a document gives are known. -/
def Document.PressuresKnown (d : Document) : Prop :=
  ∀ load value, d.AsksPressure load value → NamesPressure value

/-- The least load for which a document gives an unknown pressure, and the text that gives it. -/
structure Document.FirstUnknown (d : Document) (load value : String) : Prop where
  asks : d.AsksPressure load value
  unknown : ¬ NamesPressure value
  least : ∀ load' value', d.AsksPressure load' value' → ¬ NamesPressure value' → load ≤ load'

theorem resolveLoads_eq_ok {d : Document} {loads : ByName LoadClass}
    (h : resolveLoads d.loads = .ok loads) :
    loads.names = (d.loads.getD .empty).names ∧
      ∀ load s, (sections d.loads).find? load = some s →
        ∃ c, loads.find? load = some c ∧ s.ResolvesTo c := by
  rw [resolveLoads_eq] at h
  have heq := ByName.collect_eq_ok h
  refine ⟨?_, fun load s hs => ?_⟩
  · have hnames := congrArg ByName.names heq
    rw [ByName.names_map, ByName.names_map, sections, ByName.names_map] at hnames
    exact hnames.symm
  · have hfind := congrArg (ByName.find? · load) heq
    simp only [ByName.find?_map, hs, Option.map_some] at hfind
    obtain ⟨c, hc, hsc⟩ := Option.map_eq_some_iff.mp hfind.symm
    exact ⟨c, hc, LoadSection.resolvesTo_of_resolve hsc.symm⟩

/-- If every section becomes a load class, all pressures are known. -/
theorem pressuresKnown_of_loads {d : Document} {loads : ByName LoadClass}
    (h : ∀ load s, (sections d.loads).find? load = some s →
      ∃ c, loads.find? load = some c ∧ s.ResolvesTo c) : d.PressuresKnown := by
  rintro load value ⟨s, hs, hvalue⟩
  obtain ⟨c, -, hc⟩ := h load s hs
  exact hc.namesPressure hvalue

theorem resolveLoads_eq_error_iff {d : Document} {e : Fault} :
    resolveLoads d.loads = .error e ↔
      ∃ load value, d.FirstUnknown load value ∧ e = .unknownPressure load value := by
  have hfault : ∀ {load e}, ((sections d.loads).map LoadSection.resolve).find? load =
      some (.error e) ↔ ∃ value, d.AsksPressure load value ∧ ¬ NamesPressure value ∧
        e = .unknownPressure load value := by
    intro load e
    rw [ByName.find?_map, Option.map_eq_some_iff]
    simp only [LoadSection.resolve_eq_error_iff, Document.AsksPressure]
    constructor
    · rintro ⟨s, hs, value, hvalue, hno, rfl⟩
      exact ⟨value, ⟨s, hs, hvalue⟩, hno, rfl⟩
    · rintro ⟨value, ⟨s, hs, hvalue⟩, hno, rfl⟩
      exact ⟨s, hs, value, hvalue, hno, rfl⟩
  rw [resolveLoads_eq, ByName.collect_eq_error_iff]
  simp only [hfault]
  constructor
  · rintro ⟨load, ⟨value, hasks, hno, rfl⟩, hleast⟩
    exact ⟨load, value, ⟨hasks, hno, fun load' value' hasks' hno' =>
      hleast load' _ ⟨value', hasks', hno', rfl⟩⟩, rfl⟩
  · rintro ⟨load, value, ⟨hasks, hno, hleast⟩, rfl⟩
    refine ⟨load, ⟨value, hasks, hno, rfl⟩, ?_⟩
    rintro load' _ ⟨value', hasks', hno', rfl⟩
    exact hleast load' value' hasks' hno'

/-! ## Requirements -/

/-- The switches of a section, each with the requirement that it turns on. -/
def OfficialSection.switches : List ((OfficialSection → Option Scalar) × (Official → Bool)) := [
  (OfficialSection.pass, Official.pass), (OfficialSection.env, Official.env),
  (OfficialSection.run, Official.run), (OfficialSection.rgcaAllPlus, Official.rgcaAllPlus),
  (OfficialSection.zdPlus, Official.zdPlus), (OfficialSection.zdmPlus, Official.zdmPlus),
  (OfficialSection.thaletPlus, Official.thaletPlus),
  (OfficialSection.bridgespecPlus, Official.bridgespecPlus),
  (OfficialSection.tbPlus, Official.tbPlus)]

/-- Requirements are what becomes of a section. -/
structure OfficialSection.ResolvesTo (s : OfficialSection) (o : Official) : Prop where
  switches : ∀ w ∈ OfficialSection.switches,
    w.2 o = true ↔ ∃ v, w.1 s = some v ∧ v.isEnabled = true
  runMustBe : ∀ x, o.runMustBe = some x ↔ s.runMustBe.map Scalar.toText = some x ∧ x ≠ ""
  iceMustBe : ∀ x, o.iceMustBe = some x ↔ s.iceMustBe.map Scalar.toText = some x ∧ x ≠ ""
  readyTier : ∀ r, o.readyTier = some r ↔
    ∃ value, s.readyTier.map Scalar.toText = some value ∧ Text.trim value = r.name

theorem configured_eq_some_iff {v : Option Scalar} {x : String} :
    configured v = some x ↔ v.map Scalar.toText = some x ∧ x ≠ "" := by
  rw [configured, Option.filter_eq_some_iff]
  simp

theorem isOn_eq_true_iff {v : Option Scalar} :
    isOn v = true ↔ ∃ w, v = some w ∧ w.isEnabled = true := by
  cases v <;> simp [isOn]

/-- The tier that a section requires. -/
def OfficialSection.tier (s : OfficialSection) : Except Fault (Option ReadyTier) :=
  match configured s.readyTier with
  | none => .ok none
  | some v => (readyTierOf v).map some

theorem OfficialSection.resolve_eq (s : OfficialSection) :
    s.resolve = s.tier.map fun tier => {
      pass := isOn s.pass
      env := isOn s.env
      run := isOn s.run
      runMustBe := configured s.runMustBe
      iceMustBe := configured s.iceMustBe
      rgcaAllPlus := isOn s.rgcaAllPlus
      zdPlus := isOn s.zdPlus
      zdmPlus := isOn s.zdmPlus
      thaletPlus := isOn s.thaletPlus
      readyTier := tier
      bridgespecPlus := isOn s.bridgespecPlus
      tbPlus := isOn s.tbPlus } := rfl

/-- An empty text is not the name of a tier. -/
theorem ReadyTier.name_ne_trim_empty (r : ReadyTier) : Text.trim "" ≠ r.name := by
  cases r <;> decide

theorem OfficialSection.tier_eq_ok {s : OfficialSection} {tier : Option ReadyTier}
    (h : s.tier = .ok tier) (r : ReadyTier) : tier = some r ↔
      ∃ value, s.readyTier.map Scalar.toText = some value ∧ Text.trim value = r.name := by
  rw [OfficialSection.tier] at h
  cases hv : configured s.readyTier with
  | none =>
    rw [hv] at h
    obtain rfl := Except.ok.inj h
    refine iff_of_false (Option.some_ne_none r).symm ?_
    rintro ⟨value, hvalue, hname⟩
    by_cases hempty : value = ""
    · exact ReadyTier.name_ne_trim_empty r (hempty ▸ hname)
    · rw [configured_eq_some_iff.mpr ⟨hvalue, hempty⟩] at hv
      cases hv
  | some v =>
    rw [hv] at h
    obtain ⟨r', hr, rfl⟩ := map_eq_ok_iff.mp h
    have htext := (configured_eq_some_iff.mp hv).1
    simp only [htext, Option.some_inj, exists_eq_left']
    rw [← readyTierOf_eq_ok_iff, hr, Except.ok.injEq]

theorem OfficialSection.tier_eq_error_iff {s : OfficialSection} {e : Fault} :
    s.tier = .error e ↔ ∃ value, s.readyTier.map Scalar.toText = some value ∧ value ≠ "" ∧
      ¬ NamesTier value ∧ e = .unknownReadyTier value := by
  have hasked : (∃ value, configured s.readyTier = some value ∧ readyTierOf value = .error e) ↔
      ∃ value, s.readyTier.map Scalar.toText = some value ∧ value ≠ "" ∧
        ¬ NamesTier value ∧ e = .unknownReadyTier value := by
    simp only [configured_eq_some_iff, readyTierOf_eq_error_iff, and_assoc]
  rw [← hasked, OfficialSection.tier]
  cases configured s.readyTier with
  | none => simp
  | some v => simp [map_eq_error_iff]

theorem OfficialSection.resolvesTo_of_resolve {s : OfficialSection} {o : Official}
    (h : s.resolve = .ok o) : s.ResolvesTo o := by
  rw [OfficialSection.resolve_eq] at h
  obtain ⟨tier, htier, rfl⟩ := map_eq_ok_iff.mp h
  refine ⟨?_, fun _ => configured_eq_some_iff, fun _ => configured_eq_some_iff,
    tier_eq_ok htier⟩
  simp only [switches, List.forall_mem_cons, List.not_mem_nil, false_imp_iff, implies_true,
    and_true]
  and_intros
  all_goals exact isOn_eq_true_iff

theorem OfficialSection.resolve_eq_error_iff {s : OfficialSection} {e : Fault} :
    s.resolve = .error e ↔ s.tier = .error e := by
  rw [OfficialSection.resolve_eq, map_eq_error_iff]

/-! ## Documents -/

/-- A document gives the tier that it requires by a text. -/
def Document.AsksTier (d : Document) (value : String) : Prop :=
  (d.official.getD {}).readyTier.map Scalar.toText = some value

/-- A policy is what becomes of a document. -/
structure Document.ResolvesTo (d : Document) (p : Policy) : Prop where
  id : p.id = (d.id.map Scalar.toText).getD ""
  names : p.loads.names = (d.loads.getD .empty).names
  loads : ∀ load s, (sections d.loads).find? load = some s →
    ∃ c, p.load? load = some c ∧ s.ResolvesTo c
  official : (d.official.getD {}).ResolvesTo p.official

theorem Document.resolvesTo_of_resolve {d : Document} {p : Policy} (h : d.resolve = .ok p) :
    d.ResolvesTo p := by
  rw [Document.resolve] at h
  split at h
  · cases h
  · next loads hloads =>
    split at h
    · cases h
    · next official hofficial =>
      obtain rfl := Except.ok.inj h
      obtain ⟨hnames, hload⟩ := resolveLoads_eq_ok hloads
      exact ⟨rfl, hnames, hload, OfficialSection.resolvesTo_of_resolve hofficial⟩

/-- The fault of a document is that of its loads, or else that of its requirements. -/
theorem Document.resolve_eq_error_iff {d : Document} {e : Fault} :
    d.resolve = .error e ↔
      (∃ load value, d.FirstUnknown load value ∧ e = .unknownPressure load value) ∨
        d.PressuresKnown ∧ ∃ value, d.AsksTier value ∧ value ≠ "" ∧ ¬ NamesTier value ∧
          e = .unknownReadyTier value := by
  rw [← resolveLoads_eq_error_iff, Document.resolve]
  cases hloads : resolveLoads d.loads with
  | error f =>
    obtain ⟨load, value, hfirst, rfl⟩ := resolveLoads_eq_error_iff.mp hloads
    refine ⟨fun h => .inl (congrArg _ (Except.error.inj h)), ?_⟩
    rintro (h | ⟨hknown, -⟩)
    · exact congrArg _ (Except.error.inj h)
    · exact absurd (hknown load value hfirst.asks) hfirst.unknown
  | ok loads =>
    have hknown : d.PressuresKnown := pressuresKnown_of_loads (resolveLoads_eq_ok hloads).2
    have hofficial : (d.official.getD {}).resolve = .error e ↔
        ∃ value, d.AsksTier value ∧ value ≠ "" ∧ ¬ NamesTier value ∧
          e = .unknownReadyTier value :=
      OfficialSection.resolve_eq_error_iff.trans OfficialSection.tier_eq_error_iff
    rw [← hofficial, and_iff_right hknown]
    cases OfficialSection.resolve (d.official.getD {}) with
    | error f => simp
    | ok official => simp

/-- A document resolves if the names in it are known. -/
theorem Document.exists_resolve_iff {d : Document} :
    (∃ p, d.resolve = .ok p) ↔
      d.PressuresKnown ∧ ∀ value, d.AsksTier value → value = "" ∨ NamesTier value := by
  constructor
  · rintro ⟨p, hp⟩
    have hknown := pressuresKnown_of_loads (Document.resolvesTo_of_resolve hp).loads
    refine ⟨hknown, fun value hasks => ?_⟩
    refine Decidable.or_iff_not_imp_left.mpr fun hne => Classical.byContradiction fun hno => ?_
    have herror := Document.resolve_eq_error_iff.mpr (.inr ⟨hknown, value, hasks, hne, hno, rfl⟩)
    rw [hp] at herror
    cases herror
  · rintro ⟨hknown, htier⟩
    cases h : d.resolve with
    | ok p => exact ⟨p, rfl⟩
    | error e =>
      rcases Document.resolve_eq_error_iff.mp h with
        ⟨load, value, hfirst, -⟩ | ⟨-, value, hasks, hne, hno, -⟩
      · exact absurd (hknown load value hfirst.asks) hfirst.unknown
      · exact absurd (htier value hasks) (not_or.mpr ⟨hne, hno⟩)

/-- **When a document resolves, to what, and which fault it has otherwise.**  It resolves if every
pressure that it gives is known, and its tier as well unless its text is empty.  Otherwise the
fault is that of the least load whose pressure is unknown, or that of the tier if there is no such
load, with the text as it is written.  A policy takes over everything else. -/
theorem resolve_exact (d : Document) :
    ((∃ p, d.resolve = .ok p) ↔
      d.PressuresKnown ∧ ∀ value, d.AsksTier value → value = "" ∨ NamesTier value) ∧
    (∀ e, d.resolve = .error e ↔
      (∃ load value, d.FirstUnknown load value ∧ e = .unknownPressure load value) ∨
        d.PressuresKnown ∧ ∃ value, d.AsksTier value ∧ value ≠ "" ∧ ¬ NamesTier value ∧
          e = .unknownReadyTier value) ∧
    ∀ p, d.resolve = .ok p → d.ResolvesTo p :=
  ⟨Document.exists_resolve_iff, fun _ => Document.resolve_eq_error_iff,
    fun _ => Document.resolvesTo_of_resolve⟩

/-- The load that is told is the least one, also if it has been written last. -/
example :
    let unknown (value : String) : Option LoadSection := some { minPressure := some (.text value) }
    let d : Document := {
      loads := some (.ofList [("prod", unknown "P9"), ("dev", unknown " p1 ")])
      official := some { readyTier := some (.text "gold") } }
    d.resolve = .error (.unknownPressure "dev" " p1 ") := by
  rfl

end Policy
end GlyphLine
