import GlyphLine.Proofs.Json.Holes
import GlyphLine.Proofs.Lint.Findings
import GlyphLine.Proofs.Policy.Notations
import GlyphLine.Proofs.Policy.Respelling
import Mathlib.Algebra.Group.Int.Defs

/-!
# Whole numbers in a policy

Where a policy expects a text it may give a number, and a whole number of sixty-four bits with a
sign is taken as it is written.  Both ends of this range are in it: beyond them a number becomes a
double, whose text has a point.

## 1.  Which places there are

A `Spot` is a place of a document where a text or a switch is expected, and `Spot.Hole` says how
a text of a policy with a hole in this place can look.  Nothing is asked of the rest of the text:
records may be written as objects or as lists, with their members in any order and beside unknown
ones, keys may be spelled with escapes, and there may be white space everywhere.

## 2.  What has to be known of the rest

That the rest is in order is said by one value with which the text is that of a policy.  No
matter which value this is, nothing else in the document depends on it: the pressures and the
tier, which are all that can be wrong with a document, stay the same (`Spot.Hole.reads`).

## 3.  The identity

An identity is compared with the first one that the text names, as texts.  Since the decimals of
different numbers are different, these are the same if the numbers are.

* `Spot`, `Spot.Hole`, `Spot.Resolved`: places, texts with a hole, and what a policy has there.
* `whole_scalars_kept`: **whole numbers keep their spelling**.
-/

namespace GlyphLine
namespace Policy

open Json (EntryHole FieldHole Gap ItemHole Label Numeral ReadsInto Tree)

/-! ## Numbers -/

/-- A whole number of sixty-four bits has a decimal. -/
theorem exists_numeral_of_fits {n : Int} (h : Width.fits 64 n = true) :
    ∃ k : Numeral, k.chars = (toString n).toList := by
  have hread : Json.Lexeme.number (Json.numberChars (.whole n) ++ []) = .ok (.whole n, []) :=
    Json.Lexeme.number_numberChars h fun c hc => absurd hc (Option.not_mem_none c)
  obtain ⟨k, hk⟩ := Json.Lexeme.exists_numeral (Json.Lexeme.skipNumber_of_number hread)
  rw [List.append_nil, List.append_nil] at hk
  exact ⟨k, hk.symm⟩

/-- The reader of scalars, for a type of the given name. -/
abbrev scalarReader (type : String) : Json.Reader Scalar := .choice type Scalar.ofJson?

/-- The decimal of a whole number is read as this number. -/
theorem scalarReader_number {n : Int} (hn : Width.isSigned 64 n = true) {k : Numeral}
    (hk : k.chars = (toString n).toList) (type : String) (depth : Nat) :
    (scalarReader type).on depth (.number k) = .ok (.whole n) := by
  have hread := json_takes_scalar 0 type (.whole n hn) ((Tree.number k).chars.length + 1) depth []
    (by rw [Tree.chars, hk]; exact Nat.lt_add_one _) (Nat.zero_le depth)
    fun c hc => absurd hc (Option.not_mem_none c)
  have hchars : (Tree.number k).chars = (WrittenScalar.whole n hn).form.chars := hk
  rw [List.append_nil, ← hchars] at hread
  exact congrArg (Except.map Prod.fst) hread

/-! ## Fields with a hole -/

/-- A record with a hole for a field is a record in which the field is not set yet. -/
theorem exists_of_fieldHole {α σ : Type} {r : Json.Reader α} {c : Tree → Tree} {depth : Nat}
    {type name : String} {fields : List (Field Json.Reader σ)} {blank a : σ}
    (hlaws : ∀ f ∈ fields, FieldLaws blank f) (hapart : fields.Pairwise Json.SetApart)
    (hnames : (fields.map Field.name).Nodup) (h : ReaderLaws r) {put : Option α → σ → σ}
    (hfield : (fields.find? fun f => f.name == name) = some (field name r put))
    (hole : FieldHole (fields.map Field.name) name c) {u : Tree}
    (ha : (Json.Reader.record type fields blank).on (depth + 1) (c u) = .ok a) :
    ∃ s w, r.optional.on depth u = .ok w ∧ a = put w s ∧
      ReadsInto (Json.Reader.record type fields blank) (depth + 1) c r.optional depth
        fun w => put w s := by
  obtain ⟨⟨set, hset⟩, s, hs⟩ := hole.on_record (fun f hf => (hlaws f hf).settled) hapart hnames
    hfield ha
  rw [on_field h] at hset
  obtain ⟨w, hw, -⟩ := map_eq_ok_iff.1 hset
  have hinto : ReadsInto (Json.Reader.record type fields blank) (depth + 1) c r.optional depth
      fun w => put w s := by
    intro v w hw
    refine hs v (put w) ?_
    rw [on_field h, hw]
    rfl
  exact ⟨s, w, hw, Except.ok.inj (ha.symm.trans (hinto u w hw)), hinto⟩

/-! ## Places of a document -/

/-- The two lists of a load. -/
inductive LoadList where
  | probes
  | vetoSignals

namespace LoadList

/-- The key of a list. -/
def key : LoadList → String
  | .probes => "required_probes"
  | .vetoSignals => "veto_signals"

/-- A list as a section gives it. -/
def given : LoadList → LoadSection → Option (List Scalar)
  | .probes => LoadSection.probes
  | .vetoSignals => LoadSection.vetoSignals

/-- A list put into a section. -/
def put : LoadList → Option (List Scalar) → LoadSection → LoadSection
  | .probes => fun v s => { s with probes := v }
  | .vetoSignals => fun v s => { s with vetoSignals := v }

/-- A list of a load class. -/
def texts : LoadList → LoadClass → List String
  | .probes => LoadClass.probes
  | .vetoSignals => LoadClass.vetoSignals

theorem find?_key (l : LoadList) :
    ((LoadSection.fields : List (Field Json.Reader _)).find? fun f => f.name == l.key) =
      some (field l.key (Format.list Format.scalar) l.put) := by
  cases l with
  | probes => rfl
  | vetoSignals => rfl

@[simp] theorem given_put (l : LoadList) (v : Option (List Scalar)) (s : LoadSection) :
    l.given (l.put v s) = v := by
  cases l with
  | probes => rfl
  | vetoSignals => rfl

@[simp] theorem minPressure_put (l : LoadList) (v : Option (List Scalar)) (s : LoadSection) :
    (l.put v s).minPressure = s.minPressure := by
  cases l with
  | probes => rfl
  | vetoSignals => rfl

/-- The texts of a list are those of its scalars. -/
theorem texts_of_resolvesTo {s : LoadSection} {c : LoadClass} (h : s.ResolvesTo c)
    (l : LoadList) : l.texts c = ((l.given s).getD []).map Scalar.toText := by
  cases l with
  | probes => exact h.probes
  | vetoSignals => exact h.vetoSignals

end LoadList

/-- The keys of the switches. -/
def switchKeys : List String := [
  "require_pass", "env_required", "run_required", "require_rgca_all_plus", "require_zd_plus",
  "require_zdm_plus", "require_thalet_plus", "require_bridgespec_plus", "require_tb_plus"]

/-- The places of a document at which a text or a switch is expected: the identity, an item of a
list of a load, the run that has to be, and the switches, each with what a section gives for it
and what it turns on. -/
inductive Spot where
  | id
  | listed (l : LoadList) (load : String) (place : Nat)
  | runMustBe
  | switch (key : String) (w : (OfficialSection → Option Scalar) × (Official → Bool))

/-- A document with a hole for a requirement. -/
inductive RequirementHole (key : String) : (Tree → Tree) → Prop where
  | mk {c d : Tree → Tree} (hc : FieldHole documentNames "official_require" c)
      (hd : FieldHole officialNames key d) : RequirementHole key fun u => c (d u)

theorem RequirementHole.ne_null {key : String} {c : Tree → Tree} (hole : RequirementHole key c)
    (u : Tree) : c u ≠ .null := by
  obtain ⟨hc, -⟩ := hole
  exact hc.ne_null _

namespace Spot

/-- A document with a hole in a place. -/
inductive Hole : Spot → (Tree → Tree) → Prop where
  | id {c : Tree → Tree} (hc : FieldHole documentNames "icemap_id" c) : Hole .id c
  | listed {l : LoadList} {load : String} {place : Nat} {c d e f : Tree → Tree}
      (hc : FieldHole documentNames "loads" c) (hd : EntryHole load d)
      (he : FieldHole loadNames l.key e) (hf : ItemHole place f) :
      Hole (.listed l load place) fun u => c (d (e (f u)))
  | runMustBe {c : Tree → Tree} (hc : RequirementHole "run_must_be" c) : Hole .runMustBe c
  | switch {key : String} {w : (OfficialSection → Option Scalar) × (Official → Bool)}
      {c : Tree → Tree} (hw : (key, w) ∈ switchKeys.zip OfficialSection.switches)
      (hc : RequirementHole key c) : Hole (.switch key w) c

/-- What a document gives at a place. -/
def given? : Spot → Document → Option Scalar
  | .id, d => d.id
  | .listed l load place, d =>
    ((sections d.loads).find? load).bind fun s => ((l.given s).getD [])[place]?
  | .runMustBe, d => (d.official.getD {}).runMustBe
  | .switch _ w, d => w.1 (d.official.getD {})

/-- A policy has at a place what becomes of a whole number: its decimal, or a switch that is on if
the number is not zero. -/
def Resolved (n : Int) (p : Policy) : Spot → Prop
  | .id => p.id = toString n
  | .listed l load place =>
    ∃ c, p.load? load = some c ∧ (l.texts c)[place]? = some (toString n)
  | .runMustBe => p.official.runMustBe = some (toString n)
  | .switch _ w => w.2 p.official = true ↔ n ≠ 0

end Spot

/-! ## Documents with a hole -/

/-- The pressures of a document by the names of its loads. -/
def Document.pressures (d : Document) : ByName (Option Scalar) :=
  (sections d.loads).map fun _ s => s.minPressure

/-- Documents in which the same names of pressures and tiers stand. -/
structure Document.SameNames (d d' : Document) : Prop where
  pressures : d.pressures = d'.pressures
  tier : (d.official.getD {}).readyTier = (d'.official.getD {}).readyTier

theorem Document.asksPressure_iff {d : Document} {load value : String} :
    d.AsksPressure load value ↔
      ∃ v, d.pressures.find? load = some v ∧ v.map Scalar.toText = some value := by
  rw [Document.AsksPressure, Document.pressures, ByName.find?_map]
  constructor
  · rintro ⟨s, hs, hvalue⟩
    exact ⟨s.minPressure, by rw [hs]; rfl, hvalue⟩
  · rintro ⟨v, hv, hvalue⟩
    obtain ⟨s, hs, rfl⟩ := Option.map_eq_some_iff.1 hv
    exact ⟨s, hs, hvalue⟩

/-- Only the names of pressures and tiers can keep a document from being a policy. -/
theorem Document.SameNames.exists_resolve {d d' : Document} (h : d.SameNames d') {p : Policy}
    (hp : d.resolve = .ok p) : ∃ p', d'.resolve = .ok p' := by
  obtain ⟨hknown, htier⟩ := Document.exists_resolve_iff.1 ⟨p, hp⟩
  refine Document.exists_resolve_iff.2 ⟨fun load value hasks => hknown load value ?_,
    fun value hasks => htier value ?_⟩
  · rw [Document.asksPressure_iff] at hasks ⊢
    rwa [h.pressures]
  · rw [Document.AsksTier] at hasks ⊢
    rwa [h.tier]

/-- The reader of documents that are not null. -/
abbrev documentReader : Json.Reader Document := .record "IcemapDocumentV1" Document.fields {}

/-- A requirement is the value of a field, which has nothing to do with the tier. -/
def SetsRequirement (key : String) (given : OfficialSection → Option Scalar) : Prop :=
  ∃ type put,
    ((OfficialSection.fields : List (Field Json.Reader _)).find? fun f => f.name == key) =
      some (field key (scalarReader type) put) ∧
    (∀ x s, given (put x s) = x) ∧ ∀ x s, (put x s).readyTier = s.readyTier

theorem setsRequirement_runMustBe : SetsRequirement "run_must_be" OfficialSection.runMustBe :=
  ⟨_, _, rfl, fun _ _ => rfl, fun _ _ => rfl⟩

theorem setsRequirement_switch {key : String}
    {w : (OfficialSection → Option Scalar) × (Official → Bool)}
    (hw : (key, w) ∈ switchKeys.zip OfficialSection.switches) : SetsRequirement key w.1 := by
  have hall : ∀ kw ∈ switchKeys.zip OfficialSection.switches, SetsRequirement kw.1 kw.2.1 := by
    simp only [switchKeys, OfficialSection.switches, List.zip_cons_cons, List.zip_nil_right,
      List.forall_mem_cons, List.not_mem_nil, false_imp_iff, implies_true, and_true]
    and_intros
    all_goals exact ⟨_, _, rfl, fun _ _ => rfl, fun _ _ => rfl⟩
  exact hall _ hw

section Reads

variable {c : Tree → Tree} {u v : Tree} {x : Scalar} {doc : Document}

variable (hv : ∀ type depth, (scalarReader type).on depth v = .ok x)
include hv

/-- An item of a list in the hole. -/
theorem reads_listed {l : LoadList} {load : String} {place : Nat} {d e f : Tree → Tree}
    (hc : FieldHole documentNames "loads" c) (hd : EntryHole load d)
    (he : FieldHole loadNames l.key e) (hf : ItemHole place f)
    (hdoc : documentReader.on 127 (c (d (e (f u)))) = .ok doc) :
    ∃ doc', documentReader.on 127 (c (d (e (f v)))) = .ok doc' ∧
      (∃ section', (sections doc'.loads).find? load = some section' ∧
        ((l.given section').getD [])[place]? = some x) ∧ doc.SameNames doc' := by
  have hlist : ReaderLaws (Format.list Format.scalar : Json.Reader (List Scalar)) :=
    readerLaws_scalar.list
  -- from the outside in: with `u` every layer has been read, so each is one with a hole
  obtain ⟨s, _, hloads, rfl, hinto⟩ := exists_of_fieldHole Document.fieldLaws Document.setApart
    (by decide) readerLaws_loads rfl hc hdoc
  obtain ⟨t, ht, rfl⟩ := readerLaws_loads.settled.exists_of_on_optional (hd.ne_null _) hloads
  obtain ⟨⟨_, hentry⟩, t₀, htable⟩ := hd.on_table LoadSection.readerLaws.optional.settled ht
  obtain rfl := Except.ok.inj ((htable _ _ hentry).symm.trans ht)
  obtain ⟨sec, hsec, rfl⟩ :=
    LoadSection.readerLaws.settled.exists_of_on_optional (he.ne_null _) hentry
  obtain ⟨s', _, hfield, rfl, hload⟩ := exists_of_fieldHole LoadSection.fieldLaws
    LoadSection.setApart (by decide) hlist l.find?_key he hsec
  obtain ⟨xs, hxs, rfl⟩ := hlist.settled.exists_of_on_optional (hf.ne_null u) hfield
  obtain ⟨bs, cs, hplace, hitem⟩ := hf.on_list readerLaws_scalar.settled hxs
  -- and from the inside out: what the layers are read as with `v` in the hole
  have hlistInto := hitem.optional hlist.settled hf.ne_null
  have hloadInto := (hload.comp hlistInto).optional LoadSection.readerLaws.settled
    fun v => he.ne_null (f v)
  have htableInto := (htable.comp hloadInto).optional readerLaws_loads.settled
    fun v => hd.ne_null (e (f v))
  have hinsert (w : Option (List Scalar)) : sections (some (t₀.insert load (some (l.put w s')))) =
      (sections (some t₀)).insert load (l.put w s') :=
    ByName.map_insert _ _ _ _
  refine ⟨_, hinto.comp htableInto v x (hv _ _), ⟨l.put (some (bs ++ x :: cs)) s', ?_, ?_⟩, ?_,
    rfl⟩
  · rw [hinsert]
    exact ByName.find?_insert _ _ _
  · rw [l.given_put, Option.getD_some, ← hplace, List.getElem?_append_right (Nat.le_refl _),
      Nat.sub_self, List.getElem?_cons_zero]
  · have hpressures (w : Option (List Scalar)) :
        (sections (some (t₀.insert load (some (l.put w s'))))).map (fun _ s => s.minPressure) =
          ((sections (some t₀)).map fun _ s => s.minPressure).insert load s'.minPressure := by
      rw [hinsert, ByName.map_insert, l.minPressure_put]
    exact (hpressures _).trans (hpressures _).symm

variable (hne : v ≠ .null)
include hne

/-- A field that is a scalar or null. -/
theorem optional_scalar (type : String) (depth : Nat) :
    (scalarReader type).optional.on depth v = .ok (some x) := by
  rw [(readerLaws_choice type Scalar.ofJson?).settled.on_optional hne, hv]
  rfl

/-- An identity in the hole. -/
theorem reads_id (hole : FieldHole documentNames "icemap_id" c)
    (hdoc : documentReader.on 127 (c u) = .ok doc) :
    ∃ doc', documentReader.on 127 (c v) = .ok doc' ∧ doc'.id = some x ∧ doc.SameNames doc' := by
  obtain ⟨s, w, -, rfl, hinto⟩ := exists_of_fieldHole Document.fieldLaws Document.setApart
    (by decide) readerLaws_scalar rfl hole hdoc
  exact ⟨_, hinto v _ (optional_scalar hv hne _ _), rfl, rfl, rfl⟩

/-- A requirement in the hole. -/
theorem reads_requirement {key : String} {given : OfficialSection → Option Scalar}
    (hsets : SetsRequirement key given) (hole : RequirementHole key c)
    (hdoc : documentReader.on 127 (c u) = .ok doc) :
    ∃ doc', documentReader.on 127 (c v) = .ok doc' ∧
      given (doc'.official.getD {}) = some x ∧ doc.SameNames doc' := by
  obtain ⟨type, put, hfield, hgiven, htier⟩ := hsets
  obtain ⟨hc, hd⟩ := hole
  obtain ⟨s, w, hw, rfl, hinto⟩ := exists_of_fieldHole Document.fieldLaws Document.setApart
    (by decide) OfficialSection.readerLaws rfl hc hdoc
  obtain ⟨o, ho, rfl⟩ := OfficialSection.readerLaws.settled.exists_of_on_optional (hd.ne_null u) hw
  obtain ⟨o, w, -, rfl, hofficial⟩ := exists_of_fieldHole OfficialSection.fieldLaws
    OfficialSection.setApart (by decide) (readerLaws_choice type Scalar.ofJson?) hfield hd ho
  have hread := hinto.comp (hofficial.optional OfficialSection.readerLaws.settled hd.ne_null)
  refine ⟨_, hread v _ (optional_scalar hv hne _ _), hgiven _ _, rfl, ?_⟩
  exact (htier _ _).trans (htier _ _).symm

/-- With a scalar in the hole a document is read that gives this scalar, and in which nothing else
is unknown. -/
theorem Spot.Hole.reads {spot : Spot} (hole : spot.Hole c)
    (hdoc : documentReader.on 127 (c u) = .ok doc) :
    ∃ doc', documentReader.on 127 (c v) = .ok doc' ∧ spot.given? doc' = some x ∧
      doc.SameNames doc' := by
  cases hole with
  | id hc => exact reads_id hv hne hc hdoc
  | listed hc hd he hf =>
    obtain ⟨doc', hdoc', ⟨section', hfind, hgiven⟩, hsame⟩ :=
      reads_listed hv hc hd he hf hdoc
    refine ⟨doc', hdoc', ?_, hsame⟩
    rw [Spot.given?, hfind]
    exact hgiven
  | runMustBe hc => exact reads_requirement hv hne setsRequirement_runMustBe hc hdoc
  | switch hw hc => exact reads_requirement hv hne (setsRequirement_switch hw) hc hdoc

end Reads

/-! ## What becomes of a whole number -/

theorem toString_ne_empty (n : Int) : toString n ≠ "" := by
  intro h
  obtain ⟨c, cs, hcs, -⟩ := Json.Lexeme.numberChars_eq_cons n
  have hlist : (toString n).toList = c :: cs := hcs
  rw [h] at hlist
  cases hlist

/-- What a policy has at a place of which the document gives a whole number. -/
theorem Spot.Hole.resolved {spot : Spot} {c : Tree → Tree} (hole : spot.Hole c) {doc : Document}
    {p : Policy} {n : Int} (hgiven : spot.given? doc = some (.whole n))
    (hp : doc.resolve = .ok p) : spot.Resolved n p := by
  have hresolves := Document.resolvesTo_of_resolve hp
  cases hole with
  | id hc =>
    have hid : doc.id = some (.whole n) := hgiven
    show p.id = toString n
    rw [hresolves.id, hid]
    rfl
  | @listed l load place _ _ _ _ hc hd he hf =>
    obtain ⟨s, hs, hx⟩ := Option.bind_eq_some_iff.1 hgiven
    obtain ⟨k, hk, hclass⟩ := hresolves.loads load s hs
    refine ⟨k, hk, ?_⟩
    rw [LoadList.texts_of_resolvesTo hclass, List.getElem?_map, hx]
    rfl
  | runMustBe hc =>
    have hrun : (doc.official.getD {}).runMustBe = some (.whole n) := hgiven
    refine (hresolves.official.runMustBe _).2 ⟨?_, toString_ne_empty n⟩
    rw [hrun]
    rfl
  | @switch key w _ hw hc =>
    have hon := hresolves.official.switches w (List.of_mem_zip hw).2
    have hscalar : w.1 (doc.official.getD {}) = some (.whole n) := hgiven
    show w.2 p.official = true ↔ n ≠ 0
    rw [hon, hscalar]
    simp [Scalar.isEnabled]

/-! ## Texts -/

/-- The text of a value, with white space around it. -/
def textOf (g : Gap) (t : Tree) (g' : Gap) : String :=
  String.ofList (g.chars ++ (t.chars ++ g'.chars))

/-- Every text of a policy is that of a value, with white space around it. -/
theorem exists_textOf {text : String} {p : Policy} (h : load text .json = .ok p) :
    ∃ g t g', text = textOf g t g' := by
  rw [load, parse, Document.ofJson] at h
  cases hdoc : Json.Reader.run (Document.reader : Json.Reader _) text with
  | error f =>
    rw [hdoc] at h
    cases h
  | ok d =>
    obtain ⟨g, t, g', htext⟩ := readerLaws_document.optional.readsValues.exists_tree hdoc
    refine ⟨g, t, g', ?_⟩
    rw [textOf, ← htext, String.ofList_toList]

/-- A text is that of a policy if its value is read as a document that resolves to the policy. -/
theorem load_textOf_eq_ok {g g' : Gap} {t : Tree} (ht : t ≠ .null) {p : Policy} :
    load (textOf g t g') .json = .ok p ↔
      ∃ doc, documentReader.on 127 t = .ok doc ∧ doc.resolve = .ok p := by
  have hrun : Json.Reader.run (Document.reader : Json.Reader _) (textOf g t g') =
      (documentReader.on 127 t).map some :=
    (readerLaws_document.optional.settled.run_eq g t g').trans
      (readerLaws_document.settled.on_optional ht 127)
  rw [load, parse, Document.ofJson, hrun]
  cases documentReader.on 127 t with
  | error f =>
    refine iff_of_false (fun h => by cases h) ?_
    rintro ⟨doc, hdoc, -⟩
    cases hdoc
  | ok doc =>
    constructor
    · intro h
      exact ⟨doc, rfl, h⟩
    · rintro ⟨_, hdoc, h⟩
      cases hdoc
      exact h

theorem Spot.Hole.ne_null {spot : Spot} {c : Tree → Tree} (hole : spot.Hole c) (u : Tree) :
    c u ≠ .null := by
  cases hole with
  | id hc => exact hc.ne_null u
  | listed hc => exact hc.ne_null _
  | runMustBe hc => exact hc.ne_null u
  | switch _ hc => exact hc.ne_null u

/-- A text that is that of a policy with some value in the hole is that of a policy with every
whole number in it, and the policy keeps the number. -/
theorem Spot.Hole.exists_load {spot : Spot} {c : Tree → Tree} (hole : spot.Hole c) {n : Int}
    (hn : Width.isSigned 64 n = true) {k : Numeral} (hk : k.chars = (toString n).toList) {u : Tree}
    {g g' : Gap} {p : Policy} (hp : load (textOf g (c u) g') .json = .ok p) :
    ∃ p', load (textOf g (c (.number k)) g') .json = .ok p' ∧ spot.Resolved n p' := by
  obtain ⟨doc, hdoc, hresolve⟩ := (load_textOf_eq_ok (hole.ne_null u)).1 hp
  obtain ⟨doc', hdoc', hgiven, hsame⟩ :=
    hole.reads (scalarReader_number hn hk) Tree.noConfusion hdoc
  obtain ⟨p', hp'⟩ := hsame.exists_resolve hresolve
  exact ⟨p', (load_textOf_eq_ok (hole.ne_null _)).2 ⟨doc', hdoc', hp'⟩, hole.resolved hgiven hp'⟩

/-! ## The identity -/

/-- A name is wrong if it is not that of the policy. -/
theorem exists_mismatch_iff {t : TokenSet} {p : Policy} {required : Bool} {load name : String}
    {k : LoadClass} (hload : t.firstValue "~LOAD:" = some load) (hk : p.load? load = some k)
    (hname : t.firstValue "~ICEMAP:" = some name) :
    (∃ g ∈ (Lint.lintTokens t p required).findings, g.code = "icemap_mismatch") ↔ name ≠ p.id := by
  have hcode : ∀ c ∈ Lint.Clause.all, c.code = .icemapMismatch ↔ c = .misnamed := by decide
  refine (Lint.exists_finding_iff (c := .icemapMismatch)).trans ?_
  constructor
  · rintro ⟨c, hc, hcode', hviolated⟩
    obtain rfl := (hcode c hc).1 hcode'
    obtain ⟨_, _, name', -, hname', hne⟩ := hviolated
    rwa [Option.some_inj.1 (hname.symm.trans hname')]
  · intro hne
    exact ⟨.misnamed, Lint.mem_all_clauses _, rfl, load, k, name, ⟨hload, hk⟩, hname, hne⟩

/-- The decimals of different numbers are different, since a number is read from its decimal. -/
theorem toString_inj {m n : Int} : toString m = toString n ↔ m = n := by
  have hread (n : Int) : Yaml.Plain.whole? (toString n).toList = some n :=
    Yaml.Plain.whole?_numberChars n
  refine ⟨fun h => Option.some_inj.1 ?_, congrArg _⟩
  rw [← hread m, ← hread n, h]

/-- **Whole numbers keep their spelling.**  Every JSON text of a policy is a value with white space
around it.  Every whole number from `-2^63` to `2^63 - 1` has a decimal, and if a JSON text is that
of a policy with any value at all as the identity, as an item of a list of a load, as the run that
has to be or as a switch, then with this decimal in the place of the value it is that of a policy
too, which has just the decimal there, or a switch that is on if the number is not zero.

If the number is the identity, and the first load of a text is one of the policy, then a first
name that is the decimal of a number is reported as wrong if this is another number. -/
theorem whole_scalars_kept {n : Int} (hleast : -2 ^ 63 ≤ n) (hgreatest : n ≤ 2 ^ 63 - 1) :
    (∀ (text : String) (p : Policy), load text .json = .ok p → ∃ g t g', text = textOf g t g') ∧
    ∃ k : Numeral, k.chars = (toString n).toList ∧
      (∀ (spot : Spot) (c : Tree → Tree), spot.Hole c → ∀ (u : Tree) (g g' : Gap) (p : Policy),
        load (textOf g (c u) g') .json = .ok p →
          ∃ p', load (textOf g (c (.number k)) g') .json = .ok p' ∧ spot.Resolved n p') ∧
      ∀ c, Spot.id.Hole c → ∀ (g g' : Gap) (p : Policy),
        load (textOf g (c (.number k)) g') .json = .ok p →
          ∀ (text first : String) (loadClass : LoadClass) (m : Int) (required : Bool),
            (TokenSet.ofText text).firstValue "~LOAD:" = some first →
            p.load? first = some loadClass →
            (TokenSet.ofText text).firstValue "~ICEMAP:" = some (toString m) →
            ((∃ g ∈ (Lint.lint text p required).findings, g.code = "icemap_mismatch") ↔ m ≠ n) := by
  have hn : Width.isSigned 64 n = true := by
    have hsize : (Width.size (64 - 1) : Int) = 2 ^ 63 := by decide
    rw [Width.isSigned, hsize, Bool.and_eq_true, decide_eq_true_eq, decide_eq_true_eq]
    exact ⟨hleast, Int.lt_of_le_sub_one hgreatest⟩
  obtain ⟨k, hk⟩ := exists_numeral_of_fits (fits_of_isSigned hn)
  refine ⟨fun text p hp => exists_textOf hp, k, hk,
    fun spot c hole u g g' p hp => hole.exists_load hn hk hp, ?_⟩
  intro c hole g g' p hp text first loadClass m required hload hclass hname
  obtain ⟨p', hp', hid⟩ := hole.exists_load hn hk hp
  obtain rfl : p = p' := Except.ok.inj (hp.symm.trans hp')
  have hid' : p.id = toString n := hid
  rw [Lint.lint, exists_mismatch_iff hload hclass hname, hid', Ne, toString_inj]

/-- A policy with one load, and a hole for its identity. -/
def idHole (v : Tree) : Tree :=
  .object [(idLabel, v), (loadsLabel, .object [(labLabel, .null)] .none)] .none

theorem hole_idHole : Spot.id.Hole idHole := .id (.member [] _ _ .none rfl)

/-- The least number is kept, and a text that names another one is told so. -/
theorem whole_scalars_kept_least :
    ∃ p, load "\x7b\"icemap_id\":-9223372036854775808,\"loads\":\x7b\"lab\":null\x7d\x7d" .json =
        .ok p ∧
      p.id = "-9223372036854775808" ∧
      ((∃ g ∈ (Lint.lint "~LOAD:lab ~ICEMAP:0" p false).findings, g.code = "icemap_mismatch") ↔
        (0 : Int) ≠ -2 ^ 63) := by
  obtain ⟨-, k, hk, hspots, hnames⟩ :=
    whole_scalars_kept (n := -2 ^ 63) (Int.le_refl _) (by decide)
  have htext : textOf .none (idHole (.number k)) .none =
      "\x7b\"icemap_id\":-9223372036854775808,\"loads\":\x7b\"lab\":null\x7d\x7d" := by
    simp only [textOf, idHole, Tree.chars, Tree.memberChars, hk]
    rfl
  have hload : load (textOf .none (idHole (.number k)) .none) .json =
      .ok ⟨"-9223372036854775808", .ofList [("lab", {})], {}⟩ := by
    rw [htext]
    rfl
  obtain ⟨p, hp, hid⟩ := hspots .id idHole hole_idHole (.number k) .none .none _ hload
  obtain rfl := Except.ok.inj (hload.symm.trans hp)
  rw [← htext]
  exact ⟨_, hload, hid, hnames idHole hole_idHole .none .none _ hload "~LOAD:lab ~ICEMAP:0" "lab"
    {} 0 false (by decide +kernel) rfl (by decide +kernel)⟩

end Policy
end GlyphLine
