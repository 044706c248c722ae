import GlyphLine.Policy.Loading
import GlyphLine.Proofs.Json.Grammar
import GlyphLine.Proofs.Json.Members
import GlyphLine.Proofs.Policy.Resolution
import Mathlib.Logic.Relation

/-!
# The spelling of a policy is of no account

A policy that is a JSON object can be written differently and stays the same policy: with other
members in its records, in another order, and with what is missing written as null.  White space
is of no account either, and members of unknown keys may have any value at all, since they are
skipped: one that is nested deeper than values may be, or numbers that are too large for values.

Two documents may come of this that are not the same, namely if a load that was null becomes an
object without members.  They resolve to the same policy.

* `ObjectText`: the texts of objects.
* `DocumentEdit`: the ways to write the members of a document differently.

## Main statements

* `ObjectText.exists_of_load`: every text of a policy that begins like an object is one.
* `respelled_policy`: **a document that is written differently is the same policy**.
-/

namespace GlyphLine
namespace Policy

open Json (Gap Tree Label Quoted)

/-! ## The fields of a document -/

/-- A reader that makes the same of a value wherever it stands, and accepts only values. -/
structure ReaderLaws {α : Type} (r : Json.Reader α) : Prop where
  settled : Json.Settled r
  readsValues : Json.ReadsValues r

/-- What all fields of a document have in common. -/
structure FieldLaws {σ : Type} (blank : σ) (f : Field Json.Reader σ) : Prop where
  settled : Json.Settled f.read
  readsValues : Json.ReadsValues f.read
  null : ∀ depth, ∃ set, f.read.on depth .null = .ok set ∧ set blank = blank

variable {α β σ : Type}

theorem readerLaws_choice (type : String) (choose : Json → Option α) :
    ReaderLaws (Json.Reader.choice type choose) :=
  ⟨Json.settled_choice type choose, Json.readsValues_choice type choose⟩

theorem ReaderLaws.list {r : Json.Reader α} (h : ReaderLaws r) : ReaderLaws r.list :=
  ⟨h.settled.list, h.readsValues.list⟩

theorem ReaderLaws.optional {r : Json.Reader α} (h : ReaderLaws r) : ReaderLaws r.optional :=
  ⟨h.settled.optional, h.readsValues.optional⟩

theorem ReaderLaws.table {r : Json.Reader α} (h : ReaderLaws r) : ReaderLaws r.table :=
  ⟨h.settled.table, h.readsValues.table⟩

theorem readerLaws_record {type : String} {fields : List (Field Json.Reader σ)} {blank : σ}
    (h : ∀ f ∈ fields, FieldLaws blank f) : ReaderLaws (Json.Reader.record type fields blank) :=
  ⟨Json.settled_record fun f hf => (h f hf).settled,
    Json.readsValues_record fun f hf => (h f hf).readsValues⟩

/-- What a field makes of a value: it is set to what the value is read as, or to none. -/
theorem on_field {r : Json.Reader α} (h : ReaderLaws r) (name : String) (set : Option α → σ → σ)
    (depth : Nat) (t : Tree) :
    (field name r set : Field Json.Reader σ).read.on depth t = (r.optional.on depth t).map set :=
  h.settled.optional.on_map set depth t

theorem fieldLaws {r : Json.Reader α} (h : ReaderLaws r) (name : String)
    {set : Option α → σ → σ} {blank : σ} (hblank : set none blank = blank) :
    FieldLaws blank (field name r set) where
  settled := h.settled.optional.map set
  readsValues := h.readsValues.optional.map set
  null depth := by
    refine ⟨set none, ?_, hblank⟩
    rw [on_field h, (Json.Finds.optional_null r depth).on_eq]
    rfl

/-- A field is set in no other way than to a value or to none. -/
theorem exists_of_sets {r : Json.Reader α} (h : ReaderLaws r) {name : String}
    {put : Option α → σ → σ} {set : σ → σ}
    (hset : Json.Sets (field name r put : Field Json.Reader σ) set) : ∃ v, set = put v := by
  obtain ⟨depth, t, ht⟩ := hset
  rw [on_field h] at ht
  obtain ⟨v, -, rfl⟩ := map_eq_ok_iff.1 ht
  exact ⟨v, rfl⟩

/-- Fields are set apart from each other if their values are. -/
theorem setApart_field {r : Json.Reader α} {r' : Json.Reader β} (h : ReaderLaws r)
    (h' : ReaderLaws r') {name name' : String} {put : Option α → σ → σ} {put' : Option β → σ → σ}
    (hput : ∀ v w s, put v (put' w s) = put' w (put v s)) :
    Json.SetApart (field name r put : Field Json.Reader σ) (field name' r' put') := by
  intro set set' hset hset' s
  obtain ⟨v, rfl⟩ := exists_of_sets h hset
  obtain ⟨w, rfl⟩ := exists_of_sets h' hset'
  exact hput v w s

theorem readerLaws_scalar : ReaderLaws (Format.scalar : Json.Reader Scalar) :=
  readerLaws_choice _ _

theorem LoadSection.fieldLaws :
    ∀ f ∈ (fields : List (Field Json.Reader LoadSection)), FieldLaws {} f := by
  simp only [fields, List.forall_mem_cons, List.not_mem_nil, false_imp_iff, implies_true, and_true]
  exact ⟨Policy.fieldLaws readerLaws_scalar _ rfl, Policy.fieldLaws readerLaws_scalar.list _ rfl,
    Policy.fieldLaws readerLaws_scalar.list _ rfl⟩

theorem LoadSection.setApart :
    (fields : List (Field Json.Reader LoadSection)).Pairwise Json.SetApart := by
  simp only [fields, List.pairwise_cons, List.forall_mem_cons, List.not_mem_nil, false_imp_iff,
    implies_true, and_true, List.Pairwise.nil]
  exact ⟨⟨setApart_field readerLaws_scalar readerLaws_scalar.list fun _ _ _ => rfl,
      setApart_field readerLaws_scalar readerLaws_scalar.list fun _ _ _ => rfl⟩,
    setApart_field readerLaws_scalar.list readerLaws_scalar.list fun _ _ _ => rfl⟩

theorem LoadSection.readerLaws : ReaderLaws (reader : Json.Reader LoadSection) :=
  readerLaws_record LoadSection.fieldLaws

/-- Scalars and switches are read alike, so that the fields are settled by one argument. -/
theorem OfficialSection.fieldLaws :
    ∀ f ∈ (fields : List (Field Json.Reader OfficialSection)), FieldLaws {} f := by
  simp only [fields, List.forall_mem_cons, List.not_mem_nil, false_imp_iff, implies_true, and_true]
  and_intros
  all_goals exact Policy.fieldLaws (readerLaws_choice _ _) _ rfl

theorem OfficialSection.setApart :
    (fields : List (Field Json.Reader OfficialSection)).Pairwise Json.SetApart := by
  simp only [fields, List.pairwise_cons, List.forall_mem_cons, List.not_mem_nil, false_imp_iff,
    implies_true, and_true, List.Pairwise.nil]
  and_intros
  all_goals exact setApart_field (readerLaws_choice _ _) (readerLaws_choice _ _) fun _ _ _ => rfl

theorem OfficialSection.readerLaws : ReaderLaws (reader : Json.Reader OfficialSection) :=
  readerLaws_record OfficialSection.fieldLaws

/-- The reader of the sections of load classes. -/
theorem readerLaws_loads :
    ReaderLaws (Json.Reader.table (Json.Reader.optional (LoadSection.reader : Json.Reader _))) :=
  LoadSection.readerLaws.optional.table

theorem Document.fieldLaws :
    ∀ f ∈ (fields : List (Field Json.Reader Document)), FieldLaws {} f := by
  simp only [fields, List.forall_mem_cons, List.not_mem_nil, false_imp_iff, implies_true, and_true]
  exact ⟨Policy.fieldLaws readerLaws_scalar _ rfl, Policy.fieldLaws readerLaws_loads _ rfl,
    Policy.fieldLaws OfficialSection.readerLaws _ rfl⟩

theorem Document.setApart :
    (fields : List (Field Json.Reader Document)).Pairwise Json.SetApart := by
  simp only [fields, List.pairwise_cons, List.forall_mem_cons, List.not_mem_nil, false_imp_iff,
    implies_true, and_true, List.Pairwise.nil]
  exact ⟨⟨setApart_field readerLaws_scalar readerLaws_loads fun _ _ _ => rfl,
      setApart_field readerLaws_scalar OfficialSection.readerLaws fun _ _ _ => rfl⟩,
    setApart_field readerLaws_loads OfficialSection.readerLaws fun _ _ _ => rfl⟩

/-! ## Documents that resolve alike -/

/-- Documents that are the same, except that a load that is null in one of them may be without
fields in the other. -/
structure Alike (d d' : Document) : Prop where
  id : d.id = d'.id
  loads : sections d.loads = sections d'.loads
  official : d.official = d'.official

theorem Alike.refl (d : Document) : Alike d d := ⟨rfl, rfl, rfl⟩

theorem Alike.resolve {d d' : Document} (h : Alike d d') : d.resolve = d'.resolve := by
  rw [Document.resolve, Document.resolve, resolveLoads_eq, resolveLoads_eq, h.id, h.loads,
    h.official]

/-- Setting a field keeps documents alike. -/
theorem Alike.set {f : Field Json.Reader Document} (hf : f ∈ (Document.fields : List _))
    {set : Document → Document} (hset : Json.Sets f set) {d d' : Document} (h : Alike d d') :
    Alike (set d) (set d') := by
  simp only [Document.fields, List.mem_cons, List.not_mem_nil, or_false] at hf
  rcases hf with rfl | rfl | rfl
  · obtain ⟨v, rfl⟩ := exists_of_sets readerLaws_scalar hset
    exact ⟨rfl, h.loads, h.official⟩
  · obtain ⟨v, rfl⟩ := exists_of_sets readerLaws_loads hset
    exact ⟨h.id, rfl, h.official⟩
  · obtain ⟨v, rfl⟩ := exists_of_sets OfficialSection.readerLaws hset
    exact ⟨h.id, h.loads, rfl⟩

/-! ## Documents that are written differently -/

/-- The names of the fields of a document, of a load and of the requirements. -/
def documentNames : List String := (Document.fields : List (Field Json.Reader _)).map Field.name

@[inherit_doc documentNames]
def loadNames : List String := (LoadSection.fields : List (Field Json.Reader _)).map Field.name

@[inherit_doc documentNames]
def officialNames : List String :=
  (OfficialSection.fields : List (Field Json.Reader _)).map Field.name

/-- Ways to write the loads differently: they are put in another order, if their names are
different, a load that is null becomes one without members, or the members of a load are written
differently. -/
inductive LoadsEdit : List (Quoted × Tree) → List (Quoted × Tree) → Prop where
  | reorder {ms ms' : List (Quoted × Tree)} (h : ms.Perm ms')
      (hdistinct : (ms.map fun m => m.1.text).Nodup) : LoadsEdit ms ms'
  | empty {before after : List (Quoted × Tree)} (q : Quoted) (last : Gap) :
      LoadsEdit (before ++ (q, .null) :: after) (before ++ (q, .object [] last) :: after)
  | load {before after : List (Quoted × Tree)} (q : Quoted) {ms ms' : List (Label × Tree)}
      (last last' : Gap) (h : Json.RecordEdit loadNames (Tree.cores ms) (Tree.cores ms')) :
      LoadsEdit (before ++ (q, .object ms last) :: after)
        (before ++ (q, .object ms' last') :: after)

/-- Ways to write the members of a document differently: its own members, its loads, or its
requirements. -/
inductive DocumentEdit : List (Quoted × Tree) → List (Quoted × Tree) → Prop where
  | record {ms ms' : List (Quoted × Tree)} (h : Json.RecordEdit documentNames ms ms') :
      DocumentEdit ms ms'
  | loads {before after : List (Quoted × Tree)} {q : Quoted} {ms ms' : List (Label × Tree)}
      (hkey : q.text = .ok "loads") (last last' : Gap)
      (h : LoadsEdit (Tree.cores ms) (Tree.cores ms')) :
      DocumentEdit (before ++ (q, .object ms last) :: after)
        (before ++ (q, .object ms' last') :: after)
  | official {before after : List (Quoted × Tree)} {q : Quoted} {ms ms' : List (Label × Tree)}
      (hkey : q.text = .ok "official_require") (last last' : Gap)
      (h : Json.RecordEdit officialNames (Tree.cores ms) (Tree.cores ms')) :
      DocumentEdit (before ++ (q, .object ms last) :: after)
        (before ++ (q, .object ms' last') :: after)

/-- A record that is written differently is read as the same record. -/
theorem on_record_of_edit {type : String} {fields : List (Field Json.Reader σ)} {blank : σ}
    (hlaws : ∀ f ∈ fields, FieldLaws blank f) (hapart : fields.Pairwise Json.SetApart)
    {ms ms' : List (Label × Tree)}
    (h : Json.RecordEdit (fields.map Field.name) (Tree.cores ms) (Tree.cores ms')) {depth : Nat}
    (last last' : Gap) {a : σ}
    (ha : (Json.Reader.record type fields blank).on (depth + 1) (.object ms last) = .ok a) :
    (Json.Reader.record type fields blank).on (depth + 1) (.object ms' last') = .ok a := by
  have hsettled : ∀ f ∈ fields, Json.Settled f.read := fun f hf => (hlaws f hf).settled
  rw [Json.on_record_eq_ok hsettled] at ha ⊢
  exact h.fillsRecord hapart (fun f hf => (hlaws f hf).null) ha

/-- An object is not null. -/
theorem on_optional_object {r : Json.Reader α} (h : ReaderLaws r) (depth : Nat)
    (ms : List (Label × Tree)) (last : Gap) :
    r.optional.on depth (.object ms last) = (r.on depth (.object ms last)).map some :=
  h.settled.on_optional (fun heq => by cases heq) depth

/-- A field whose value is an object is set to what the object is read as. -/
theorem on_field_object_eq_ok {r : Json.Reader α} (h : ReaderLaws r) {name : String}
    {put : Option α → σ → σ} {depth : Nat} {ms : List (Label × Tree)} {last : Gap} {set : σ → σ} :
    (field name r put : Field Json.Reader σ).read.on depth (.object ms last) = .ok set ↔
      ∃ v, r.on depth (.object ms last) = .ok v ∧ put (some v) = set := by
  rw [on_field h, on_optional_object h, map_eq_ok_iff]
  constructor
  · rintro ⟨_, hsome, rfl⟩
    obtain ⟨v, hv, rfl⟩ := map_eq_ok_iff.1 hsome
    exact ⟨v, hv, rfl⟩
  · rintro ⟨v, hv, rfl⟩
    exact ⟨some v, map_eq_ok_iff.2 ⟨v, hv, rfl⟩, rfl⟩

/-- Loads that are written differently have the same sections. -/
theorem LoadsEdit.builds {cs cs' : List (Quoted × Tree)} (h : LoadsEdit cs cs') {depth : Nat}
    {a : ByName (Option LoadSection)}
    (ha : Json.Builds (Json.entryEffect (LoadSection.reader : Json.Reader _).optional (depth + 1))
      cs .empty a) :
    ∃ a', Json.Builds (Json.entryEffect (LoadSection.reader : Json.Reader _).optional (depth + 1))
      cs' .empty a' ∧ sections (some a) = sections (some a') := by
  cases h with
  | reorder hp hdistinct =>
    refine ⟨a, ha.perm (Json.commuting_entryEffect _ _) hp ?_, rfl⟩
    exact Json.nodup_changed_entryEffect ha.accepted hdistinct
  | empty q last =>
    refine ha.replace_entry (fun v hv => ?_)
    rw [(Json.Finds.optional_null _ _).on_eq] at hv
    cases hv
    -- null is no load and the empty object is one without fields: the sections are the same
    refine ⟨some {}, ?_, fun _ => rfl⟩
    rw [on_optional_object LoadSection.readerLaws]
    have hempty : (LoadSection.reader : Json.Reader _).on (depth + 1) (.object [] last) = .ok {} :=
      Json.on_record (fun f hf => (LoadSection.fieldLaws f hf).settled) depth [] last
    rw [hempty]
    rfl
  | load q last last' hrecord =>
    refine ha.replace_entry (fun v hv => ⟨v, ?_, fun _ => rfl⟩)
    rw [on_optional_object LoadSection.readerLaws] at hv ⊢
    obtain ⟨s, hs, rfl⟩ := map_eq_ok_iff.1 hv
    refine map_eq_ok_iff.2 ⟨s, ?_, rfl⟩
    exact on_record_of_edit LoadSection.fieldLaws LoadSection.setApart hrecord last last' hs

/-- A document that is written differently is a document like it. -/
theorem DocumentEdit.fillsRecord {cs cs' : List (Quoted × Tree)} (h : DocumentEdit cs cs')
    {depth : Nat} {d : Document}
    (hd : Json.FillsRecord Document.fields (depth + 2) cs {} d) :
    ∃ d', Json.FillsRecord Document.fields (depth + 2) cs' {} d' ∧ Alike d d' := by
  have hkeep : ∀ f ∈ (Document.fields : List (Field Json.Reader _)), ∀ set, Json.Sets f set →
      ∀ d d', Alike d d' → Alike (set d) (set d') := fun f hf set hset d d' => Alike.set hf hset
  cases h with
  | record hrecord =>
    refine ⟨d, hrecord.fillsRecord Document.setApart (fun f hf => ?_) hd, Alike.refl d⟩
    exact (Document.fieldLaws f hf).null
  | @loads before after q ms ms' hkey last last' hloads =>
    refine hd.replace hkeep hkey rfl fun set hset => ?_
    obtain ⟨a, ha, rfl⟩ := (on_field_object_eq_ok readerLaws_loads).1 hset
    have hbuilds := (LoadSection.readerLaws.optional.settled.on_table_eq_ok).1 ha
    obtain ⟨a', ha', hsame⟩ := hloads.builds hbuilds
    have hread : (LoadSection.reader : Json.Reader _).optional.table.on (depth + 2)
        (.object ms' last') = .ok a' :=
      LoadSection.readerLaws.optional.settled.on_table_eq_ok.2 ha'
    exact ⟨_, (on_field_object_eq_ok readerLaws_loads).2 ⟨a', hread, rfl⟩,
      fun d => ⟨rfl, hsame, rfl⟩⟩
  | official hkey last last' hrecord =>
    refine hd.replace hkeep hkey rfl fun set hset => ?_
    obtain ⟨s, hs, rfl⟩ := (on_field_object_eq_ok OfficialSection.readerLaws).1 hset
    have hread := on_record_of_edit OfficialSection.fieldLaws OfficialSection.setApart hrecord last
      last' hs
    exact ⟨_, (on_field_object_eq_ok OfficialSection.readerLaws).2 ⟨s, hread, rfl⟩,
      fun d => Alike.refl _⟩

/-! ## Texts -/

/-- The text of an object: its members, and the white space around it and in front of its last
brace. -/
structure ObjectText where
  before : Gap
  members : List (Label × Tree)
  last : Gap
  behind : Gap

namespace ObjectText

/-- The object that is written. -/
def tree (o : ObjectText) : Tree := .object o.members o.last

/-- The text. -/
def text (o : ObjectText) : String :=
  String.ofList (o.before.chars ++ (o.tree.chars ++ o.behind.chars))

/-- The keys and the values of the members. -/
def cores (o : ObjectText) : List (Quoted × Tree) := Tree.cores o.members

end ObjectText

/-- The reader of a whole document. -/
theorem readerLaws_document :
    ReaderLaws (Json.Reader.record "IcemapDocumentV1"
      (Document.fields : List (Field Json.Reader _)) {}) :=
  readerLaws_record Document.fieldLaws

/-- Members of a document that resolves to a policy. -/
def MeanPolicy (cs : List (Quoted × Tree)) (p : Policy) : Prop :=
  ∃ d, Json.FillsRecord Document.fields 126 cs {} d ∧ d.resolve = .ok p

/-- The text of an object is that of a policy if its members mean the policy.  Its lists and
objects may be nested a hundred and twenty-seven deep, the object itself included. -/
theorem load_objectText_eq_ok {o : ObjectText} {p : Policy} :
    load o.text .json = .ok p ↔ MeanPolicy o.cores p := by
  have hrun : Json.Reader.run (Document.reader : Json.Reader _) o.text =
      ((Json.Reader.record "IcemapDocumentV1" Document.fields {}).on 127 o.tree).map some := by
    refine (readerLaws_document.optional.settled.run_eq o.before o.tree o.behind).trans ?_
    exact on_optional_object readerLaws_document 127 o.members o.last
  have hon {d : Document} :
      (Json.Reader.record "IcemapDocumentV1" Document.fields {}).on 127 o.tree = .ok d ↔
        Json.FillsRecord Document.fields 126 o.cores {} d :=
    Json.on_record_eq_ok fun f hf => (Document.fieldLaws f hf).settled
  rw [load, parse, Document.ofJson, hrun]
  cases hd : (Json.Reader.record "IcemapDocumentV1" Document.fields {}).on 127 o.tree with
  | error f =>
    refine iff_of_false (fun h => by cases h) ?_
    rintro ⟨d, hfills, -⟩
    rw [hon.2 hfills] at hd
    cases hd
  | ok d =>
    constructor
    · intro h
      exact ⟨d, hon.1 hd, h⟩
    · rintro ⟨d', hfills, h⟩
      rw [hon.2 hfills] at hd
      cases hd
      exact h

/-- A text of a policy that begins like an object is the text of an object. -/
theorem ObjectText.exists_of_load {text : String} {p : Policy} (h : load text .json = .ok p)
    (hbrace : (Json.Lexeme.skipSpace text.toList).head? = some '{') :
    ∃ o : ObjectText, o.text = text := by
  have hread : ∃ d, Json.Reader.run (Document.reader : Json.Reader _) text = .ok d := by
    rw [load, parse, Document.ofJson] at h
    cases hd : Json.Reader.run (Document.reader : Json.Reader _) text with
    | error f =>
      rw [hd] at h
      cases h
    | ok d => exact ⟨d, rfl⟩
  obtain ⟨d, hd⟩ := hread
  obtain ⟨g, t, g', htext⟩ := readerLaws_document.optional.readsValues.exists_tree hd
  obtain ⟨c, cs, hc, hopen⟩ := t.exists_opening
  rw [htext, Json.skipSpace_gap, hc, List.cons_append, Json.skipSpace_cons hopen.space] at hbrace
  obtain ⟨ms, last, rfl⟩ := hopen.object (Option.some.inj hbrace)
  refine ⟨⟨g, ms, last, g'⟩, ?_⟩
  rw [ObjectText.text, ← String.ofList_toList (s := text), htext]
  rfl

/-- Each way to write a document differently leaves the policy as it is. -/
theorem MeanPolicy.edit {cs cs' : List (Quoted × Tree)} {p : Policy} (h : MeanPolicy cs p)
    (hedit : DocumentEdit cs cs') : MeanPolicy cs' p := by
  obtain ⟨d, hd, hresolve⟩ := h
  obtain ⟨d', hd', halike⟩ := hedit.fillsRecord hd
  exact ⟨d', hd', halike.resolve ▸ hresolve⟩

theorem MeanPolicy.edits {cs cs' : List (Quoted × Tree)} {p : Policy} (h : MeanPolicy cs p)
    (hedits : Relation.ReflTransGen DocumentEdit cs cs') : MeanPolicy cs' p := by
  induction hedits with
  | refl => exact h
  | tail _ hedit ih => exact ih.edit hedit

/-- A policy may be written differently: every text of a policy that begins like an object is
the text of one, and every text of an object whose members come from its members by any number
of edits is a text of the same policy. -/
theorem respelled_policy :
    (∀ (text : String) (p : Policy), load text .json = .ok p →
      (Json.Lexeme.skipSpace text.toList).head? = some '{' → ∃ o : ObjectText, o.text = text) ∧
    ∀ (o o' : ObjectText) (p : Policy), load o.text .json = .ok p →
      Relation.ReflTransGen DocumentEdit o.cores o'.cores → load o'.text .json = .ok p := by
  refine ⟨fun text p => ObjectText.exists_of_load, fun o o' p hp hedits => ?_⟩
  rw [load_objectText_eq_ok] at hp ⊢
  exact hp.edits hedits

/-- A number that is too large for a double. -/
def hugeNumber : Json.Numeral where
  negative := false
  whole := ⟨'1', [], List.forall_mem_singleton.mpr rfl⟩
  proper := fun _ => rfl
  fraction := none
  exponent := some ⟨false, none, '9', ['9', '9', '9'], List.all_eq_true.mp rfl⟩

/-- The key of the identity. -/
def idLabel : Label := .plain ['i', 'c', 'e', 'm', 'a', 'p', '_', 'i', 'd'] rfl

/-- The key of the loads. -/
def loadsLabel : Label := .plain ['l', 'o', 'a', 'd', 's'] rfl

/-- The key of a load. -/
def labLabel : Label := .plain ['l', 'a', 'b'] rfl

/-- A key that no field has. -/
def noteLabel : Label := .plain ['n', 'o', 't', 'e'] rfl

/-- The key of the requirements. -/
def officialLabel : Label :=
  .plain ['o', 'f', 'f', 'i', 'c', 'i', 'a', 'l', '_', 'r', 'e', 'q', 'u', 'i', 'r', 'e'] rfl

/-- A policy with one load, which is null. -/
def shortSpelling : ObjectText where
  before := .none
  members := [(idLabel, .string (.plain ['i', 'c', 'e'] rfl)),
    (loadsLabel, .object [(labLabel, .null)] .none)]
  last := .none
  behind := .none

/-- The same policy with its loads in front, a member that is skipped, an object for the load,
null for the requirements, and a line feed at the end. -/
def longSpelling : ObjectText where
  before := .none
  members := [(loadsLabel, .object [(labLabel, .object [] .none)] .none),
    (noteLabel, .number hugeNumber), (idLabel, .string (.plain ['i', 'c', 'e'] rfl)),
    (officialLabel, .null)]
  last := .none
  behind := ⟨['\n'], List.forall_mem_singleton.mpr (.inr (.inl rfl))⟩

/-- The second spelling comes from the first by one edit of each kind. -/
theorem edits_longSpelling :
    Relation.ReflTransGen DocumentEdit shortSpelling.cores longSpelling.cores := by
  let id : Quoted × Tree := (idLabel.key, .string (.plain ['i', 'c', 'e'] rfl))
  let note : Quoted × Tree := (noteLabel.key, .number hugeNumber)
  let loads (load : Tree) : Quoted × Tree := (loadsLabel.key, .object [(labLabel, load)] .none)
  let official : Quoted × Tree := (officialLabel.key, .null)
  have hnote :
      Json.RecordEdit documentNames ([id] ++ [loads .null]) ([id] ++ note :: [loads .null]) :=
    .insert _ (rfl : note.1.text = .ok "note") (by decide)
  have hofficial : Json.RecordEdit documentNames ([id, note, loads .null] ++ [])
      ([id, note, loads .null] ++ official :: []) :=
    .null (rfl : official.1.text = .ok "official_require") (by decide) (by decide)
  have hload : LoadsEdit ([] ++ [(labLabel.key, .null)])
      ([] ++ [(labLabel.key, .object [] .none)]) := .empty _ .none
  have hloads : DocumentEdit ([id, note] ++ loads .null :: [official])
      ([id, note] ++ loads (.object [] .none) :: [official]) := .loads rfl .none .none hload
  have horder : Json.RecordEdit documentNames [id, note, loads (.object [] .none), official]
      [loads (.object [] .none), note, id, official] :=
    .reorder ((List.reverse_perm [loads (.object [] .none), note, id]).append_right _)
  exact (((Relation.ReflTransGen.single (.record hnote)).tail (.record hofficial)).tail hloads).tail
    (.record horder)

/-- Both spellings are the texts of one policy. -/
theorem respelled_policy_note :
    let p : Policy := ⟨"ice", .ofList [("lab", {})], {}⟩
    shortSpelling.text = "\x7b\"icemap_id\":\"ice\",\"loads\":\x7b\"lab\":null\x7d\x7d" ∧
      longSpelling.text = "\x7b\"loads\":\x7b\"lab\":\x7b\x7d\x7d,\"note\":1e9999," ++
        "\"icemap_id\":\"ice\",\"official_require\":null\x7d\n" ∧
      (∃ o : ObjectText, o.text = shortSpelling.text) ∧ load shortSpelling.text .json = .ok p ∧
      Relation.ReflTransGen DocumentEdit shortSpelling.cores longSpelling.cores ∧
      load longSpelling.text .json = .ok p := by
  intro p
  have hshort : shortSpelling.text =
      "\x7b\"icemap_id\":\"ice\",\"loads\":\x7b\"lab\":null\x7d\x7d" := by
    simp only [ObjectText.text, ObjectText.tree, shortSpelling, Tree.chars, Tree.memberChars]
    rfl
  have hlong : longSpelling.text = "\x7b\"loads\":\x7b\"lab\":\x7b\x7d\x7d,\"note\":1e9999," ++
      "\"icemap_id\":\"ice\",\"official_require\":null\x7d\n" := by
    simp only [ObjectText.text, ObjectText.tree, longSpelling, Tree.chars, Tree.memberChars]
    rfl
  have hload : load shortSpelling.text .json = .ok p := by
    rw [hshort]
    rfl
  have hbrace : (Json.Lexeme.skipSpace shortSpelling.text.toList).head? = some '{' := by
    rw [hshort]
    rfl
  obtain ⟨hobject, hedited⟩ := respelled_policy
  exact ⟨hshort, hlong, hobject _ p hload hbrace, hload, edits_longSpelling,
    hedited _ _ p hload edits_longSpelling⟩

end Policy
end GlyphLine
