import GlyphLine.Lint.Code
import GlyphLine.Policy.Document
import GlyphLine.Proofs.Compact.Basic

/-!
# Policy documents in one line

A policy document can be written as a JSON object in one line: its sections and their fields
in any order, each of them at most once, with a value that the field accepts or with null.
Here are all documents that are written so, with the document that each of them stands for.

A format whose readers take one-line texts apart as they have been put together reads each of
these documents as what it stands for.  So two such formats cannot differ on them.

* `WrittenScalar`, `WrittenLoad`, `WrittenOfficial`, `WrittenDocument`: the parts of a document
  as they are written.
* `WrittenDocument.text`, `WrittenDocument.document`: the text, and the document that is meant.
* `CompactFormat`: formats whose readers take one-line texts apart.
* `CompactFormat.takes_document`: such a format reads the document that is meant.
-/

namespace GlyphLine
namespace Policy

/-! ## Scalars -/

/-- A scalar as it is written: a string, a whole number of sixty-four bits with a sign, or a
truth value. -/
inductive WrittenScalar where
  | text (s : Spelling)
  | whole (n : Int) (signed : Width.isSigned 64 n = true)
  | bool (b : Bool)

namespace WrittenScalar

/-- The scalar as a value in one line. -/
def form : WrittenScalar → Compact
  | .text s => .string s
  | .whole n _ => .whole n
  | .bool b => .bool b

/-- The scalar that is meant. -/
def value : WrittenScalar → Scalar
  | .text s => .text s.text
  | .whole n _ => .whole n
  | .bool b => .bool b

theorem form_ne_null (s : WrittenScalar) : s.form ≠ .null := by
  cases s <;> exact Compact.noConfusion

end WrittenScalar

/-- What may be null. -/
def nullOr {α : Type} (form : α → Compact) : Option α → Compact
  | none => .null
  | some a => form a

/-- Scalars as a list in one line. -/
def scalarsForm (ss : List WrittenScalar) : Compact := .list (ss.map WrittenScalar.form)

/-! ## Records -/

/-- The fields of a record as they can be written: each with its name, the form of its value,
and the way to put the value into the record.  The names are short enough that a key stays
one however its characters are written. -/
structure Fields (φ σ : Type) where
  name : φ → String
  short : ∀ f, (name f).toList.length ≤ 170
  form : φ → Compact
  set : φ → σ → σ

/-- A field as it is written. -/
structure Member {φ σ : Type} (fields : Fields φ σ) where
  spelling : Spelling
  field : φ
  named : spelling.text = fields.name field

/-- The key of a field. -/
def Member.key {φ σ : Type} {fields : Fields φ σ} (m : Member fields) : Key where
  spelling := m.spelling
  short := by
    have hinner := m.spelling.length_inner_le
    have hname := fields.short m.field
    have hgreatest : Key.greatest = 1022 := rfl
    rw [m.named] at hinner
    omega

/-- A record as it is written: some of its fields, in any order, none of them twice. -/
structure Record {φ σ : Type} (fields : Fields φ σ) where
  members : List (Member fields)
  distinct : (members.map fun m => fields.name m.field).Nodup

namespace Record

variable {φ σ : Type} {fields : Fields φ σ}

/-- The record as an object in one line. -/
def form (r : Record fields) : Compact :=
  .map (r.members.map fun m => (m.key, fields.form m.field))

/-- The record that is meant, where fields that are not written are as in `blank`. -/
def value (r : Record fields) (blank : σ) : σ :=
  r.members.foldl (fun s m => fields.set m.field s) blank

end Record

/-! ## Sections -/

/-- A field of a load class. -/
inductive LoadField where
  | minPressure (v : Option WrittenScalar)
  | probes (vs : Option (List WrittenScalar))
  | vetoSignals (vs : Option (List WrittenScalar))

namespace LoadField

def name : LoadField → String
  | .minPressure _ => "min_pressure"
  | .probes _ => "required_probes"
  | .vetoSignals _ => "veto_signals"

theorem length_name_le (f : LoadField) : f.name.toList.length ≤ 170 := by
  cases f <;> (dsimp only [name]; rw [String.toList_ofList]; decide)

def form : LoadField → Compact
  | .minPressure v => nullOr WrittenScalar.form v
  | .probes vs => nullOr scalarsForm vs
  | .vetoSignals vs => nullOr scalarsForm vs

def set : LoadField → LoadSection → LoadSection
  | .minPressure v, s => { s with minPressure := v.map WrittenScalar.value }
  | .probes vs, s => { s with probes := vs.map (List.map WrittenScalar.value) }
  | .vetoSignals vs, s => { s with vetoSignals := vs.map (List.map WrittenScalar.value) }

end LoadField

/-- The fields of a load class. -/
def loadFields : Fields LoadField LoadSection where
  name := LoadField.name
  short := LoadField.length_name_le
  form := LoadField.form
  set := LoadField.set

/-- A load class as it is written. -/
abbrev WrittenLoad := Record loadFields

/-- Requirements with the value of one of them put in its place. -/
def OfficialSection.put : Lint.Requirement → Option Scalar → OfficialSection → OfficialSection
  | .pass, v, s => { s with pass := v }
  | .env, v, s => { s with env := v }
  | .run, v, s => { s with run := v }
  | .runMustBe, v, s => { s with runMustBe := v }
  | .iceMustBe, v, s => { s with iceMustBe := v }
  | .rgcaAllPlus, v, s => { s with rgcaAllPlus := v }
  | .zdPlus, v, s => { s with zdPlus := v }
  | .zdmPlus, v, s => { s with zdmPlus := v }
  | .thaletPlus, v, s => { s with thaletPlus := v }
  | .readyTier, v, s => { s with readyTier := v }
  | .bridgespecPlus, v, s => { s with bridgespecPlus := v }
  | .tbPlus, v, s => { s with tbPlus := v }

theorem length_key_le (r : Lint.Requirement) : r.key.toList.length ≤ 170 := by
  cases r <;> (dsimp only [Lint.Requirement.key]; rw [String.toList_ofList]; decide)

/-- The fields of the requirements, each with its value.  They are named by the keys that a
finding shows. -/
def officialFields : Fields (Lint.Requirement × Option WrittenScalar) OfficialSection where
  name := fun f => f.1.key
  short := fun f => length_key_le f.1
  form := fun f => nullOr WrittenScalar.form f.2
  set := fun f => .put f.1 (f.2.map WrittenScalar.value)

/-- The requirements as they are written. -/
abbrev WrittenOfficial := Record officialFields

/-- Loads as they are written: each with its name and its class, which may be null.  Of the
loads with one name the last one counts. -/
abbrev WrittenLoads := List (Key × Option WrittenLoad)

namespace WrittenLoads

/-- The loads as an object in one line. -/
def form (ls : WrittenLoads) : Compact := .map (ls.map fun l => (l.1, nullOr Record.form l.2))

/-- The loads that are meant. -/
def value (ls : WrittenLoads) : ByName (Option LoadSection) :=
  ByName.ofList (ls.map fun l => (l.1.text, l.2.map fun r => r.value {}))

end WrittenLoads

/-! ## Documents -/

/-- A section of a document. -/
inductive DocumentField where
  | id (v : Option WrittenScalar)
  | loads (ls : Option WrittenLoads)
  | official (o : Option WrittenOfficial)

namespace DocumentField

def name : DocumentField → String
  | .id _ => "icemap_id"
  | .loads _ => "loads"
  | .official _ => "official_require"

theorem length_name_le (f : DocumentField) : f.name.toList.length ≤ 170 := by
  cases f <;> (dsimp only [name]; rw [String.toList_ofList]; decide)

def form : DocumentField → Compact
  | .id v => nullOr WrittenScalar.form v
  | .loads ls => nullOr WrittenLoads.form ls
  | .official o => nullOr Record.form o

def set : DocumentField → Document → Document
  | .id v, d => { d with id := v.map WrittenScalar.value }
  | .loads ls, d => { d with loads := ls.map WrittenLoads.value }
  | .official o, d => { d with official := o.map fun r => r.value {} }

end DocumentField

/-- The sections of a document. -/
def documentFields : Fields DocumentField Document where
  name := DocumentField.name
  short := DocumentField.length_name_le
  form := DocumentField.form
  set := DocumentField.set

/-- A document as it is written. -/
abbrev WrittenDocument := Record documentFields

namespace WrittenDocument

/-- The text of a document. -/
def text (w : WrittenDocument) : String := String.ofList (Record.form w).chars

/-- The document that is meant. -/
def document (w : WrittenDocument) : Document := Record.value w {}

end WrittenDocument

/-! ## Formats -/

/-- A format whose readers take one-line texts apart as they have been put together:
`Takes n r v a` says that the reader `r` finds `a` in the written value `v`, in which lists
and objects stand at most `n` deep. -/
class CompactFormat (R : Type → Type) [Format R] where
  Takes : {α : Type} → Nat → R α → Compact → α → Prop
  map : ∀ {α β : Type} {n : Nat} {r : R α} {v : Compact} {a : α} (f : α → β),
    Takes n r v a → Takes n (Format.map f r) v (f a)
  scalar : ∀ (n : Nat) (s : WrittenScalar), Takes n Format.scalar s.form s.value
  switch : ∀ (n : Nat) (s : WrittenScalar), Takes n Format.switch s.form s.value
  absent : ∀ {α : Type} (n : Nat) (r : R α), Takes n (Format.optional r) .null none
  present : ∀ {α : Type} {n : Nat} {r : R α} {v : Compact} {a : α},
    Takes n r v a → v ≠ .null → Takes n (Format.optional r) v (some a)
  list : ∀ {α ι : Type} {n : Nat} {r : R α} {form : ι → Compact} {value : ι → α} {is : List ι},
    (∀ i ∈ is, Takes n r (form i) (value i)) →
      Takes (n + 1) (Format.list r) (.list (is.map form)) (is.map value)
  table : ∀ {α ι : Type} {n : Nat} {r : R α} {key : ι → Key} {form : ι → Compact}
    {value : ι → α} {is : List ι}, (∀ i ∈ is, Takes n r (form i) (value i)) →
      Takes (n + 1) (Format.table r) (.map (is.map fun i => (key i, form i)))
        (ByName.ofList (is.map fun i => ((key i).text, value i)))
  record : ∀ {σ ι : Type} {n : Nat} {type : String} {fields : List (Field R σ)} {blank : σ}
    {key : ι → Key} {form : ι → Compact} {set : ι → σ → σ} {is : List ι},
    (is.map fun i => (key i).text).Nodup →
      (∀ i ∈ is, ∃ field, (fields.find? fun f => f.name == (key i).text) = some field ∧
        Takes n field.read (form i) (set i)) →
      Takes (n + 1) (Format.record type fields blank) (.map (is.map fun i => (key i, form i)))
        (is.foldl (fun s i => set i s) blank)

namespace CompactFormat

variable {R : Type → Type} [Format R] [CompactFormat R]

theorem takes_nullOr {α β : Type} {n : Nat} {r : R α} {form : β → Compact} {value : β → α}
    (h : ∀ b, Takes n r (form b) (value b)) (hform : ∀ b, form b ≠ .null) (v : Option β) :
    Takes n (Format.optional r) (nullOr form v) (v.map value) := by
  cases v with
  | none => exact CompactFormat.absent n r
  | some b => exact CompactFormat.present (h b) (hform b)

/-- A field whose value is read gets this value, or none if it is null. -/
theorem takes_field {α β σ : Type} {n : Nat} {name : String} {read : R α} {set : Option α → σ → σ}
    {form : β → Compact} {value : β → α} (h : ∀ b, Takes n read (form b) (value b))
    (hform : ∀ b, form b ≠ .null) (v : Option β) :
    Takes n (field name read set).read (nullOr form v) (set (v.map value)) :=
  CompactFormat.map set (takes_nullOr h hform v)

theorem takes_scalars (n : Nat) (ss : List WrittenScalar) :
    Takes (n + 1) (Format.list (R := R) Format.scalar) (scalarsForm ss)
      (ss.map WrittenScalar.value) :=
  CompactFormat.list fun s _ => CompactFormat.scalar n s

/-- A record is read if the value of each of its fields is. -/
theorem takes_record {φ σ : Type} {written : Fields φ σ} {n : Nat} {type : String}
    {fields : List (Field R σ)} {blank : σ}
    (h : ∀ f, ∃ field, (fields.find? fun g => g.name == written.name f) = some field ∧
      Takes n field.read (written.form f) (written.set f)) (r : Record written) :
    Takes (n + 1) (Format.record type fields blank) r.form (r.value blank) := by
  have hkeys : (r.members.map fun m => m.key.text) =
      r.members.map fun m => written.name m.field := List.map_congr_left fun m _ => m.named
  refine CompactFormat.record (hkeys ▸ r.distinct) fun m _ => ?_
  rw [show m.key.text = written.name m.field from m.named]
  exact h m.field

theorem takes_load (n : Nat) (w : WrittenLoad) :
    Takes (n + 2) (LoadSection.reader (R := R)) w.form (w.value {}) := by
  refine takes_record (fun f => ?_) w
  cases f with
  | minPressure v =>
    exact ⟨_, rfl, takes_field (CompactFormat.scalar _) WrittenScalar.form_ne_null v⟩
  | probes vs => exact ⟨_, rfl, takes_field (takes_scalars n) (fun _ => Compact.noConfusion) vs⟩
  | vetoSignals vs =>
    exact ⟨_, rfl, takes_field (takes_scalars n) (fun _ => Compact.noConfusion) vs⟩

theorem takes_loads (n : Nat) (ls : WrittenLoads) :
    Takes (n + 3) (Format.table (Format.optional (LoadSection.reader (R := R)))) ls.form
      ls.value :=
  CompactFormat.table fun l _ =>
    takes_nullOr (takes_load n) (fun _ => Compact.noConfusion) l.2

theorem takes_official (n : Nat) (w : WrittenOfficial) :
    Takes (n + 1) (OfficialSection.reader (R := R)) w.form (w.value {}) := by
  refine takes_record (fun f => ?_) w
  obtain ⟨r, v⟩ := f
  have hscalar : ∀ set : Option Scalar → OfficialSection → OfficialSection,
      Takes n (field r.key (Format.scalar (R := R)) set).read (nullOr WrittenScalar.form v)
        (set (v.map WrittenScalar.value)) := fun _ =>
    takes_field (CompactFormat.scalar n) WrittenScalar.form_ne_null v
  have hswitch : ∀ set : Option Scalar → OfficialSection → OfficialSection,
      Takes n (field r.key (Format.switch (R := R)) set).read (nullOr WrittenScalar.form v)
        (set (v.map WrittenScalar.value)) := fun _ =>
    takes_field (CompactFormat.switch n) WrittenScalar.form_ne_null v
  cases r with
  | pass => exact ⟨_, rfl, hswitch _⟩
  | env => exact ⟨_, rfl, hswitch _⟩
  | run => exact ⟨_, rfl, hswitch _⟩
  | runMustBe => exact ⟨_, rfl, hscalar _⟩
  | iceMustBe => exact ⟨_, rfl, hscalar _⟩
  | rgcaAllPlus => exact ⟨_, rfl, hswitch _⟩
  | zdPlus => exact ⟨_, rfl, hswitch _⟩
  | zdmPlus => exact ⟨_, rfl, hswitch _⟩
  | thaletPlus => exact ⟨_, rfl, hswitch _⟩
  | readyTier => exact ⟨_, rfl, hscalar _⟩
  | bridgespecPlus => exact ⟨_, rfl, hswitch _⟩
  | tbPlus => exact ⟨_, rfl, hswitch _⟩

/-- The document that is meant is read. -/
theorem takes_document (w : WrittenDocument) :
    Takes 4 (Document.reader (R := R)) (Record.form w) (some w.document) := by
  refine CompactFormat.present (takes_record (n := 3) (fun f => ?_) w) Compact.noConfusion
  cases f with
  | id v => exact ⟨_, rfl, takes_field (CompactFormat.scalar 3) WrittenScalar.form_ne_null v⟩
  | loads ls => exact ⟨_, rfl, takes_field (takes_loads 0) (fun _ => Compact.noConfusion) ls⟩
  | official o =>
    exact ⟨_, rfl, takes_field (takes_official 2) (fun _ => Compact.noConfusion) o⟩

end CompactFormat
end Policy
end GlyphLine
