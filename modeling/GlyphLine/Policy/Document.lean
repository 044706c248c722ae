import GlyphLine.Field
import GlyphLine.Policy.Scalar

/-!
# Policy documents

A policy is written as a document with three sections, each of which may be missing or
null, as may every field in it.  The same document can be written in several formats;
a format says how scalars, lists, tables and records are read, and from that follows
how a whole document is read.

* `Document`: the sections as they are written.
* `Format`: what a format has to offer.
* `Document.reader`: the reader of documents, for any format.
-/

namespace GlyphLine
namespace Policy

/-- The identifier of the form that policy documents have. -/
def schema : String := "glyphlint.icemap.v1"

/-- The section of a load class. -/
structure LoadSection where
  minPressure : Option Scalar := none
  probes : Option (List Scalar) := none
  vetoSignals : Option (List Scalar) := none
  deriving DecidableEq, Repr, Inhabited

/-- The section of the requirements for an official claim. -/
structure OfficialSection where
  pass : Option Scalar := none
  env : Option Scalar := none
  run : Option Scalar := none
  runMustBe : Option Scalar := none
  iceMustBe : Option Scalar := none
  rgcaAllPlus : Option Scalar := none
  zdPlus : Option Scalar := none
  zdmPlus : Option Scalar := none
  thaletPlus : Option Scalar := none
  readyTier : Option Scalar := none
  bridgespecPlus : Option Scalar := none
  tbPlus : Option Scalar := none
  deriving DecidableEq, Repr, Inhabited

/-- A policy as it is written. -/
structure Document where
  id : Option Scalar := none
  loads : Option (ByName (Option LoadSection)) := none
  official : Option OfficialSection := none
  deriving DecidableEq, Repr, Inhabited

/-- The readers of a format: of scalars and switches, of values that may be null, of
lists, of tables, and of records all of whose fields may be missing. -/
class Format (R : Type → Type) where
  map : {α β : Type} → (α → β) → R α → R β
  scalar : R Scalar
  switch : R Scalar
  optional : {α : Type} → R α → R (Option α)
  list : {α : Type} → R α → R (List α)
  table : {α : Type} → R α → R (ByName α)
  record : {σ : Type} → (type : String) → List (Field R σ) → σ → R σ

variable {R : Type → Type} [Format R]

/-- A field that may be null, with the way to put its value into the record. -/
def field {α σ : Type} (name : String) (read : R α) (set : Option α → σ → σ) : Field R σ :=
  ⟨name, Format.map set (Format.optional read)⟩

/-- The fields of a load class. -/
def LoadSection.fields : List (Field R LoadSection) := [
  field "min_pressure" Format.scalar fun v s => { s with minPressure := v },
  field "required_probes" (Format.list Format.scalar) fun v s => { s with probes := v },
  field "veto_signals" (Format.list Format.scalar) fun v s => { s with vetoSignals := v }]

/-- The reader of a load class. -/
def LoadSection.reader : R LoadSection := Format.record "LoadConfig" fields {}

/-- The fields of the requirements for an official claim. -/
def OfficialSection.fields : List (Field R OfficialSection) := [
  field "require_pass" Format.switch fun v s => { s with pass := v },
  field "env_required" Format.switch fun v s => { s with env := v },
  field "run_required" Format.switch fun v s => { s with run := v },
  field "run_must_be" Format.scalar fun v s => { s with runMustBe := v },
  field "ice_must_be" Format.scalar fun v s => { s with iceMustBe := v },
  field "require_rgca_all_plus" Format.switch fun v s => { s with rgcaAllPlus := v },
  field "require_zd_plus" Format.switch fun v s => { s with zdPlus := v },
  field "require_zdm_plus" Format.switch fun v s => { s with zdmPlus := v },
  field "require_thalet_plus" Format.switch fun v s => { s with thaletPlus := v },
  field "require_ready_tier" Format.scalar fun v s => { s with readyTier := v },
  field "require_bridgespec_plus" Format.switch fun v s => { s with bridgespecPlus := v },
  field "require_tb_plus" Format.switch fun v s => { s with tbPlus := v }]

/-- The reader of the requirements for an official claim. -/
def OfficialSection.reader : R OfficialSection :=
  Format.record "OfficialRequireConfig" fields {}

/-- The fields of a document. -/
def Document.fields : List (Field R Document) := [
  field "icemap_id" Format.scalar fun v d => { d with id := v },
  field "loads" (Format.table (Format.optional LoadSection.reader)) fun v d =>
    { d with loads := v },
  field "official_require" OfficialSection.reader fun v d => { d with official := v }]

/-- The reader of a document that may be null. -/
def Document.reader : R (Option Document) :=
  Format.optional (Format.record "IcemapDocumentV1" fields {})

/-- The document that was read.  A null document is one without sections. -/
def Document.orEmpty (d : Option Document) : Document := d.getD {}

end Policy
end GlyphLine
