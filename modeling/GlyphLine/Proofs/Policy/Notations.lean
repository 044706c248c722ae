import GlyphLine.Policy.Loading
import GlyphLine.Proofs.Compact.Json
import GlyphLine.Proofs.Compact.Layout
import GlyphLine.Proofs.Policy.Resolution
import GlyphLine.Proofs.Policy.Written

/-!
# The two notations of policies agree

Both readers of policies take a one-line document apart as it has been put together.  So both
find the document that is meant, and whether it resolves to a policy does not depend on the
notation.  The only faults that are left are those of an unknown pressure or tier.

This holds for every string of printable characters, also for one that reads `null`, `true` or
`5`: behind a quote a scalar is a text in both notations.

## Main statements

* `jsonCompact`, `yamlCompact`: both formats take one-line texts apart.
* `resolve_cases`: what becomes of a document.
* `load_text`: both notations give the policy, or the fault, of the document that is meant.
-/

namespace GlyphLine
namespace Policy

/-! ## Scalars -/

theorem fits_of_isSigned {n : Int} (h : Width.isSigned 64 n = true) : Width.fits 64 n = true := by
  rw [Width.fits, h, Bool.true_or]

/-- A number of sixty-four bits has no more than a hundred and twenty-eight. -/
theorem fits_wide_of_isSigned {n : Int} (h : Width.isSigned 64 n = true) :
    Width.fits 128 n = true := by
  have hsize : (Width.size (64 - 1) : Int) ≤ (Width.size (128 - 1) : Int) := by decide
  have hwide : Width.isSigned 128 n = true := by
    simp only [Width.isSigned, Bool.and_eq_true, decide_eq_true_eq] at h ⊢
    omega
  rw [Width.fits, hwide, Bool.true_or]

/-- A number with a sign stays a whole number. -/
theorem ofWhole_of_isSigned {n : Int} (h : Width.isSigned 64 n = true) :
    Scalar.ofWhole n = .whole n := if_pos h

theorem json_takes_scalar (n : Nat) (type : String) (s : WrittenScalar) :
    Json.Takes n (Json.Reader.choice type Scalar.ofJson?) s.form s.value := by
  cases s with
  | text t => exact (Json.takes_any_string n t).choice rfl
  | whole m h =>
    exact (Json.takes_any_whole n (fits_of_isSigned h)).choice
      (congrArg some (ofWhole_of_isSigned h))
  | bool b => exact (Json.takes_any_bool n b).choice rfl

theorem yaml_takes_scalar (s : WrittenScalar) :
    Yaml.Takes (Yaml.Reader.scalar scalarOfPlain?) s.form s.value := by
  cases s with
  | text t => exact Yaml.takes_string t rfl
  | whole m h =>
    refine Yaml.takes_whole (fits_wide_of_isSigned h) ?_
    rw [scalarOfPlain?, if_pos (fits_of_isSigned h), ofWhole_of_isSigned h]
    rfl
  | bool b => exact Yaml.takes_bool b rfl

/-! ## Formats -/

instance jsonCompact : CompactFormat Json.Reader where
  Takes := Json.Takes
  map f h := h.map f
  scalar n s := json_takes_scalar n _ s
  switch n s := json_takes_scalar n _ s
  absent := Json.takes_null
  present h hv := h.some hv
  list := Json.takes_list
  table := Json.takes_table
  record := Json.takes_record

instance yamlCompact : CompactFormat Yaml.Reader where
  Takes _ := Yaml.Takes
  map f h := h.map f
  scalar _ s := yaml_takes_scalar s
  switch _ s := yaml_takes_scalar s
  absent _ := Yaml.takes_null
  present h hv := h.some hv
  list := Yaml.takes_list
  table := Yaml.takes_table
  record := Yaml.takes_record

/-- As JSON, the text of a document stands for the document that is meant. -/
theorem ofJson_text (w : WrittenDocument) : Document.ofJson w.text = .ok w.document := by
  have htakes : Json.Takes 4 Document.reader (Record.form w) (some w.document) :=
    CompactFormat.takes_document (R := Json.Reader) w
  have hrun : Json.Reader.run Document.reader w.text = .ok (some w.document) :=
    Json.run_chars htakes (by decide)
  rw [Document.ofJson, hrun]
  rfl

/-- As YAML, the text of a document stands for the document that is meant. -/
theorem ofYaml_text (w : WrittenDocument) : Document.ofYaml w.text = .ok w.document := by
  have htakes : Yaml.Takes Document.reader (Record.form w) (some w.document) :=
    CompactFormat.takes_document (R := Yaml.Reader) w
  have hrun : Yaml.Reader.run Document.reader w.text = .ok (some w.document) :=
    Yaml.run_chars htakes
  rw [Document.ofYaml, hrun]
  rfl

/-! ## What becomes of a document -/

/-- A document resolves to a policy, or it has an unknown pressure or an unknown tier. -/
theorem resolve_cases (d : Document) :
    (∃ p, d.resolve = .ok p) ∨
      (∃ load value, d.resolve = .error (.unknownPressure load value)) ∨
        ∃ value, d.resolve = .error (.unknownReadyTier value) := by
  cases h : d.resolve with
  | ok p => exact .inl ⟨p, rfl⟩
  | error e =>
    rcases Document.resolve_eq_error_iff.mp h with
      ⟨load, value, -, rfl⟩ | ⟨-, value, -, -, -, rfl⟩
    · exact .inr (.inl ⟨load, value, rfl⟩)
    · exact .inr (.inr ⟨value, rfl⟩)

/-! ## Policies -/

/-- **The two notations of policies agree.**  A document in one line, loaded as YAML or as JSON,
gives what the document that is meant resolves to: the same policy, or the same unknown pressure
or tier. -/
theorem load_text (w : WrittenDocument) :
    load w.text .yaml = w.document.resolve ∧ load w.text .json = w.document.resolve ∧
      ((∃ p, w.document.resolve = .ok p) ∨
        (∃ load value, w.document.resolve = .error (.unknownPressure load value)) ∨
          ∃ value, w.document.resolve = .error (.unknownReadyTier value)) := by
  refine ⟨?_, ?_, resolve_cases w.document⟩
  · rw [load, parse, ofYaml_text]
    rfl
  · rw [load, parse, ofJson_text]
    rfl

/-- A null load, and a text that reads like a truth value and has its first letter written by
its code point. -/
example : ∃ w : WrittenDocument,
    w.text = "\x7b\"loads\":\x7b\"a\":null\x7d,\"icemap_id\":\"\\u0074rue\"\x7d" ∧
      w.document.id = some (.text "true") :=
  ⟨⟨[⟨.plain ['l', 'o', 'a', 'd', 's'], .loads (some [(⟨.plain ['a'], by decide⟩, none)]), rfl⟩,
    ⟨.plain ['i', 'c', 'e', 'm', 'a', 'p', '_', 'i', 'd'], .id (some (.text
      ⟨⟨'t', ['\\', 'u', '0', '0', '7', '4'], by decide, .code (.inl rfl)⟩ ::
        (Spelling.plain ['r', 'u', 'e']).glyphs⟩)), rfl⟩], by decide⟩, rfl, rfl⟩

end Policy
end GlyphLine
