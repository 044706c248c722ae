import GlyphLine.Proofs.Text.Lines
import GlyphLine.Render.Annotation

/-!
# Annotations are read back

A build service takes every line that begins in a certain way for a command.  The texts of
findings come from files, so a line end in one of them could begin a command of its own, and a
text that already looks like an escape could be taken for one.

## Why the escapes can be undone

The sign of escapes is escaped itself.  So each sign that stands in an annotation begins an
escape, none was there before, and one pass over the line undoes them.  Escaping the characters
in turn, the line ends behind the sign, comes to the same as escaping each of them at once
(`escapedInTurn_eq`); with the sign in the last place it would not.

## Main statements

* `readEscapes`, `readCommand`: the text of an annotation.
* `Coded`: text in which no line ends and every sign begins an escape.
* `announced`: the texts that the annotations of an outcome bear.
* `annotations_read_back`: **annotations are single lines that tell their texts**.
-/

namespace GlyphLine
namespace Render

open Lint Text

variable {cs : List Char}

/-! ## Escapes -/

/-- What stands behind the sign of an escape. -/
def escapeCodes : List (List Char) := [['2', '5'], ['0', 'D'], ['0', 'A']]

/-- A text whose escapes are undone in one pass. -/
def readEscapes : List Char → List Char
  | [] => []
  | '%' :: '2' :: '5' :: cs => '%' :: readEscapes cs
  | '%' :: '0' :: 'D' :: cs => '\r' :: readEscapes cs
  | '%' :: '0' :: 'A' :: cs => '\n' :: readEscapes cs
  | c :: cs => c :: readEscapes cs

theorem readEscapes_cons {c : Char} (h : c ≠ '%') (cs : List Char) :
    readEscapes (c :: cs) = c :: readEscapes cs := by
  rw [readEscapes] <;> exact fun _ hc => absurd hc h

/-- One pass undoes the escapes of every text. -/
theorem readEscapes_flatMap (cs : List Char) : readEscapes (cs.flatMap annotationChar) = cs := by
  induction cs with
  | nil => rfl
  | cons c cs ih =>
    rw [List.flatMap_cons, annotationChar]
    split
    · next hc => rw [hc]; exact congrArg ('%' :: ·) ih
    split
    · next hc => rw [hc]; exact congrArg ('\r' :: ·) ih
    split
    · next hc => rw [hc]; exact congrArg ('\n' :: ·) ih
    · next hsign _ _ => rw [List.singleton_append, readEscapes_cons hsign, ih]

/-- A text in which one character is written as an escape. -/
def withEscape (c : Char) (code : List Char) (cs : List Char) : List Char :=
  cs.flatMap fun d => if d = c then '%' :: code else [d]

/-- A text whose special characters are escaped one after the other, the sign first. -/
def escapedInTurn (cs : List Char) : List Char :=
  withEscape '\n' ['0', 'A'] (withEscape '\r' ['0', 'D'] (withEscape '%' ['2', '5'] cs))

/-- No escape that is put in is escaped again. -/
theorem escapedInTurn_eq (cs : List Char) : escapedInTurn cs = cs.flatMap annotationChar := by
  rw [escapedInTurn, withEscape, withEscape, withEscape, List.flatMap_assoc, List.flatMap_assoc]
  refine List.flatMap_congr fun c _ => ?_
  rw [annotationChar]
  split
  · rfl
  rw [List.flatMap_singleton]
  split
  · rfl
  · rw [List.flatMap_singleton]

/-! ## Signs and line ends -/

/-- Text in which no line ends and every sign begins an escape. -/
inductive Coded : List Char → Prop
  | nil : Coded []
  | plain {c : Char} {cs : List Char} (hsign : c ≠ '%') (hreturn : c ≠ '\r') (hfeed : c ≠ '\n')
      (hcs : Coded cs) : Coded (c :: cs)
  | escape {code cs : List Char} (hcode : code ∈ escapeCodes) (hcs : Coded cs) :
      Coded ('%' :: (code ++ cs))

theorem coded_flatMap (cs : List Char) : Coded (cs.flatMap annotationChar) := by
  induction cs with
  | nil => exact .nil
  | cons c cs ih =>
    rw [List.flatMap_cons, annotationChar]
    split
    · exact .escape (by decide : ['2', '5'] ∈ escapeCodes) ih
    split
    · exact .escape (by decide : ['0', 'D'] ∈ escapeCodes) ih
    split
    · exact .escape (by decide : ['0', 'A'] ∈ escapeCodes) ih
    · next hsign hreturn hfeed => exact .plain hsign hreturn hfeed ih

/-- The codes hold neither a sign nor a line end. -/
theorem ne_of_mem_code {code : List Char} (h : code ∈ escapeCodes) :
    ∀ c ∈ code, c ≠ '%' ∧ c ≠ '\r' ∧ c ≠ '\n' := by
  have hcodes : escapeCodes.all (·.all fun c => c != '%' && (c != '\r' && c != '\n')) = true := rfl
  intro c hc
  simpa using List.all_eq_true.mp (List.all_eq_true.mp hcodes code h) c hc

theorem Coded.ne_of_mem (h : Coded cs) : ∀ c ∈ cs, c ≠ '\r' ∧ c ≠ '\n' := by
  induction h with
  | nil => exact fun c hc => absurd hc List.not_mem_nil
  | plain _ hreturn hfeed _ ih => exact List.forall_mem_cons.mpr ⟨⟨hreturn, hfeed⟩, ih⟩
  | escape hcode _ ih =>
    have hsign : '%' ≠ '\r' ∧ '%' ≠ '\n' := by decide
    have hcodes := fun c hc => (ne_of_mem_code hcode c hc).2
    exact List.forall_mem_cons.mpr ⟨hsign, List.forall_mem_append.mpr ⟨hcodes, ih⟩⟩

/-- An ending that begins with a character stands behind all that lack it. -/
theorem suffix_of_not_mem {c : Char} {front back tail : List Char} (h : c ∉ front)
    (hsuffix : c :: tail <:+ front ++ back) : c :: tail <:+ back := by
  induction front with
  | nil => exact hsuffix
  | cons d front ih =>
    rw [List.mem_cons, not_or] at h
    rcases List.suffix_cons_iff.mp hsuffix with heq | hsuffix
    · exact absurd (List.cons.inj heq).1 h.1
    · exact ih h.2 hsuffix

/-- Behind every sign stands a code. -/
theorem Coded.exists_code (h : Coded cs) :
    ∀ back, '%' :: back <:+ cs → ∃ code ∈ escapeCodes, code <+: back := by
  induction h with
  | nil => exact fun back hback => absurd (List.suffix_nil.mp hback) (List.cons_ne_nil _ _)
  | plain hsign _ _ _ ih =>
    intro back hback
    rcases List.suffix_cons_iff.mp hback with heq | hback
    · exact absurd (List.cons.inj heq).1.symm hsign
    · exact ih back hback
  | @escape code cs hcode _ ih =>
    intro back hback
    rcases List.suffix_cons_iff.mp hback with heq | hback
    · exact ⟨code, hcode, (List.cons.inj heq).2 ▸ List.prefix_append code cs⟩
    · exact ih back (suffix_of_not_mem (fun hmem => (ne_of_mem_code hcode _ hmem).1 rfl) hback)

/-! ## Annotations -/

/-- The text of an annotation, if it is one. -/
def readCommand (line : String) : Option String :=
  (after? "::error title=glyphlint::" line).map fun body => String.ofList (readEscapes body.toList)

/-- What is said of a text that is not adopted. -/
def unadoptedNotice : String := "no ~tokens found; add a GlyphLine"

/-- The texts that the annotations of an outcome bear. -/
def announced (o : Outcome) : List String :=
  if o.verdict = .noAdoption then [unadoptedNotice]
  else o.findings.map fun g => "[" ++ g.checkId ++ ":" ++ g.code ++ "] " ++ g.message

/-- A text with its special characters escaped in turn, behind the beginning of a command. -/
def commandLine (s : String) : String :=
  annotationStart ++ String.ofList (escapedInTurn s.toList)

/-- The annotations of an outcome bear its texts, up to a number. -/
theorem annotations_eq (o : Outcome) (max : Nat) :
    annotations o max = ((announced o).take max).map commandLine := by
  have hline (s : String) : annotationStart ++ oneLine s = commandLine s := by
    rw [oneLine, commandLine, escapedInTurn_eq]
  have hnotice : unadoptedError = commandLine unadoptedNotice := by
    rw [← hline]
    exact congrArg (annotationStart ++ ·) (by decide +kernel)
  rw [annotations, announced]
  split
  · rw [hnotice, List.map_take, List.map_singleton]
  · rw [← List.map_take, List.map_map]
    exact List.map_congr_left fun g _ => hline _

/-- A command in one line, in which every sign behind the beginning belongs to an escape. -/
structure IsCommand (line : String) : Prop where
  start : ∃ body, line = "::error title=glyphlint::" ++ body
  oneLine : '\r' ∉ line.toList ∧ '\n' ∉ line.toList
  signs : ∀ body, line = "::error title=glyphlint::" ++ body →
    ∀ back, '%' :: back <:+ body.toList →
      ['2', '5'] <+: back ∨ ['0', 'D'] <+: back ∨ ['0', 'A'] <+: back

theorem isCommand_commandLine (s : String) : IsCommand (commandLine s) := by
  have hcoded : Coded (escapedInTurn s.toList) := escapedInTurn_eq s.toList ▸ coded_flatMap s.toList
  have hstart : annotationStart.toList.all (fun c => c != '\r' && c != '\n') = true := by decide
  have hends : ∀ c ∈ (commandLine s).toList, c ≠ '\r' ∧ c ≠ '\n' := by
    intro c hc
    rw [commandLine, String.toList_append, String.toList_ofList, List.mem_append] at hc
    rcases hc with hc | hc
    · simpa using List.all_eq_true.mp hstart c hc
    · exact hcoded.ne_of_mem c hc
  refine ⟨⟨_, rfl⟩, ⟨fun h => (hends _ h).1 rfl, fun h => (hends _ h).2 rfl⟩, ?_⟩
  intro body hbody back hback
  obtain rfl : String.ofList (escapedInTurn s.toList) = body :=
    (String.append_right_inj _).mp hbody
  rw [String.toList_ofList] at hback
  obtain ⟨code, hcode, hprefix⟩ := hcoded.exists_code back hback
  rcases List.mem_cons.mp hcode with rfl | hcode
  · exact .inl hprefix
  · rcases List.mem_pair.mp hcode with rfl | rfl
    · exact .inr (.inl hprefix)
    · exact .inr (.inr hprefix)

theorem readCommand_commandLine (s : String) : readCommand (commandLine s) = some s := by
  have hafter : after? "::error title=glyphlint::" (commandLine s) =
      some (String.ofList (escapedInTurn s.toList)) := after?_eq_some_iff.mpr rfl
  rw [readCommand, hafter, Option.map_some, String.toList_ofList, escapedInTurn_eq,
    readEscapes_flatMap, String.ofList_toList]

/-- Of every outcome, whatever its texts hold, the annotations are single lines that tell the
texts of the first findings, or that there are no tokens.  If more of them are asked for, the
others stand behind these. -/
theorem annotations_read_back (o : Outcome) (max : Nat) :
    let lines := annotations o max
    lines.length = min max (if o.verdict = .noAdoption then 1 else o.findings.length) ∧
      (∀ more, max ≤ more → lines <+: annotations o more) ∧
      (∀ line ∈ lines, IsCommand line) ∧
      lines.map readCommand = ((announced o).take max).map some ∧
      lines = ((announced o).take max).map commandLine := by
  intro lines
  have hlines : lines = ((announced o).take max).map commandLine := annotations_eq o max
  refine ⟨?_, fun more hmore => ?_, fun line hline => ?_, ?_, hlines⟩
  · rw [hlines, List.length_map, List.length_take, announced]
    split
    · rfl
    · rw [List.length_map]
  · rw [hlines, annotations_eq]
    exact (List.take_prefix_take_left hmore).map commandLine
  · rw [hlines] at hline
    obtain ⟨s, -, rfl⟩ := List.mem_map.mp hline
    exact isCommand_commandLine s
  · rw [hlines, List.map_map]
    refine List.map_congr_left fun s _ => ?_
    rw [Function.comp_apply, readCommand_commandLine]

/-- An outcome whose texts look like commands and like escapes. -/
def craftedOutcome : Outcome where
  verdict := .fail
  findings := [⟨"a%0A", "b", "x\r\n::error::50%25", none, none, .null⟩,
    ⟨"", "\n", "%", none, none, .null⟩]
  summary := {}

/-- The line of its first finding. -/
def craftedLine : String := "::error title=glyphlint::[a%250A:b] x%0D%0A::error::50%2525"

/-- The first annotation is one line, and both tell their texts. -/
theorem annotations_read_back_crafted :
    1 ≤ 2 ∧ annotations craftedOutcome 1 <+: annotations craftedOutcome 2 ∧
      craftedLine ∈ annotations craftedOutcome 1 ∧ IsCommand craftedLine ∧
      (annotations craftedOutcome 2).map readCommand =
        [some "[a%0A:b] x\r\n::error::50%25", some "[:\n] %"] := by
  have hle : 1 ≤ 2 := Nat.le_succ 1
  have hmem : craftedLine ∈ annotations craftedOutcome 1 := by decide +kernel
  obtain ⟨-, hprefix, hcommand, -⟩ := annotations_read_back craftedOutcome 1
  obtain ⟨-, -, -, hread, -⟩ := annotations_read_back craftedOutcome 2
  exact ⟨hle, hprefix 2 hle, hmem, hcommand craftedLine hmem, hread⟩

end Render
end GlyphLine
