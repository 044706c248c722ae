import GlyphLine.Proofs.Lint.Adoption
import GlyphLine.Proofs.Lint.Messages
import GlyphLine.Proofs.Render.Escaping
import GlyphLine.Render.Console

/-!
# A linted text adds no lines of its own to what is shown

What is shown of an outcome quotes the linted text, which anybody may have written.  No quote
holds a line feed, hence every line is one that the rendering begins itself, and each finding
has exactly its own lines: one on a console, two in Markdown.  In Markdown nothing that is
quoted in a message is markup either.

* `Inert`: text in which nothing is markup.
* `ReadAs`: such a text, and what a reader sees of it.
* `readAs_escaped`: messages are escaped to a text in which the message is seen.
* `readConsole`: the verdict and the messages of what stands on a console.
* `rendered_lines`: the lines of what is shown of a linted text.
-/

namespace GlyphLine
namespace Render

open Lint Text

variable {text : String} {p : Policy} {required : Bool}

/-! ## Text without markup -/

/-- The characters that begin or end markup. -/
def inlineMarks : List Char := ['~', '\x60', '_', '*', '|', '[', ']', '\\']

/-- Text in which nothing is markup: every mark has a backslash of its own in front of it, and
there are no angle brackets. -/
inductive Inert : List Char → Prop
  | nil : Inert []
  | plain {c : Char} {cs : List Char} (hmark : c ∉ inlineMarks) (hleft : c ≠ '<')
      (hright : c ≠ '>') (hcs : Inert cs) : Inert (c :: cs)
  | marked {c : Char} {cs : List Char} (hmark : c ∈ inlineMarks) (hcs : Inert cs) :
      Inert ('\\' :: c :: cs)

theorem Inert.append {cs ds : List Char} (hc : Inert cs) (hd : Inert ds) : Inert (cs ++ ds) := by
  induction hc with
  | nil => exact hd
  | plain hmark hleft hright _ ih => exact .plain hmark hleft hright ih
  | marked hmark _ ih => exact .marked hmark ih

/-- No angle bracket stands in a text without markup. -/
theorem Inert.ne_of_mem {cs : List Char} (h : Inert cs) : ∀ c ∈ cs, c ≠ '<' ∧ c ≠ '>' := by
  induction h with
  | nil => exact fun c hc => absurd hc List.not_mem_nil
  | plain _ hleft hright _ ih => exact List.forall_mem_cons.mpr ⟨⟨hleft, hright⟩, ih⟩
  | @marked c cs hmark _ ih =>
    have hmarks : inlineMarks.all (fun c => c != '<' && c != '>') = true := rfl
    have hc : c ≠ '<' ∧ c ≠ '>' := by simpa using List.all_eq_true.mp hmarks c hmark
    have hslash : '\\' ≠ '<' ∧ '\\' ≠ '>' := by decide
    exact List.forall_mem_cons.mpr ⟨hslash, List.forall_mem_cons.mpr ⟨hc, ih⟩⟩

theorem inert_escapedChar (c : Char) : Inert (escapedChar c) := by
  have letters {cs : List Char}
      (h : cs.all (fun c => !inlineMarks.contains c && c != '<' && c != '>') = true) :
      Inert cs := by
    induction cs with
    | nil => exact .nil
    | cons c cs ih =>
      rw [List.all_cons, Bool.and_eq_true] at h
      obtain ⟨hc, hcs⟩ := h
      obtain ⟨⟨hmark, hleft⟩, hright⟩ : (c ∉ inlineMarks ∧ c ≠ '<') ∧ c ≠ '>' := by
        simpa using hc
      exact .plain hmark hleft hright (ih hcs)
  rw [escapedChar]
  split
  · exact letters rfl
  split
  · exact letters rfl
  split
  · next hmark => exact .marked (List.contains_iff_mem.mp hmark) .nil
  · next hleft hright hmark =>
    exact .plain (mt List.contains_iff_mem.mpr hmark) hleft hright .nil

/-- Whatever a message is, nothing in its escaped form is markup. -/
theorem inert_escaped (s : String) : Inert (escaped s).toList := by
  rw [escaped, String.toList_ofList]
  induction s.toList with
  | nil => exact .nil
  | cons c cs ih => exact (inert_escapedChar c).append ih

/-- In what is shown nothing is markup, and a reader sees the text there, with angle brackets in
the place of their names. -/
structure ReadAs (shown text : String) : Prop where
  inert : Inert shown.toList
  read : readInline shown.toList = unnamed text.toList

theorem readAs_escaped (s : String) : ReadAs (escaped s) s :=
  ⟨inert_escaped s, readInline_escaped s⟩

/-! ## Lines -/

/-- Line feeds are not escaped, and none is put in. -/
theorem isLine_escaped_iff {s : String} : IsLine (escaped s) ↔ IsLine s := by
  have hfeed (c : Char) : '\n' ∈ escapedChar c ↔ '\n' = c := by
    rw [escapedChar]
    split
    · next hc => simp [hc]
    split
    · next hc => simp [hc]
    split
    · simp
    · exact List.mem_singleton
  rw [IsLine, IsLine, escaped, String.toList_ofList, List.mem_flatMap, not_iff_not]
  constructor
  · rintro ⟨c, hc, hmem⟩
    exact (hfeed c).mp hmem ▸ hc
  · intro h
    exact ⟨'\n', h, (hfeed '\n').mpr rfl⟩

theorem isLine_codeSpan {s : String} (h : IsLine s) : IsLine (codeSpan s) := by
  rw [IsLine, codeSpan, String.toList_ofList, codeSpanChars]
  have hfence : ∀ n, '\n' ∉ List.replicate n backquote := fun n hmem =>
    absurd (List.eq_of_mem_replicate hmem) (by decide)
  have hspace : '\n' ≠ ' ' := by decide
  split <;> simp [hfence, hspace, show '\n' ∉ s.toList from h]

theorem isLine_toString (n : Nat) : IsLine (toString n) := by
  intro hfeed
  have hmem : '\n' ∈ n.repr.toList := hfeed
  rw [Nat.toList_repr] at hmem
  exact absurd (Nat.isDigit_of_mem_toDigits (by decide) (by decide) hmem) (by decide)

/-- A summary that names nothing with a line feed. -/
structure Summary.IsOfLines (s : Summary) : Prop where
  policy : IsLine s.policy
  load : ∀ l ∈ s.load, IsLine l
  pressure : ∀ q ∈ s.pressure, IsLine q
  readyTier : ∀ r ∈ s.readyTier, IsLine r

theorem isOfLines_summary (hp : p.IsOfLines) (n : Nat) :
    Summary.IsOfLines (summary (.ofText text) p required n) where
  policy := hp.id
  load := fun _ hl => isLine_of_firstValue hl
  pressure := by
    intro q hq
    obtain ⟨q, -, rfl⟩ := Option.map_eq_some_iff.mp hq
    cases q <;> decide
  readyTier := by
    intro r hr
    obtain ⟨r, -, rfl⟩ := Option.map_eq_some_iff.mp hr
    cases r <;> decide

/-- A line that begins as an item of a list does. -/
def IsItem (l : String) : Prop := IsLine l ∧ l.toList.head? = some '-'

theorem IsItem.append {s t : String} (hs : IsItem s) (ht : IsLine t) : IsItem (s ++ t) := by
  refine ⟨hs.1.append ht, ?_⟩
  rw [String.toList_append, List.head?_append, hs.2]
  rfl

theorem isItem_ofList {cs : List Char} (h : '\n' ∉ '-' :: cs) :
    IsItem (String.ofList ('-' :: cs)) :=
  ⟨isLine_ofList h, by rw [String.toList_ofList]; rfl⟩

theorem isItem_namedFact {label start : String} {name : Option String} (hlabel : IsLine label)
    (hstart : IsLine start) (hname : ∀ s ∈ name, IsLine s) :
    ∀ l ∈ namedFact label start name, IsItem l := by
  intro l hl
  cases name with
  | none => exact absurd hl List.not_mem_nil
  | some s =>
    rw [List.mem_singleton.mp hl]
    exact isItem_ofList (by decide) |>.append hlabel |>.append (by decide)
      |>.append (isLine_codeSpan (hstart.append (hname s rfl)))

/-- Every fact is an item in a line of its own. -/
theorem isItem_of_mem_factLines {s : Summary} (h : Summary.IsOfLines s) {v : Verdict} :
    ∀ l ∈ factLines v s, IsItem l := by
  have hverdict : IsLine (verdictText v) := by cases v <;> decide
  have hpolicy : IsLine (if s.policy.isEmpty then "(unnamed)" else codeSpan s.policy) := by
    split
    · decide
    · exact isLine_codeSpan h.policy
  simp only [factLines, List.forall_mem_append, List.forall_mem_cons, List.not_mem_nil,
    false_implies, implies_true, and_true]
  refine ⟨⟨⟨⟨⟨?_, ?_, ?_⟩, ?_⟩, ?_⟩, ?_⟩, ?_⟩
  · exact isItem_ofList (by decide) |>.append hverdict |>.append (by decide)
  · exact (isItem_ofList (by decide)).append hpolicy
  · exact isItem_ofList (by decide) |>.append (isLine_toString _) |>.append (by decide)
      |>.append (isLine_toString _) |>.append (by decide) |>.append (isLine_toString _)
      |>.append (by decide)
  · exact isItem_namedFact (by decide) (by decide) h.load
  · exact isItem_namedFact (by decide) (by decide) h.pressure
  · exact isItem_namedFact (by decide) (by decide) h.readyTier
  · exact (isItem_ofList (by decide)).append (isLine_toString _)

/-! ## The console -/

/-- The line in which a console shows a verdict. -/
def verdictLine : Verdict → String
  | .pass => "glyphlint: PASS"
  | .fail => "glyphlint: FAIL"
  | .noAdoption => "glyphlint: FAIL (no ~tokens found; add a GlyphLine)"

/-- The verdict and the messages of what stands on a console: one line for the verdict, and a
line for each message. -/
def readConsole (s : String) : Option (Verdict × List String) :=
  match (cutLines s).dropLast with
  | [] => none
  | line :: items =>
    match [Verdict.pass, .fail, .noAdoption].find? (verdictLine · == line),
        items.mapM (after? "- ") with
    | some v, some messages => some (v, messages)
    | _, _ => none

theorem find_verdictLine (v : Verdict) :
    [Verdict.pass, .fail, .noAdoption].find? (verdictLine · == verdictLine v) = some v := by
  cases v <;> decide +kernel

theorem mapM_after_items (ms : List String) :
    (ms.map ("- " ++ ·)).mapM (after? "- ") = some ms := by
  induction ms with
  | nil => rfl
  | cons m ms ih => rw [List.map_cons, List.mapM_cons, after?_eq_some_iff.mpr rfl, ih]; rfl

/-- The lines that a console shows of a linted text. -/
theorem consoleLines_lint (text : String) (p : Policy) (required : Bool) :
    consoleLines (lint text p required) = verdictLine (lint text p required).verdict ::
      (lint text p required).findings.map fun g => "- " ++ g.message := by
  have hnone (h : (lint text p required).verdict ≠ .fail) : (lint text p required).findings = [] :=
    findings_eq_nil_of_ne_fail h
  rw [consoleLines]
  cases hverdict : (lint text p required).verdict with
  | fail => rfl
  | pass => rw [hnone (hverdict ▸ Verdict.noConfusion)]; rfl
  | noAdoption => rw [hnone (hverdict ▸ Verdict.noConfusion)]; rfl

theorem isLine_verdictLine (v : Verdict) : IsLine (verdictLine v) := by
  cases v <;> exact isLine_ofList (by decide)

/-- A verdict and messages in lines of their own are read back. -/
theorem readConsole_eq_some {v : Verdict} {ms : List String} {s : String}
    (h : cutLines s = verdictLine v :: ms.map ("- " ++ ·) ++ [""]) :
    readConsole s = some (v, ms) := by
  rw [readConsole, h, List.dropLast_concat]
  dsimp only
  rw [find_verdictLine, mapM_after_items]

/-! ## All lines -/

/-- The line of a finding in Markdown. -/
def bulletLine (g : Finding) : String :=
  "- `" ++ g.checkId ++ "` / `" ++ g.code ++ "`: " ++ escaped g.message

/-- The line of the help for a finding in Markdown. -/
def helpLine (g : Finding) : String := "  - help: " ++ escaped (g.help.getD "")

/-- What is shown of a finding has no lines of its own: not its message, nor its help, which it
always has. -/
structure Finding.IsOfLines (g : Finding) : Prop where
  message : IsLine g.message
  help : ∃ advice, g.help = some advice ∧ IsLine advice
  bullet : IsLine (bulletLine g)

theorem isLine_name (c : Code) : IsLine c.name ∧ IsLine c.check.id := by
  cases c <;> exact ⟨isLine_ofList (by decide), isLine_ofList (by decide)⟩

theorem isOfLines_of_mem {g : Finding} (hp : p.IsOfLines)
    (hg : g ∈ (lint text p required).findings) : Finding.IsOfLines g := by
  obtain ⟨v, hdue, rfl⟩ := mem_findings_iff.mp hg
  have hmessage : IsLine v.finding.message := isLine_message hp hdue
  obtain ⟨hname, hcheck⟩ := isLine_name v.code
  refine ⟨hmessage, ⟨_, rfl, isLine_advice v.code⟩, ?_⟩
  exact isLine_ofList (by decide) |>.append hcheck |>.append (by decide) |>.append hname
    |>.append (by decide) |>.append (isLine_escaped_iff.mpr hmessage)

theorem findingLines_eq {g : Finding} (h : Finding.IsOfLines g) :
    findingLines g = [bulletLine g, helpLine g] := by
  obtain ⟨advice, hhelp, -⟩ := h.help
  rw [findingLines, helpLine, hhelp]
  rfl

theorem isLine_helpLine {g : Finding} (h : Finding.IsOfLines g) : IsLine (helpLine g) := by
  obtain ⟨advice, hhelp, hadvice⟩ := h.help
  rw [helpLine, hhelp]
  exact IsLine.append (by decide) (isLine_escaped_iff.mpr hadvice)

/-- What stands behind the facts: a note in one line, or the lines of the findings behind
their heading. -/
theorem resultLines_eq {o : Outcome} (h : ∀ g ∈ o.findings, Finding.IsOfLines g)
    (hverdict : o.verdict = .noAdoption → o.findings = []) :
    ∃ note : List String, (∀ l ∈ note, IsLine l ∧ l ≠ "## Findings") ∧
      resultLines o = note ++
        if o.findings.isEmpty then []
        else "## Findings" :: "" :: o.findings.flatMap fun g => [bulletLine g, helpLine g] := by
  rw [resultLines]
  split
  · next hnone =>
    rw [hverdict hnone]
    exact ⟨_, List.forall_mem_singleton.mpr ⟨isLine_ofList (by decide), by decide⟩,
      (List.append_nil _).symm⟩
  split
  · exact ⟨_, List.forall_mem_singleton.mpr ⟨isLine_ofList (by decide), by decide⟩,
      (List.append_nil _).symm⟩
  · refine ⟨[], fun l hl => absurd hl List.not_mem_nil, ?_⟩
    rw [List.flatMap_congr fun g hg => findingLines_eq (h g hg)]
    rfl

theorem isLine_findings {o : Outcome} (h : ∀ g ∈ o.findings, Finding.IsOfLines g) :
    ∀ l ∈ if o.findings.isEmpty then []
      else "## Findings" :: "" :: o.findings.flatMap (fun g => [bulletLine g, helpLine g]),
      IsLine l := by
  split
  · exact fun l hl => absurd hl List.not_mem_nil
  · refine List.forall_mem_cons.mpr ⟨isLine_ofList (by decide),
      List.forall_mem_cons.mpr ⟨isLine_ofList (by decide), fun l hl => ?_⟩⟩
    obtain ⟨g, hg, hl⟩ := List.mem_flatMap.mp hl
    rcases List.mem_pair.mp hl with rfl | rfl
    · exact (h g hg).bullet
    · exact isLine_helpLine (h g hg)

/-- The lines up to the findings, or to what stands in their place. -/
def frontLines (o : Outcome) : List String :=
  ["# Glyphlint report", ""] ++ factLines o.verdict o.summary ++ [""]

theorem markdown_eq (o : Outcome) : markdown o = lines (frontLines o ++ resultLines o) := rfl

/-- No line in front of the findings looks like their heading. -/
theorem isLine_of_mem_frontLines {o : Outcome} (h : Summary.IsOfLines o.summary) :
    ∀ l ∈ frontLines o, IsLine l ∧ l ≠ "## Findings" := by
  intro l hl
  rw [frontLines, List.mem_append, List.mem_append] at hl
  rcases hl with (hl | hl) | hl
  · rcases List.mem_pair.mp hl with rfl | rfl <;> exact ⟨isLine_ofList (by decide), by decide⟩
  · have hitem : IsItem l := isItem_of_mem_factLines h l hl
    refine ⟨hitem.1, ?_⟩
    rintro rfl
    exact absurd hitem.2 (by decide)
  · exact List.mem_singleton.mp hl ▸ ⟨isLine_ofList (by decide), by decide⟩

/-- The Markdown text of an outcome, cut at its line feeds. -/
theorem cutLines_markdown {o : Outcome} (hfacts : Summary.IsOfLines o.summary)
    (h : ∀ g ∈ o.findings, Finding.IsOfLines g)
    (hverdict : o.verdict = .noAdoption → o.findings = []) :
    ∃ front, "## Findings" ∉ front ∧
      cutLines (markdown o) = front ++
        (if o.findings.isEmpty then []
        else "## Findings" :: "" :: o.findings.flatMap fun g => [bulletLine g, helpLine g]) ++
        [""] := by
  obtain ⟨note, hnote, hresult⟩ := resultLines_eq h hverdict
  have hfront : ∀ l ∈ frontLines o ++ note, IsLine l ∧ l ≠ "## Findings" :=
    List.forall_mem_append.mpr ⟨isLine_of_mem_frontLines hfacts, hnote⟩
  refine ⟨frontLines o ++ note, fun hmem => (hfront _ hmem).2 rfl, ?_⟩
  rw [markdown_eq, hresult, ← List.append_assoc]
  exact cutLines_lines (List.forall_mem_append.mpr
    ⟨fun l hl => (hfront l hl).1, isLine_findings h⟩)

/-! ## Angle brackets -/

/-- No angle bracket occurs. -/
def NoAngles (s : String) : Prop := ∀ c ∈ s.toList, c ≠ '<' ∧ c ≠ '>'

/-- A literal is checked by its characters. -/
theorem noAngles_ofList {cs : List Char} (h : cs.all (fun c => c != '<' && c != '>') = true) :
    NoAngles (String.ofList cs) := by
  rw [NoAngles, String.toList_ofList]
  intro c hc
  simpa using List.all_eq_true.mp h c hc

theorem NoAngles.append {s t : String} (hs : NoAngles s) (ht : NoAngles t) : NoAngles (s ++ t) := by
  rw [NoAngles, String.toList_append]
  exact List.forall_mem_append.mpr ⟨hs, ht⟩

theorem noAngles_escaped (s : String) : NoAngles (escaped s) := (inert_escaped s).ne_of_mem

theorem noAngles_name (c : Code) : NoAngles c.name ∧ NoAngles c.check.id := by
  cases c <;> exact ⟨noAngles_ofList rfl, noAngles_ofList rfl⟩

theorem noAngles_bulletLine (v : Violation) : NoAngles (bulletLine v.finding) := by
  obtain ⟨hname, hcheck⟩ := noAngles_name v.code
  have hstart : NoAngles ("- `" ++ v.code.check.id) := (noAngles_ofList rfl).append hcheck
  exact hstart.append (noAngles_ofList rfl) |>.append hname |>.append (noAngles_ofList rfl)
    |>.append (noAngles_escaped _)

theorem noAngles_helpLine (g : Finding) : NoAngles (helpLine g) :=
  (noAngles_ofList rfl).append (noAngles_escaped _)

/-! ## What is shown of a linted text -/

/-- Whatever a text holds, what is shown of it under a policy of single lines has no lines but
those of the verdict and the findings.

No message and no help has a line feed.  On a console stand the line of the verdict and one
line for each finding, so that the verdict and the messages can be read back.  In Markdown
there is one heading of the findings, if there are any, and behind it one item and one line of
help for each of them; no angle bracket stands in these lines, every other mark of a message or
a help has a backslash of its own, and a reader sees the message and the help themselves. -/
theorem rendered_lines (hp : p.IsOfLines) (text : String) (required : Bool) :
    let o := lint text p required
    (∀ g ∈ o.findings, IsLine g.message ∧ ∃ advice, g.help = some advice ∧ IsLine advice) ∧
      cutLines (console o) =
        verdictLine o.verdict :: o.findings.map (fun g => "- " ++ g.message) ++ [""] ∧
      readConsole (console o) = some (o.verdict, o.findings.map Finding.message) ∧
      (∃ front, "## Findings" ∉ front ∧
        cutLines (markdown o) = front ++
          (if o.findings.isEmpty then []
          else "## Findings" :: "" :: o.findings.flatMap fun g => [bulletLine g, helpLine g]) ++
          [""]) ∧
      ∀ g ∈ o.findings, ReadAs (escaped g.message) g.message ∧
        (∃ advice, g.help = some advice ∧ helpLine g = "  - help: " ++ escaped advice ∧
          ReadAs (escaped advice) advice) ∧
        NoAngles (bulletLine g) ∧ NoAngles (helpLine g) := by
  intro o
  have hlines : ∀ g ∈ o.findings, Finding.IsOfLines g := fun g hg => isOfLines_of_mem hp hg
  have hconsole : cutLines (console o) =
      verdictLine o.verdict :: o.findings.map (fun g => "- " ++ g.message) ++ [""] := by
    rw [console, consoleLines_lint]
    refine cutLines_lines (List.forall_mem_cons.mpr ⟨isLine_verdictLine _, fun l hl => ?_⟩)
    obtain ⟨g, hg, rfl⟩ := List.mem_map.mp hl
    exact IsLine.append (by decide) (hlines g hg).message
  refine ⟨fun g hg => ⟨(hlines g hg).message, (hlines g hg).help⟩, hconsole, ?_, ?_, ?_⟩
  · refine readConsole_eq_some ?_
    rw [hconsole, List.map_map]
    rfl
  · have hsummary : o.summary = _ := summary_lintTokens_eq (.ofText text) p required
    refine cutLines_markdown (hsummary ▸ isOfLines_summary hp _) hlines fun hverdict => ?_
    exact findings_eq_nil_of_ne_fail (hverdict ▸ Verdict.noConfusion)
  · intro g hg
    obtain ⟨v, -, rfl⟩ := mem_findings_iff.mp hg
    exact ⟨readAs_escaped _, ⟨_, rfl, rfl, readAs_escaped _⟩, noAngles_bulletLine v,
      noAngles_helpLine _⟩

/-- A text with a token full of markup, and with a heading. -/
def headingText : String := "~<b>_*\n## Findings\n- ~PASS ~P3"

/-- A policy that names a load in two lines. -/
def twoLinePolicy : Policy where
  id := "ice"
  loads := .ofList [("a\nb", { probes := ["x"] })]

theorem isOfLines_twoLinePolicy : twoLinePolicy.IsOfLines := by
  have hload {load : String} {c : LoadClass} (h : twoLinePolicy.load? load = some c) :
      c = { probes := ["x"] } := by
    have hentries : twoLinePolicy.loads.entries = [("a\nb", { probes := ["x"] })] := by rfl
    rw [Policy.load?, ByName.find?, hentries, List.lookup_cons] at h
    split at h
    · exact (Option.some_inj.mp h).symm
    · cases h
  exact {
    id := by decide
    probes := fun h => by rw [hload h]; decide
    vetoSignals := fun h => by rw [hload h]; decide
    run := fun h => by cases h }

/-- The heading in the text is not shown, and the markup only as what it is. -/
theorem rendered_lines_heading :
    twoLinePolicy.IsOfLines ∧
      readConsole (console (lint headingText twoLinePolicy true)) = some (.fail,
        ["Invalid token characters: ~<b>_*", "~P3 forbids ~PASS (freeze mode)"]) ∧
      ∀ g ∈ (lint headingText twoLinePolicy true).findings, NoAngles (bulletLine g) := by
  have hverdict : (lint headingText twoLinePolicy true).verdict = .fail := by decide +kernel
  have hmessages : (lint headingText twoLinePolicy true).findings.map Finding.message =
      ["Invalid token characters: ~<b>_*", "~P3 forbids ~PASS (freeze mode)"] := by decide +kernel
  obtain ⟨-, -, hread, -, hmarks⟩ := rendered_lines isOfLines_twoLinePolicy headingText true
  refine ⟨isOfLines_twoLinePolicy, ?_, fun g hg => (hmarks g hg).2.2.1⟩
  rw [hread, hverdict, hmessages]

end Render
end GlyphLine
