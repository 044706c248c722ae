import GlyphLine.Proofs.Render.Lines
import GlyphLine.Proofs.Report.RoundTrip

/-!
# When findings stand one in a line

Linting under a policy of single lines finds nothing in more than one line.  But an outcome may
also have been read from a file, and then its messages and its advice are any texts.  In Markdown
they are escaped, but a line feed is written as it is, and what stands behind it begins a line of
its own.

Escaping neither adds line feeds nor removes any, so the lines behind the heading of the findings
can be counted: there are as many as there should be, and one more for each line feed in a
message or an advice.  Hence the list has its form only if there is none.

* `Itemized`: the form of the list.
* `listedLines`: what stands behind the heading of the findings.
* `length_flatMap_cutLines`: how many lines a list of texts has.
* `findings_listed_iff`: **the list has its form if no message and no advice has a line feed**,
  and not otherwise.
* `findings_not_listed`: a message that begins a heading.
-/

namespace GlyphLine
namespace Render

open Lint Text

variable {g : Finding} {gs : List Finding} {ls : List String} {o : Outcome}

/-! ## The form of a list -/

/-- For each finding a line that begins as an item does, and behind it a line of help if the
finding has any; nothing else. -/
inductive Itemized : List Finding → List String → Prop
  | nil : Itemized [] []
  | bare {g : Finding} {gs : List Finding} {line : String} {ls : List String}
      (hhelp : g.help = none) (hline : startsWith "- `" line = true) (h : Itemized gs ls) :
      Itemized (g :: gs) (line :: ls)
  | helped {g : Finding} {gs : List Finding} {line help : String} {ls : List String}
      (hhelp : g.help ≠ none) (hline : startsWith "- `" line = true)
      (hadvice : startsWith "  - help: " help = true) (h : Itemized gs ls) :
      Itemized (g :: gs) (line :: help :: ls)

/-- The lines behind the heading of the findings and the empty line below it. -/
def listedLines (s : String) : List String :=
  (((cutLines s).dropWhile (· != "## Findings")).drop 2).dropLast

theorem length_findingLines (g : Finding) :
    (findingLines g).length = if g.help = none then 1 else 2 := by
  rw [findingLines]
  cases g.help <;> rfl

/-- The form fixes how many lines there are. -/
theorem Itemized.length_eq (h : Itemized gs ls) : ls.length = (gs.flatMap findingLines).length := by
  induction h with
  | nil => rfl
  | bare hhelp _ _ ih =>
    rw [List.flatMap_cons, List.length_append, length_findingLines, if_pos hhelp, List.length_cons,
      ih, Nat.add_comm]
  | helped hhelp _ _ _ ih =>
    rw [List.flatMap_cons, List.length_append, length_findingLines, if_neg hhelp, List.length_cons,
      List.length_cons, ih]
    omega

/-- What is written for findings has the form. -/
theorem itemized_findingLines : ∀ gs : List Finding, Itemized gs (gs.flatMap findingLines)
  | [] => .nil
  | g :: gs => by
    have ih := itemized_findingLines gs
    have hline : startsWith "- `" (bulletLine g) = true := by
      refine startsWith_iff.mpr ⟨g.checkId ++ "` / `" ++ g.code ++ "`: " ++ escaped g.message, ?_⟩
      simp only [bulletLine, String.append_assoc]
    rw [List.flatMap_cons, findingLines]
    cases hhelp : g.help with
    | none => exact .bare hhelp hline ih
    | some advice =>
      exact .helped (hhelp ▸ Option.some_ne_none advice) hline (startsWith_iff.mpr ⟨_, rfl⟩) ih

/-! ## Counting lines -/

/-- Each line feed in a text makes one line more. -/
theorem length_flatMap_cutLines (ss : List String) :
    (ss.flatMap cutLines).length = ss.length + (ss.flatMap String.toList).count '\n' := by
  induction ss with
  | nil => rfl
  | cons s ss ih =>
    rw [List.flatMap_cons, List.length_append, ih, length_cutLines, List.length_cons,
      List.flatMap_cons, List.count_append]
    omega

/-- The lines have the form if none of the texts that are written has a line feed. -/
theorem itemized_cutLines_iff :
    Itemized gs ((gs.flatMap findingLines).flatMap cutLines) ↔
      ∀ l ∈ gs.flatMap findingLines, IsLine l := by
  constructor
  · intro h l hl
    have hlength := h.length_eq
    rw [length_flatMap_cutLines] at hlength
    have hcount : ((gs.flatMap findingLines).flatMap String.toList).count '\n' = 0 :=
      Nat.add_eq_left.mp hlength
    exact fun hfeed => List.count_eq_zero.mp hcount (List.mem_flatMap_of_mem hl hfeed)
  · intro h
    rw [flatMap_cutLines h]
    exact itemized_findingLines gs

/-- The lines of a finding have no line feed but those of its message and its advice. -/
theorem isLine_findingLines_iff (hcheck : IsLine g.checkId) (hcode : IsLine g.code) :
    (∀ l ∈ findingLines g, IsLine l) ↔ IsLine g.message ∧ ∀ advice ∈ g.help, IsLine advice := by
  have hbullet : IsLine ("- `" ++ g.checkId ++ "` / `" ++ g.code ++ "`: ") :=
    isLine_ofList (by decide) |>.append hcheck |>.append (by decide) |>.append hcode
      |>.append (by decide)
  have hhelp : IsLine "  - help: " := by decide
  rw [findingLines, List.forall_mem_cons, isLine_append_iff, isLine_escaped_iff]
  refine and_congr (and_iff_right hbullet) ?_
  cases g.help with
  | none => simp
  | some advice => simp [isLine_append_iff, isLine_escaped_iff, hhelp]

/-! ## The list -/

/-- Behind the facts of a failure stands the heading of the findings, and what is written for
each of them. -/
theorem cutLines_markdown_fail (hverdict : o.verdict = .fail) (hne : o.findings ≠ [])
    (hsummary : Summary.IsOfLines o.summary) :
    cutLines (markdown o) = frontLines o ++
      "## Findings" :: "" :: ((o.findings.flatMap findingLines).flatMap cutLines ++ [""]) := by
  have hresult : resultLines o = ["## Findings", ""] ++ o.findings.flatMap findingLines :=
    resultLines_of_fail hverdict hne
  have hfront := fun l hl => (isLine_of_mem_frontLines hsummary l hl).1
  rw [markdown_eq, hresult, cutLines_lines_eq, List.flatMap_append, List.flatMap_append,
    flatMap_cutLines hfront, flatMap_cutLines (by decide), List.append_assoc, List.append_assoc]
  rfl

/-- What stands behind the heading of the findings. -/
theorem listedLines_markdown (hverdict : o.verdict = .fail) (hne : o.findings ≠ [])
    (hsummary : Summary.IsOfLines o.summary) :
    listedLines (markdown o) = (o.findings.flatMap findingLines).flatMap cutLines := by
  have hfront : ∀ l ∈ frontLines o, (l != "## Findings") = true := fun l hl =>
    bne_iff_ne.mpr (isLine_of_mem_frontLines hsummary l hl).2
  rw [listedLines, cutLines_markdown_fail hverdict hne hsummary,
    List.dropWhile_append_of_pos hfront, List.dropWhile_cons_of_neg (by decide)]
  exact List.dropLast_concat

/-- For an outcome that fails, whatever its messages and its advice are: in Markdown the heading
of the findings stands behind the facts, and the lines behind it are an item for each finding,
with its help if it has any, exactly if no message and no advice has a line feed. -/
theorem findings_listed_iff (hverdict : o.verdict = .fail) (hne : o.findings ≠ [])
    (hsummary : Summary.IsOfLines o.summary)
    (hnames : ∀ g ∈ o.findings, IsLine g.checkId ∧ IsLine g.code) :
    (∃ front, "## Findings" ∉ front ∧
        cutLines (markdown o) = front ++ "## Findings" :: "" :: (listedLines (markdown o) ++ [""])) ∧
      (Itemized o.findings (listedLines (markdown o)) ↔
        ∀ g ∈ o.findings, IsLine g.message ∧ ∀ advice ∈ g.help, IsLine advice) := by
  have hlisted := listedLines_markdown hverdict hne hsummary
  refine ⟨⟨frontLines o, fun h => (isLine_of_mem_frontLines hsummary _ h).2 rfl, ?_⟩, ?_⟩
  · rw [hlisted]
    exact cutLines_markdown_fail hverdict hne hsummary
  · rw [hlisted, itemized_cutLines_iff, List.forall_mem_flatMap]
    exact forall₂_congr fun g hg => isLine_findingLines_iff (hnames g hg).1 (hnames g hg).2

/-- A summary that names nothing. -/
theorem isOfLines_emptySummary : Summary.IsOfLines {} where
  policy := by decide
  load := fun _ h => absurd h (Option.not_mem_none _)
  pressure := fun _ h => absurd h (Option.not_mem_none _)
  readyTier := fun _ h => absurd h (Option.not_mem_none _)

/-- An outcome with a carriage return in a message, and with an advice that looks like an item. -/
def quotedOutcome : Outcome where
  verdict := .fail
  findings := [⟨"glyph.icemap", "unknown_load", "no\r# <load>", some "- `a` / `b`", none, .null⟩,
    ⟨"glyph.icemap", "veto_signal", "", none, none, .null⟩]
  summary := {}

/-- The findings of this outcome are listed in their form. -/
theorem findings_listed_quoted :
    quotedOutcome.verdict = .fail ∧ quotedOutcome.findings ≠ [] ∧
      Summary.IsOfLines quotedOutcome.summary ∧
      (∀ g ∈ quotedOutcome.findings, IsLine g.checkId ∧ IsLine g.code) ∧
      Itemized quotedOutcome.findings (listedLines (markdown quotedOutcome)) := by
  have hne : quotedOutcome.findings ≠ [] := List.cons_ne_nil _ _
  have hnames : ∀ g ∈ quotedOutcome.findings, IsLine g.checkId ∧ IsLine g.code :=
    List.forall_mem_cons.mpr ⟨⟨isLine_ofList (by decide), isLine_ofList (by decide)⟩,
      List.forall_mem_singleton.mpr ⟨isLine_ofList (by decide), isLine_ofList (by decide)⟩⟩
  have hlines : ∀ g ∈ quotedOutcome.findings, IsLine g.message ∧ ∀ advice ∈ g.help, IsLine advice :=
    List.forall_mem_cons.mpr ⟨⟨isLine_ofList (by decide), fun advice h =>
        Option.mem_some_iff.mp h ▸ isLine_ofList (by decide)⟩,
      List.forall_mem_singleton.mpr ⟨isLine_ofList (by decide), fun _ h =>
        absurd h (Option.not_mem_none _)⟩⟩
  exact ⟨rfl, hne, isOfLines_emptySummary, hnames,
    (findings_listed_iff rfl hne isOfLines_emptySummary hnames).2.mpr hlines⟩

/-- An outcome with a message of several lines. -/
def forgedOutcome : Outcome where
  verdict := .fail
  findings := [⟨"glyph.icemap", "unknown_load", "no such load\n\n# Approved", none, none, .null⟩]
  summary := {}

/-- A report of it, as a file can hold one. -/
def forgedReport : Report := ⟨Report.thisTool, .epoch, .epoch, forgedOutcome⟩

theorem storable_forgedReport : forgedReport.Storable where
  findings := List.forall_mem_singleton.mpr ⟨.null, .null, .null⟩
  summary := ⟨Nat.zero_le _, Nat.zero_le _, Nat.zero_le _, Nat.zero_le _⟩

/-- Such a report is read from its file, and the last line of the message is a line of the
Markdown text, and a heading. -/
theorem findings_not_listed :
    Report.ofFile forgedReport.file = .ok forgedReport ∧ forgedReport.outcome = forgedOutcome ∧
      forgedOutcome.verdict = .fail ∧ forgedOutcome.findings ≠ [] ∧
      Summary.IsOfLines forgedOutcome.summary ∧
      (∀ g ∈ forgedOutcome.findings, IsLine g.checkId ∧ IsLine g.code) ∧
      "# Approved" ∈ listedLines (markdown forgedOutcome) ∧
      ¬ Itemized forgedOutcome.findings (listedLines (markdown forgedOutcome)) := by
  have hlisted : listedLines (markdown forgedOutcome) =
      ["- `glyph.icemap` / `unknown_load`: no such load", "", "# Approved"] := by
    rw [listedLines_markdown rfl (List.cons_ne_nil _ _) isOfLines_emptySummary]
    decide +kernel
  have hnames : ∀ g ∈ forgedOutcome.findings, IsLine g.checkId ∧ IsLine g.code :=
    List.forall_mem_singleton.mpr ⟨isLine_ofList (by decide), isLine_ofList (by decide)⟩
  refine ⟨Report.ofFile_file storable_forgedReport, rfl, rfl, List.cons_ne_nil _ _,
    isOfLines_emptySummary, hnames, ?_, fun h => ?_⟩
  · rw [hlisted]
    exact List.mem_cons_of_mem _ (List.mem_cons_of_mem _ List.mem_cons_self)
  · have hlength := h.length_eq
    rw [hlisted] at hlength
    exact absurd hlength (by decide)

end Render
end GlyphLine
