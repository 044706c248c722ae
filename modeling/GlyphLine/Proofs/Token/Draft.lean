import GlyphLine.Proofs.Token.Extraction
import Mathlib.Data.List.Infix
import Mathlib.Data.List.Pairwise

/-!
# Texts drafted from kinds of tokens

To show that some text keeps a rule, a text has to be written.  It is drafted as a list of
entries, each of which is a kind of token and the value that stands behind it, and spelled
out with blanks between the tokens.

No kind begins with another kind.  So a token that is spelled out has only one entry, and
what tokens the text has can be read off the draft: an entry is in the draft if and only if
its token is in the text.

* `Kind`, `spell`, `draft`: entries, and the text of a draft.
* `mem_draft_iff`, `not_mem_draft`: the tokens of the text.
* `firstValue_draft`: the first value of a kind.
-/

namespace GlyphLine
namespace Token

/-- The kinds of tokens that the rules ask for. -/
inductive Kind where
  | load
  | probe
  | icemap
  | run
  | env
  | trace
  | pressure (p : Pressure)
  | tier (r : ReadyTier)
  | official
  | pass
  | commit
  | hash
  | json
  | arch
  | mani
  | shot
  | report
  | icePlus
  | rgcaPlus
  | zdPlus
  | zdmPlus
  | thaletPlus
  | bridgespecPlus
  | tbPlus
  deriving DecidableEq, Repr

namespace Kind

/-- How the tokens of a kind begin. -/
def start : Kind → String
  | .load => "~LOAD:"
  | .probe => "~PROBE:"
  | .icemap => "~ICEMAP:"
  | .run => "~RUN:"
  | .env => "~ENV:"
  | .trace => "~TRACE:"
  | .pressure p => p.token
  | .tier r => r.token
  | .official => "~DEMO:official"
  | .pass => "~PASS"
  | .commit => "~COMMIT"
  | .hash => "~HASH"
  | .json => "~JSON"
  | .arch => "~ARCH"
  | .mani => "~MANI"
  | .shot => "~SHOT"
  | .report => "~REPORT"
  | .icePlus => "~ICE+"
  | .rgcaPlus => "~RGCA+"
  | .zdPlus => "~ZD+"
  | .zdmPlus => "~ZDM+"
  | .thaletPlus => "~T+"
  | .bridgespecPlus => "~BS+"
  | .tbPlus => "~TB+"

/-- All kinds. -/
def all : List Kind :=
  [.load, .probe, .icemap, .run, .env, .trace] ++ Pressure.descending.map .pressure ++
    ReadyTier.byPriority.map .tier ++
    [.official, .pass, .commit, .hash, .json, .arch, .mani, .shot, .report, .icePlus, .rgcaPlus,
      .zdPlus, .zdmPlus, .thaletPlus, .bridgespecPlus, .tbPlus]

theorem mem_all (k : Kind) : k ∈ all := by
  cases k with
  | pressure p => cases p <;> decide
  | tier r => cases r <;> decide
  | _ => decide

theorem isWellFormed_start (k : Kind) : isWellFormed k.start = true := by
  have h : ∀ k ∈ all, isWellFormed k.start = true := by decide
  exact h k (mem_all k)

end Kind

/-! ## Beginnings that do not overlap -/

/-- Whether one of two strings begins with the other. -/
def overlap (a b : String) : Bool := Text.startsWith a b || Text.startsWith b a

/-- Two beginnings of one string overlap. -/
theorem overlap_of_append_eq {a b v w : String} (h : a ++ v = b ++ w) : overlap a b = true := by
  have ha : a.toList <+: (b ++ w).toList := ⟨v.toList, by rw [← h, String.toList_append]⟩
  have hb : b.toList <+: (b ++ w).toList := ⟨w.toList, (String.toList_append ..).symm⟩
  rw [overlap, Bool.or_eq_true, Text.startsWith, Text.startsWith, List.isPrefixOf_iff_prefix,
    List.isPrefixOf_iff_prefix]
  exact List.prefix_or_prefix_of_prefix ha hb

theorem overlap_comm (a b : String) : overlap a b = overlap b a := Bool.or_comm ..

/-- No kind begins with another one. -/
theorem Kind.eq_of_overlap {k l : Kind} (h : overlap k.start l.start = true) : k = l := by
  have hpairs : all.Pairwise fun k l => overlap k.start l.start = false := by decide +kernel
  have hsymm : Std.Symm fun k l : Kind => overlap k.start l.start = false :=
    ⟨fun k l hkl => (overlap_comm ..).trans hkl⟩
  by_contra hne
  exact absurd h (Bool.eq_false_iff.mp (hpairs.forall (mem_all k) (mem_all l) hne))

/-! ## Drafts -/

/-- The token of an entry. -/
def spell (e : Kind × String) : String := e.1.start ++ e.2

/-- The text of a draft. -/
def draft (es : List (Kind × String)) : String := Text.join " " (es.map spell)

theorem spell_injective : Function.Injective spell := by
  rintro ⟨k, v⟩ ⟨l, w⟩ h
  obtain rfl : k = l := Kind.eq_of_overlap (overlap_of_append_eq h)
  have hchars : k.start.toList ++ v.toList = k.start.toList ++ w.toList := by
    rw [← String.toList_append, ← String.toList_append]
    exact congrArg String.toList h
  rw [String.toList_inj.mp (List.append_cancel_left hchars)]

/-- The tokens of a draft are those of its text, if its values consist of token
characters. -/
theorem ordered_draft {es : List (Kind × String)} (hes : ∀ e ∈ es, HasTokenChars e.2) :
    (TokenSet.ofText (draft es)).ordered = es.map spell := by
  refine extract_join fun u hu => ?_
  obtain ⟨e, he, rfl⟩ := List.mem_map.mp hu
  exact (isWellFormed_append_iff e.1.isWellFormed_start).mpr (hes e he)

section

variable {es : List (Kind × String)} (hes : ∀ e ∈ es, HasTokenChars e.2)
include hes

theorem mem_draft_iff {k : Kind} {v : String} :
    k.start ++ v ∈ (TokenSet.ofText (draft es)).ordered ↔ (k, v) ∈ es := by
  rw [ordered_draft hes]
  exact List.mem_map_of_injective (a := (k, v)) spell_injective

theorem start_mem_draft_iff (k : Kind) :
    k.start ∈ (TokenSet.ofText (draft es)).ordered ↔ (k, "") ∈ es := by
  rw [← mem_draft_iff hes, String.append_empty]

/-- A token that overlaps with no kind is not in the text. -/
theorem not_mem_draft {s v : String} (hs : ∀ k : Kind, overlap s k.start = false) :
    s ++ v ∉ (TokenSet.ofText (draft es)).ordered := by
  rw [ordered_draft hes, List.mem_map]
  rintro ⟨e, -, he⟩
  exact absurd (overlap_of_append_eq he.symm) (Bool.eq_false_iff.mp (hs e.1))

/-- A kind that has at most one value has this one first. -/
theorem firstValue_draft {k : Kind} {v : String}
    (hunique : ∀ {w w'}, (k, w) ∈ es → (k, w') ∈ es → w = w') :
    (TokenSet.ofText (draft es)).firstValue k.start = some v ↔ (k, v) ∈ es := by
  rw [← mem_draft_iff hes]
  refine ⟨TokenSet.mem_of_firstValue, fun h => ?_⟩
  cases hfirst : (TokenSet.ofText (draft es)).firstValue k.start with
  | none => exact absurd h (TokenSet.firstValue_eq_none_iff.mp hfirst v)
  | some w =>
    have hw := TokenSet.mem_of_firstValue hfirst
    rw [hunique ((mem_draft_iff hes).mp hw) ((mem_draft_iff hes).mp h)]

end

end Token
end GlyphLine
