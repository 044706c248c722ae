import GlyphLine.Host.Path
import GlyphLine.Host.Volume
import GlyphLine.Proofs.Text.Pieces
import Mathlib.Data.List.TakeDrop

/-!
# The path without its last name

Of the names of a path only some lead on: an empty name, between two slashes, and a point stand
for the directory that has been reached.  The others are the *steps* of the path.

A path is taken for a directory and a name in it by its characters, from the end: slashes and
points are passed over, then one name is cut off, and then slashes and points once more.  What
comes of this is the path with one step less, if there is a step at all, and it ends with a step
again.  So whoever goes from a path to the one without its last name, and on from there, goes back
step by step to where the path begins.

* `isStep`, `steps`: the names that lead on.
* `steps_trimReversed`: what is passed over is no step.
* `Parent`: a path without its last step.
* `parent?_eq_some`, `parent?_eq_none`: what the path without its last name is, if there is one.
-/

namespace GlyphLine
namespace Path

open Text (startsWith)
open Volume (namesOf)

/-! ## Steps -/

/-- A name that leads on. -/
def isStep (name : String) : Bool := name != "" && name != "."

/-- The names between the slashes of a text. -/
def names (cs : List Char) : List String := (Text.pieces (· == '/') cs).map String.ofList

/-- The names that lead on. -/
def steps (cs : List Char) : List String := (names cs).filter isStep

variable {cs : List Char}

theorem names_append (a b : List Char) : names (a ++ '/' :: b) = names a ++ names b := by
  rw [names, Text.pieces_append_cons (by decide), List.map_append]
  rfl

theorem names_of_not_mem (h : '/' ∉ cs) : names cs = [String.ofList cs] := by
  have hcut : ∀ c ∈ cs, (c == '/') = false := fun c hc => beq_false_of_ne fun heq => h (heq ▸ hc)
  rw [names, Text.pieces_eq_singleton hcut, List.map_singleton]

theorem steps_append (a b : List Char) : steps (a ++ '/' :: b) = steps a ++ steps b := by
  rw [steps, names_append, List.filter_append]
  rfl

theorem steps_nil : steps [] = [] := by decide

theorem steps_point : steps ['.'] = [] := by decide

/-- A slash in front is no step. -/
theorem steps_cons_slash (cs : List Char) : steps ('/' :: cs) = steps cs := by
  rw [← List.nil_append ('/' :: cs), steps_append, steps_nil, List.nil_append]

theorem length_steps_le (cs : List Char) : (steps cs).length ≤ cs.length := by
  induction cs with
  | nil => exact Nat.le_of_eq (congrArg List.length steps_nil)
  | cons c cs ih =>
    obtain ⟨p, ps, hpieces⟩ := List.exists_cons_of_ne_nil (Text.pieces_ne_nil (· == '/') cs)
    rw [steps, names, hpieces, List.map_cons] at ih
    rw [steps, names, Text.pieces_cons, hpieces, Text.consPiece, List.length_cons]
    split
    · rw [List.map_cons, List.map_cons, List.filter_cons_of_neg (by decide)]
      exact Nat.le_succ_of_le ih
    · have hrest : ((ps.map String.ofList).filter isStep).length ≤ cs.length :=
        Nat.le_trans ((List.sublist_cons_self _ _).filter isStep).length_le ih
      rw [List.map_cons, List.filter_cons]
      split
      · exact Nat.succ_le_succ hrest
      · exact Nat.le_succ_of_le hrest

/-! ## What is passed over -/

/-- Slashes and points at the end of a path are no steps. -/
theorem steps_trimReversed (cs : List Char) :
    steps (trimReversed cs).reverse = steps cs.reverse := by
  fun_induction trimReversed cs with
  | case1 cs ih =>
    rw [ih, List.reverse_cons, steps_append, steps_nil, List.append_nil]
  | case2 => rw [List.reverse_nil, steps_nil, List.reverse_singleton, steps_point]
  | case3 cs ih =>
    rw [ih, List.reverse_cons, List.reverse_cons, List.append_assoc, List.singleton_append,
      steps_append, steps_point, List.append_nil]
  | case4 => rfl

theorem isSuffix_trimReversed (cs : List Char) : trimReversed cs <:+ cs := by
  fun_induction trimReversed cs with
  | case1 cs ih => exact ih.trans (List.suffix_cons _ _)
  | case2 => exact List.nil_suffix
  | case3 cs ih => exact ih.trans ((List.suffix_cons _ _).trans (List.suffix_cons _ _))
  | case4 => exact List.suffix_rfl

theorem isStep_ofList_iff : isStep (String.ofList cs) = true ↔ cs ≠ [] ∧ cs ≠ ['.'] := by
  have hempty : String.ofList cs = "" ↔ cs = [] := by rw [← String.ofList_nil, String.ofList_inj]
  have hpoint : String.ofList cs = "." ↔ cs = ['.'] := by
    rw [show "." = String.ofList ['.'] from rfl, String.ofList_inj]
  rw [isStep, Bool.and_eq_true, bne_iff_ne, bne_iff_ne, Ne, Ne, hempty, hpoint]

/-- Behind what is passed over stands a step. -/
theorem isStep_trimReversed (h : trimReversed cs ≠ []) :
    isStep (String.ofList ((trimReversed cs).takeWhile (· != '/')).reverse) = true := by
  fun_induction trimReversed cs with
  | case1 cs ih => exact ih h
  | case2 => exact absurd rfl h
  | case3 cs ih => exact ih h
  | case4 cs hslash hpoint hpoints =>
    obtain ⟨c, tail, rfl⟩ := List.exists_cons_of_ne_nil h
    have hc : c ≠ '/' := fun heq => hslash tail (heq ▸ rfl)
    rw [isStep_ofList_iff, List.takeWhile_cons_of_pos (p := (· != '/')) (bne_iff_ne.mpr hc)]
    refine ⟨List.reverse_ne_nil_iff.mpr (List.cons_ne_nil _ _), fun hname => ?_⟩
    obtain ⟨rfl, htail⟩ := List.cons.inj (List.reverse_eq_iff.mp hname)
    -- a point alone is passed over, at the front and behind a slash
    cases tail with
    | nil => exact hpoint rfl
    | cons d tail =>
      by_cases hd : d = '/'
      · exact hpoints tail (hd ▸ rfl)
      · rw [List.takeWhile_cons_of_pos (p := (· != '/')) (bne_iff_ne.mpr hd)] at htail
        exact List.cons_ne_nil _ _ htail

/-! ## The last name -/

theorem slash_not_mem_takeWhile (ys : List Char) : '/' ∉ (ys.takeWhile (· != '/')).reverse :=
  fun hmem => by simpa using List.all_eq_true.mp List.all_takeWhile _ (List.mem_reverse.mp hmem)

/-- A reversed path begins with its last name, and with a slash behind it if there is more. -/
theorem eq_takeWhile_or_exists (ys : List Char) :
    (ys = ys.takeWhile (· != '/') ∧ ys.dropWhile (· != '/') = []) ∨
      ∃ rest, ys = ys.takeWhile (· != '/') ++ '/' :: rest ∧
        ys.dropWhile (· != '/') = '/' :: rest := by
  have hys : ys.takeWhile (· != '/') ++ ys.dropWhile (· != '/') = ys :=
    List.takeWhile_append_dropWhile
  cases hrest : ys.dropWhile (· != '/') with
  | nil =>
    rw [hrest, List.append_nil] at hys
    exact .inl ⟨hys.symm, rfl⟩
  | cons c rest =>
    have hc := List.head?_dropWhile_not (· != '/') ys
    rw [hrest] at hc hys
    obtain rfl : c = '/' := by simpa using hc
    exact .inr ⟨rest, hys.symm, rfl⟩

/-- Without its last name a path has one step less, if the name is one. -/
theorem steps_reverse {ys : List Char}
    (h : isStep (String.ofList (ys.takeWhile (· != '/')).reverse) = true) :
    steps ys.reverse = steps (ys.dropWhile (· != '/')).reverse ++
      [String.ofList (ys.takeWhile (· != '/')).reverse] := by
  have hname : steps (ys.takeWhile (· != '/')).reverse =
      [String.ofList (ys.takeWhile (· != '/')).reverse] := by
    rw [steps, names_of_not_mem (slash_not_mem_takeWhile ys), List.filter_cons_of_pos h]
    rfl
  rcases eq_takeWhile_or_exists ys with ⟨hys, hrest⟩ | ⟨rest, hys, hrest⟩
  · rw [hrest, List.reverse_nil, steps_nil, List.nil_append, ← hname, ← hys]
  · rw [hrest, List.reverse_cons, steps_append, steps_nil, List.append_nil, ← hname,
      ← steps_append]
    conv => lhs; rw [hys, List.reverse_append, List.reverse_cons, List.append_assoc]
    rfl

/-! ## Where a path begins -/

/-- The beginning of a path and its rest: a slash, a point in front of a slash or alone, or no
beginning at all. -/
inductive Splits : List Char → List Char → List Char → Prop
  | root (body : List Char) : Splits ('/' :: body) ['/'] body
  | point {body : List Char} (hbody : ∀ c ∈ body.head?, c = '/') : Splits ('.' :: body) ['.'] body
  | bare {body : List Char} (hbody : body.head? ≠ some '/') : Splits body [] body

theorem splits_splitStart (cs : List Char) : Splits cs (splitStart cs).1 (splitStart cs).2 := by
  unfold splitStart
  split
  · exact .root _
  · exact .point (by simp)
  · exact .point (by simp)
  · next hslash _ _ =>
    refine .bare fun hhead => ?_
    obtain ⟨tail, rfl⟩ := List.head?_eq_some_iff.mp hhead
    exact hslash tail rfl

namespace Splits

variable {start body b : List Char}

theorem eq_append (h : Splits cs start body) : cs = start ++ body := by
  cases h <;> rfl

/-- The beginning is no step. -/
theorem steps_eq (h : Splits cs start body) (hb : b <+: body) : steps (start ++ b) = steps b := by
  cases h with
  | root => exact steps_cons_slash b
  | bare => rfl
  | point hbody =>
    cases b with
    | nil => exact steps_point.trans steps_nil.symm
    | cons c b =>
      obtain ⟨rest, rfl⟩ := hb
      obtain rfl : c = '/' := hbody c rfl
      rw [steps_append, steps_point, List.nil_append, steps_cons_slash]

/-- What is left of a path begins where the path does. -/
theorem head?_eq_slash_iff (h : Splits cs start body) (hb : b <+: body) :
    (start ++ b).head? = some '/' ↔ cs.head? = some '/' := by
  cases h with
  | root => exact Iff.rfl
  | point => exact Iff.rfl
  | bare hbody =>
    obtain ⟨rest, rfl⟩ := hb
    refine iff_of_false (fun hslash => hbody ?_) hbody
    rw [List.nil_append] at hslash
    rw [List.head?_append, hslash]
    rfl

/-- A rest without slashes is the last name. -/
theorem exists_names_eq (h : Splits cs start body) (hb : b <+: body) (hne : b ≠ [])
    (hslash : '/' ∉ b) : ∃ front, names (start ++ b) = front ++ [String.ofList b] := by
  cases h with
  | root => exact ⟨names [], by rw [← names_of_not_mem hslash, ← names_append]; rfl⟩
  | bare => exact ⟨[], names_of_not_mem hslash⟩
  | point hbody =>
    obtain ⟨c, b, rfl⟩ := List.exists_cons_of_ne_nil hne
    obtain ⟨rest, rfl⟩ := hb
    obtain rfl : c = '/' := hbody c rfl
    exact absurd List.mem_cons_self hslash

/-- What is left of a path once slashes and points have been passed over ends with a step, unless
it has none at all. -/
theorem exists_names_trimReversed (h : Splits cs start body) {ds : List Char}
    (hds : (trimReversed ds).reverse <+: body) (hne : trimReversed ds ≠ []) :
    ∃ front name, names (start ++ (trimReversed ds).reverse) = front ++ [name] ∧
      isStep name = true := by
  have hstep := isStep_trimReversed hne
  generalize trimReversed ds = ys at hds hne hstep
  have hslash := slash_not_mem_takeWhile ys
  rcases eq_takeWhile_or_exists ys with ⟨hys, -⟩ | ⟨rest, hys, -⟩
  · rw [← hys] at hslash hstep
    obtain ⟨front, hfront⟩ := h.exists_names_eq hds (List.reverse_ne_nil_iff.mpr hne) hslash
    exact ⟨front, _, hfront, hstep⟩
  · refine ⟨names (start ++ rest.reverse), _, ?_, hstep⟩
    rw [← names_of_not_mem hslash, ← names_append, List.append_assoc]
    conv => lhs; rw [hys, List.reverse_append, List.reverse_cons, List.append_assoc]
    rfl

end Splits

/-! ## Parents -/

/-- The names of a path end with a step, unless there is none among them. -/
def Ends (names : List String) : Prop :=
  names.filter isStep = [] ∨ ∃ front name, names = front ++ [name] ∧ isStep name = true

/-- What is left of a path without its last step: it begins where the path does. -/
structure Parent (path parent : String) : Prop where
  start : startsWith "/" parent = startsWith "/" path
  ends : Ends (names parent.toList)
  step : ∃ name, isStep name = true ∧ steps path.toList = steps parent.toList ++ [name]

theorem startsWith_slash_iff {path : String} :
    startsWith "/" path = true ↔ path.toList.head? = some '/' := by
  rw [startsWith, show "/".toList = ['/'] from rfl, List.isPrefixOf_iff_prefix,
    List.head?_eq_some_iff]
  exact exists_congr fun tail => eq_comm

/-- The path without its last name is the path without its last step, or is empty if there is no
step. -/
theorem parent?_eq_some {path parent : String} (h : parent? path = some parent) :
    Parent path parent ∨ (steps path.toList = [] ∧ parent = "") := by
  have hsplits := splits_splitStart path.toList
  rw [parent?, split?] at h
  generalize splitStart path.toList = parts at h hsplits
  obtain ⟨start, body⟩ := parts
  dsimp only at h hsplits
  have hsteps : steps path.toList = steps (trimReversed body.reverse).reverse := by
    rw [hsplits.eq_append, hsplits.steps_eq List.prefix_rfl, steps_trimReversed,
      List.reverse_reverse]
  split at h
  · next hnil =>
    rw [hnil] at hsteps
    split at h
    · exact .inr ⟨hsteps.trans steps_nil, (Option.some_inj.mp h).symm⟩
    · cases h
  · next hne =>
    obtain rfl : _ = parent := Option.some_inj.mp h
    have hstep := isStep_trimReversed hne
    have hfront : (trimReversed ((trimReversed body.reverse).dropWhile (· != '/'))).reverse <+:
        body := by
      rw [← List.reverse_suffix, List.reverse_reverse]
      exact (isSuffix_trimReversed _).trans
        ((List.dropWhile_suffix _).trans (isSuffix_trimReversed _))
    have hparent := hsplits.steps_eq hfront
    rw [steps_trimReversed] at hparent
    refine .inl ⟨?_, ?_, _, hstep, ?_⟩
    · rw [Bool.eq_iff_iff, startsWith_slash_iff, startsWith_slash_iff, String.toList_ofList]
      exact hsplits.head?_eq_slash_iff hfront
    · rw [String.toList_ofList]
      by_cases hnil : trimReversed ((trimReversed body.reverse).dropWhile (· != '/')) = []
      · refine .inl ?_
        rw [hnil, List.reverse_nil, ← steps, hsplits.steps_eq List.nil_prefix]
        exact steps_nil
      · exact .inr (hsplits.exists_names_trimReversed hfront hnil)
    · rw [hsteps, String.toList_ofList, hparent]
      exact steps_reverse hstep

theorem parent?_eq_none {path : String} (h : parent? path = none) : steps path.toList = [] := by
  have hsplits := splits_splitStart path.toList
  rw [parent?, split?] at h
  generalize splitStart path.toList = parts at h hsplits
  obtain ⟨start, body⟩ := parts
  dsimp only at h hsplits
  split at h
  · next hnil =>
    rw [hsplits.eq_append, hsplits.steps_eq List.prefix_rfl, ← List.reverse_reverse body,
      ← steps_trimReversed, hnil]
    rfl
  · cases h

end Path
end GlyphLine
