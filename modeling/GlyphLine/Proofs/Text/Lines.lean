import GlyphLine.Proofs.Token.Extraction

/-!
# Lines of a text

A text of lines is cut at its line feeds into the same lines again, and an empty piece behind
the last line feed --- provided that no line holds a line feed itself.

* `toList_concat`, `toList_lines`: the characters of a text that is put together.
* `cutLines`: a text cut at its line feeds.
* `length_cutLines`: the number of lines.
* `cutLines_lines`: the lines of a text of lines.
-/

namespace GlyphLine
namespace Text

/-! ## Texts that are put together -/

theorem toList_concat (parts : List String) :
    (concat parts).toList = parts.flatMap String.toList := by
  have hfold : ∀ (parts : List String) (start : String),
      (parts.foldl (· ++ ·) start).toList = start.toList ++ parts.flatMap String.toList := by
    intro parts
    induction parts with
    | nil => intro start; rw [List.foldl_nil, List.flatMap_nil, List.append_nil]
    | cons s parts ih =>
      intro start
      rw [List.foldl_cons, ih, String.toList_append, List.flatMap_cons, List.append_assoc]
  rw [concat, hfold]
  rfl

theorem toList_lines (ss : List String) :
    (lines ss).toList = ss.flatMap fun s => s.toList ++ ['\n'] := by
  rw [lines, toList_concat, List.flatMap_map]
  exact List.flatMap_congr fun s _ => String.toList_append ..

theorem lines_append (ss ts : List String) : lines (ss ++ ts) = lines ss ++ lines ts := by
  rw [← String.toList_inj, String.toList_append, toList_lines, toList_lines, toList_lines,
    List.flatMap_append]

theorem lines_singleton (s : String) : lines [s] = s ++ "\n" := by
  rw [← String.toList_inj, toList_lines, List.flatMap_singleton, String.toList_append]
  rfl

/-! ## Texts that are cut -/

/-- No line feed occurs. -/
def IsLine (s : String) : Prop := '\n' ∉ s.toList

instance : DecidablePred IsLine := fun s => inferInstanceAs (Decidable ('\n' ∉ s.toList))

/-- The character that ends a line. -/
def isLineFeed (c : Char) : Bool := c == '\n'

/-- The pieces of a text between its line feeds. -/
def cutLines (s : String) : List String := (pieces isLineFeed s.toList).map String.ofList

theorem length_pieces (cut : Char → Bool) :
    ∀ cs : List Char, (pieces cut cs).length = cs.countP cut + 1
  | [] => rfl
  | c :: cs => by
    have ih := length_pieces cut cs
    obtain ⟨p, ps, h⟩ := List.exists_cons_of_ne_nil (pieces_ne_nil cut cs)
    rw [h] at ih
    rw [pieces_cons, h, consPiece, List.countP_cons, ← Nat.succ_inj.mp ih]
    split
    · rfl
    · rfl

/-- A text with `n` line feeds has `n + 1` lines. -/
theorem length_cutLines (s : String) : (cutLines s).length = s.toList.count '\n' + 1 := by
  rw [cutLines, List.length_map, length_pieces]
  rfl

theorem cutLines_eq_singleton {s : String} (h : IsLine s) : cutLines s = [s] := by
  have hs : ∀ c ∈ s.toList, isLineFeed c = false := fun c hc =>
    beq_eq_false_iff_ne.mpr fun heq => h (heq ▸ hc)
  rw [cutLines, pieces_eq_singleton hs, List.map_singleton, String.ofList_toList]

/-- Lines that are joined stay apart. -/
theorem cutLines_lines_eq (ss : List String) : cutLines (lines ss) = ss.flatMap cutLines ++ [""] := by
  rw [cutLines, toList_lines]
  induction ss with
  | nil => rfl
  | cons s ss ih =>
    have hfeed : isLineFeed '\n' = true := rfl
    rw [List.flatMap_cons, List.append_assoc, List.singleton_append, pieces_append_cons hfeed,
      List.map_append, ih, List.flatMap_cons, List.append_assoc]
    rfl

theorem flatMap_cutLines {ss : List String} (h : ∀ s ∈ ss, IsLine s) : ss.flatMap cutLines = ss := by
  rw [List.flatMap_congr fun s hs => cutLines_eq_singleton (h s hs), List.flatMap_singleton']

/-- Lines are cut apart where they have been joined. -/
theorem cutLines_lines {ss : List String} (h : ∀ s ∈ ss, IsLine s) :
    cutLines (lines ss) = ss ++ [""] := by
  rw [cutLines_lines_eq, flatMap_cutLines h]

/-- A literal is checked by its characters. -/
theorem isLine_ofList {cs : List Char} (h : '\n' ∉ cs) : IsLine (String.ofList cs) := by
  rwa [IsLine, String.toList_ofList]

theorem isLine_append_iff {s t : String} : IsLine (s ++ t) ↔ IsLine s ∧ IsLine t := by
  rw [IsLine, String.toList_append, List.mem_append, not_or]
  rfl

theorem IsLine.append {s t : String} (hs : IsLine s) (ht : IsLine t) : IsLine (s ++ t) :=
  isLine_append_iff.mpr ⟨hs, ht⟩

theorem isLine_join {gap : String} (hgap : IsLine gap) :
    ∀ {ss : List String}, (∀ s ∈ ss, IsLine s) → IsLine (join gap ss)
  | [], _ => List.not_mem_nil
  | [s], h => h s List.mem_cons_self
  | s :: _ :: _, h => ((h s List.mem_cons_self).append hgap).append
      (isLine_join hgap fun u hu => h u (List.mem_cons_of_mem s hu))

end Text
end GlyphLine
