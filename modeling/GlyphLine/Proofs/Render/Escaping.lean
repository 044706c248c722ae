import GlyphLine.Lint.Outcome
import GlyphLine.Render.Markdown

/-!
# Which messages Markdown shows alike

In Markdown, marks stand behind a backslash and angle brackets are written by their names.  A
backslash is a mark itself, so that one in a message is told from one that was put there.  But
the sign with which a name begins is written as it is: a message that holds the name of a
bracket is shown as if it held the bracket.

* `readInline`: what a reader sees of an escaped message.
* `unnamed`: a message with brackets in the place of their names.
* `escaped_eq_escaped_iff`: **messages are escaped alike if they differ in such names only**.
* `escaped_bracket_name`: two texts whose findings are shown alike.
-/

namespace GlyphLine
namespace Render

open Lint

variable {cs : List Char}

/-! ## Names of brackets -/

/-- What a reader sees of text in which marks stand behind backslashes and angle brackets are
written by their names. -/
def readInline : List Char → List Char
  | '\\' :: c :: cs => c :: readInline cs
  | '&' :: 'l' :: 't' :: ';' :: cs => '<' :: readInline cs
  | '&' :: 'g' :: 't' :: ';' :: cs => '>' :: readInline cs
  | c :: cs => c :: readInline cs
  | [] => []

/-- A text with angle brackets in the place of their names. -/
def unnamed : List Char → List Char
  | '&' :: 'l' :: 't' :: ';' :: cs => '<' :: unnamed cs
  | '&' :: 'g' :: 't' :: ';' :: cs => '>' :: unnamed cs
  | c :: cs => c :: unnamed cs
  | [] => []

/-- The name of an angle bracket stands somewhere in a text. -/
def HoldsName (cs : List Char) : Prop := ['&', 'l', 't', ';'] <:+: cs ∨ ['&', 'g', 't', ';'] <:+: cs

instance : DecidablePred HoldsName := fun cs =>
  inferInstanceAs (Decidable (['&', 'l', 't', ';'] <:+: cs ∨ ['&', 'g', 't', ';'] <:+: cs))

theorem HoldsName.cons {c : Char} (h : HoldsName cs) : HoldsName (c :: cs) :=
  h.imp (List.IsInfix.trans · (List.suffix_cons c cs).isInfix)
    (List.IsInfix.trans · (List.suffix_cons c cs).isInfix)

/-- Without names a text stays as it is. -/
theorem unnamed_eq_self (h : ¬ HoldsName cs) : unnamed cs = cs := by
  fun_induction unnamed cs with
  | case1 cs _ => exact absurd (.inl ⟨[], cs, rfl⟩) h
  | case2 cs _ => exact absurd (.inr ⟨[], cs, rfl⟩) h
  | case3 c cs _ _ ih => rw [ih fun hcs => h hcs.cons]
  | case4 => rfl

/-- A name is escaped as its bracket is. -/
theorem flatMap_unnamed (cs : List Char) :
    (unnamed cs).flatMap escapedChar = cs.flatMap escapedChar := by
  fun_induction unnamed cs with
  | case1 cs ih => rw [List.flatMap_cons, ih]; rfl
  | case2 cs ih => rw [List.flatMap_cons, ih]; rfl
  | case3 c cs _ _ ih => rw [List.flatMap_cons, List.flatMap_cons, ih]
  | case4 => rfl

/-! ## Reading -/

/-- A character that begins no escape stands for itself. -/
theorem exists_of_flatMap_escaped {c : Char} {rest : List Char} (hsign : c ≠ '&') (hslash : c ≠ '\\')
    (h : cs.flatMap escapedChar = c :: rest) :
    ∃ tail, cs = c :: tail ∧ tail.flatMap escapedChar = rest := by
  cases cs with
  | nil => exact absurd h (List.cons_ne_nil _ _).symm
  | cons d tail =>
    rw [List.flatMap_cons, escapedChar] at h
    split at h
    · exact absurd (List.cons.inj h).1.symm hsign
    split at h
    · exact absurd (List.cons.inj h).1.symm hsign
    split at h
    · exact absurd (List.cons.inj h).1.symm hslash
    · obtain ⟨rfl, rfl⟩ := List.cons.inj h
      exact ⟨tail, rfl, rfl⟩

theorem exists_of_flatMap_name {c : Char} {rest : List Char} (hsign : c ≠ '&') (hslash : c ≠ '\\')
    (h : cs.flatMap escapedChar = c :: 't' :: ';' :: rest) : ∃ tail, cs = c :: 't' :: ';' :: tail := by
  obtain ⟨_, rfl, hletter⟩ := exists_of_flatMap_escaped hsign hslash h
  obtain ⟨_, rfl, hend⟩ := exists_of_flatMap_escaped (by decide) (by decide) hletter
  obtain ⟨tail, rfl, -⟩ := exists_of_flatMap_escaped (by decide) (by decide) hend
  exact ⟨tail, rfl⟩

/-- A reader sees the message with brackets in the place of their names. -/
theorem readInline_flatMap (cs : List Char) : readInline (cs.flatMap escapedChar) = unnamed cs := by
  fun_induction unnamed cs with
  | case1 cs ih => exact congrArg ('<' :: ·) ih
  | case2 cs ih => exact congrArg ('>' :: ·) ih
  | case4 => rfl
  | case3 c cs hleft hright ih =>
    rw [List.flatMap_cons, escapedChar]
    split
    · next hc => rw [hc]; exact congrArg ('<' :: ·) ih
    split
    · next hc => rw [hc]; exact congrArg ('>' :: ·) ih
    split
    · exact congrArg (c :: ·) ih
    · next hmark =>
      have hslash : c ≠ '\\' := by
        rintro rfl
        exact hmark rfl
      -- letters are escaped as themselves, so a name that is read was in the message before
      rw [List.singleton_append, readInline, ih]
      · exact fun _ _ hc _ => hslash hc
      · intro rest hc hrest
        obtain ⟨tail, htail⟩ := exists_of_flatMap_name (by decide) (by decide) hrest
        exact hleft tail hc htail
      · intro rest hc hrest
        obtain ⟨tail, htail⟩ := exists_of_flatMap_name (by decide) (by decide) hrest
        exact hright tail hc htail

/-! ## Messages -/

theorem readInline_escaped (m : String) : readInline (escaped m).toList = unnamed m.toList := by
  rw [escaped, String.toList_ofList, readInline_flatMap]

/-- Two messages are escaped alike exactly if they are the same once the names of angle brackets
in them are read as brackets, which is all that a reader sees of them.  So messages without such
names are told apart. -/
theorem escaped_eq_escaped_iff (m m' : String) :
    readInline (escaped m).toList = unnamed m.toList ∧
      (escaped m = escaped m' ↔ unnamed m.toList = unnamed m'.toList) ∧
      (¬ HoldsName m.toList → ¬ HoldsName m'.toList → m ≠ m' → escaped m ≠ escaped m') := by
  have hiff : escaped m = escaped m' ↔ unnamed m.toList = unnamed m'.toList := by
    constructor
    · intro h
      rw [← readInline_escaped, h, readInline_escaped]
    · intro h
      rw [escaped, escaped, ← flatMap_unnamed, h, flatMap_unnamed]
  refine ⟨readInline_escaped m, hiff, fun hm hm' hne heq => hne (String.toList_inj.mp ?_)⟩
  rw [← unnamed_eq_self hm, hiff.mp heq, unnamed_eq_self hm']

/-- Marks and a name that lacks its end do not make messages alike. -/
theorem escaped_ne_unfinished :
    ¬ HoldsName "~<b>_".toList ∧ ¬ HoldsName "~&ltb>_".toList ∧ "~<b>_" ≠ "~&ltb>_" ∧
      escaped "~<b>_" ≠ escaped "~&ltb>_" := by
  have hname : ¬ HoldsName "~<b>_".toList := by decide +kernel
  have hname' : ¬ HoldsName "~&ltb>_".toList := by decide +kernel
  have hne : "~<b>_" ≠ "~&ltb>_" := by decide
  exact ⟨hname, hname', hne, (escaped_eq_escaped_iff _ _).2.2 hname hname' hne⟩

/-- A token with an angle bracket, and one with its name in this place, are found to be
malformed in different words, but the findings are the same in Markdown. -/
theorem escaped_bracket_name :
    (lint "~<" {} false).findings.map Finding.message = ["Invalid token characters: ~<"] ∧
      (lint "~&lt;" {} false).findings.map Finding.message = ["Invalid token characters: ~&lt;"] ∧
      "Invalid token characters: ~<" ≠ "Invalid token characters: ~&lt;" ∧
      escaped "Invalid token characters: ~<" = escaped "Invalid token characters: ~&lt;" ∧
      resultLines (lint "~<" {} false) = resultLines (lint "~&lt;" {} false) := by
  refine ⟨?_, ?_, ?_, ?_, ?_⟩ <;> decide +kernel

end Render
end GlyphLine
