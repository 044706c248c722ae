import GlyphLine.Proofs.Json.Numeral
import GlyphLine.Proofs.Json.Quoted

/-!
# What is accepted is JSON

Whatever a reader accepts is a written value with white space in front of it.  The readers
differ in what they make of a value, and in which ones they have a fault for; none of them takes
anything for a value that is none.  The same holds of skipping, which is not recursive and keeps
the lists and objects that it is in on a stack: what the stack still demands of the text is
written down as `Closes`, and each round of the skipping is one of the ways to get on with it.

## Main definitions

* `StartsValue`: a text that begins with a value.
* `Closes`, `Round`: what the stack of the skipping demands, and what a round of it does.
* `ReadsValues`: that a reader accepts nothing but values.

## Main statements

* `startsValue_of_skipValue`: what is skipped is a value.
* `readsValues_any`, `ReadsValues.optional`, `readsValues_choice`, `ReadsValues.list`,
  `ReadsValues.table`, `readsValues_record`: what the readers accept is a value.
* `ReadsValues.exists_tree`: **every text that is accepted is a value with white space around
  it**.
-/

namespace GlyphLine
namespace Json

open Lexeme

/-- `s` begins with a value, with white space in front of it or without, and `rest` is what
follows. -/
def StartsValue (s rest : List Char) : Prop :=
  ∃ (g : Gap) (t : Tree), s = g.chars ++ (t.chars ++ rest)

/-! ## What stands between the parts -/

/-- White space in front is a gap. -/
theorem exists_gap (s : List Char) : ∃ g : Gap, s = g.chars ++ skipSpace s := by
  have hspace : ∀ c ∈ s.takeWhile isSpace, c = ' ' ∨ c = '\n' ∨ c = '\t' ∨ c = '\r' := by
    intro c hc
    have h : isSpace c = true := List.mem_takeWhile_imp hc
    simpa [isSpace, or_assoc] using h
  exact ⟨⟨s.takeWhile isSpace, hspace⟩, List.takeWhile_append_dropWhile.symm⟩

/-- White space in front of a value is part of what stands in front of it. -/
theorem StartsValue.of_skipSpace {s rest : List Char} {t : Tree}
    (h : skipSpace s = t.chars ++ rest) : StartsValue s rest := by
  obtain ⟨g, hg⟩ := exists_gap s
  exact ⟨g, t, by rw [hg, h]⟩

theorem eq_append_of_word {letters s rest : List Char} (h : word letters s = .ok rest) :
    s = letters ++ rest := by
  induction letters generalizing s with
  | nil => exact Except.ok.inj h
  | cons l ls ih =>
    cases s with
    | nil => cases h
    | cons c s =>
      rw [word] at h
      split at h
      · next hc => rw [← hc, ih h, List.cons_append]
      · cases h

theorem exists_gap_of_colon {s rest : List Char} (h : colon s = .ok rest) :
    ∃ g : Gap, s = g.chars ++ ':' :: rest := by
  obtain ⟨g, hg⟩ := exists_gap s
  unfold colon at h
  split at h
  · cases h
  · next heq =>
    cases h
    exact ⟨g, by rw [hg, heq]⟩
  · cases h

theorem exists_gap_of_nextItem {first : Bool} {s rest : List Char}
    (h : nextItem first s = .ok (false, rest)) : ∃ g : Gap, s = g.chars ++ ']' :: rest := by
  obtain ⟨g, hg⟩ := exists_gap s
  unfold nextItem at h
  split at h
  · cases h
  · next heq =>
    cases h
    exact ⟨g, by rw [hg, heq]⟩
  · split at h
    · cases h
    · split at h
      · split at h
        · cases h
        · cases h
        · cases h
      · cases h

theorem exists_place_of_nextItem {first : Bool} {s rest : List Char}
    (h : nextItem first s = .ok (true, rest)) : ∃ p : Place, s = Tree.lead first p ++ rest := by
  obtain ⟨g, hg⟩ := exists_gap s
  unfold nextItem at h
  split at h
  · cases h
  · cases h
  · next c behind _ heq =>
    split at h
    · next hfirst =>
      cases h
      refine ⟨⟨g, .none⟩, ?_⟩
      rw [hg, heq, hfirst, Tree.lead, List.append_assoc]
      rfl
    · next hfirst =>
      obtain rfl : first = false := by simpa using hfirst
      split at h
      · next hc =>
        subst hc
        obtain ⟨g', hg'⟩ := exists_gap behind
        split at h
        · cases h
        · cases h
        · cases h
          refine ⟨⟨g, g'⟩, ?_⟩
          rw [hg, heq, Tree.lead, List.append_assoc, List.append_assoc, ← hg']
          rfl
      · cases h

theorem exists_gap_of_nextKey {first : Bool} {s rest : List Char}
    (h : nextKey first s = .ok (false, rest)) : ∃ g : Gap, s = g.chars ++ '}' :: rest := by
  obtain ⟨g, hg⟩ := exists_gap s
  unfold nextKey at h
  split at h
  · cases h
  · next heq =>
    cases h
    exact ⟨g, by rw [hg, heq]⟩
  · split at h
    · split at h
      · cases h
      · cases h
    · split at h
      · split at h
        · cases h
        · cases h
        · cases h
        · cases h
      · cases h

theorem exists_place_of_nextKey {first : Bool} {s rest : List Char}
    (h : nextKey first s = .ok (true, rest)) :
    ∃ p : Place, s = Tree.lead first p ++ '\"' :: rest := by
  obtain ⟨g, hg⟩ := exists_gap s
  unfold nextKey at h
  split at h
  · cases h
  · cases h
  · next c behind _ heq =>
    split at h
    · next hfirst =>
      split at h
      · next hc =>
        cases h
        refine ⟨⟨g, .none⟩, ?_⟩
        rw [hg, heq, hfirst, hc, Tree.lead, List.append_assoc]
        rfl
      · cases h
    · next hfirst =>
      obtain rfl : first = false := by simpa using hfirst
      split at h
      · next hc =>
        subst hc
        obtain ⟨g', hg'⟩ := exists_gap behind
        split at h
        · cases h
        · next heq' =>
          cases h
          refine ⟨⟨g, g'⟩, ?_⟩
          rw [hg, heq, Tree.lead, List.append_assoc, List.append_assoc, ← heq', ← hg']
          rfl
        · cases h
        · cases h
      · cases h

/-! ## Loops -/

/-- White space behind a comma belongs to the place behind it. -/
theorem lead_append (first : Bool) (p : Place) (g : Gap) (s : List Char) :
    Tree.lead first p ++ (g.chars ++ s) = Tree.lead first ⟨p.before, p.behind.append g⟩ ++ s := by
  simp [Tree.lead, Gap.append]

variable {α σ : Type}

/-- A list is read to its end only if it is one, given that its items are values. -/
theorem exists_items {read : List Char → Read α}
    (hread : ∀ s a rest, read s = .ok (a, rest) → StartsValue s rest) {rounds : Nat}
    {first : Bool} {done : List α} {s : List Char} {as : List α} {rest : List Char}
    (h : items read rounds first done s = .ok (as, rest)) :
    ∃ ts last, s = Tree.itemChars first ts last ++ rest := by
  induction rounds generalizing first done s with
  | zero => cases h
  | succ rounds ih =>
    rw [items] at h
    split at h
    · cases h
    · next hnext =>
      cases h
      obtain ⟨g, rfl⟩ := exists_gap_of_nextItem hnext
      exact ⟨[], g, (Tree.itemChars_nil ..).symm⟩
    · next hnext =>
      obtain ⟨p, rfl⟩ := exists_place_of_nextItem hnext
      split at h
      · cases h
      · next hitem =>
        obtain ⟨g, t, rfl⟩ := hread _ _ _ hitem
        obtain ⟨ts, last, rfl⟩ := ih h
        refine ⟨(⟨p.before, p.behind.append g⟩, t) :: ts, last, ?_⟩
        rw [lead_append, Tree.itemChars_cons]

/-- What follows a key: a colon and a value. -/
def StartsMember (s rest : List Char) : Prop :=
  ∃ (g : Gap) (s' : List Char), s = g.chars ++ ':' :: s' ∧ StartsValue s' rest

/-- An object is read to its end only if it is one, given that its members have values. -/
theorem exists_members {size : Nat} {step : σ → String → List Char → Read σ}
    (hstep : ∀ state key s state' rest, step state key s = .ok (state', rest) →
      StartsMember s rest) {rounds : Nat} {first : Bool} {state : σ} {s : List Char} {state' : σ}
    {rest : List Char} (h : members size step rounds first state s = .ok (state', rest)) :
    ∃ ms last, s = Tree.memberChars first ms last ++ rest := by
  induction rounds generalizing first state s with
  | zero => cases h
  | succ rounds ih =>
    rw [members] at h
    split at h
    · cases h
    · next hnext =>
      cases h
      obtain ⟨g, rfl⟩ := exists_gap_of_nextKey hnext
      exact ⟨[], g, (Tree.memberChars_nil ..).symm⟩
    · next hnext =>
      obtain ⟨p, rfl⟩ := exists_place_of_nextKey hnext
      split at h
      · cases h
      · next hkey =>
        obtain ⟨q, rfl⟩ := exists_quoted_of_string hkey
        split at h
        · cases h
        · next hmember =>
          obtain ⟨before, _, rfl, behind, t, rfl⟩ := hstep _ _ _ _ _ hmember
          obtain ⟨ms, last, rfl⟩ := ih h
          refine ⟨(⟨p, q, before, behind⟩, t) :: ms, last, ?_⟩
          rw [Tree.memberChars_cons]

/-! ## Skipping -/

theorem exists_quoted_of_skipKey {size : Nat} {s rest : List Char}
    (h : skipKey size .object s = .ok rest) :
    ∃ (g : Gap) (q : Quoted) (g' : Gap), s = g.chars ++ (q.chars ++ (g'.chars ++ ':' :: rest)) := by
  obtain ⟨g, hg⟩ := exists_gap s
  unfold skipKey at h
  dsimp only at h
  split at h
  · cases h
  · next heq =>
    split at h
    · next hkey =>
      obtain ⟨q, rfl⟩ := exists_quoted_of_skipString hkey
      obtain ⟨g', rfl⟩ := exists_gap_of_colon h
      refine ⟨g, q, g', ?_⟩
      rw [hg, heq, Quoted.chars]
      simp
    · cases h
  · cases h

/-- What is skipped as a word, a number or a string is one. -/
theorem exists_tree_of_skipPlain {size : Nat} {s rest : List Char}
    (h : skipPlain size s = .ok rest) : ∃ t : Tree, s = t.chars ++ rest := by
  unfold skipPlain at h
  split at h
  · cases h
  · exact ⟨.null, congrArg ('n' :: ·) (eq_append_of_word h)⟩
  · exact ⟨.bool true, congrArg ('t' :: ·) (eq_append_of_word h)⟩
  · exact ⟨.bool false, congrArg ('f' :: ·) (eq_append_of_word h)⟩
  · obtain ⟨q, rfl⟩ := exists_quoted_of_skipString h
    exact ⟨.string q, by rw [Tree.chars, Quoted.chars]; simp⟩
  · split at h
    · obtain ⟨n, hn⟩ := exists_numeral h
      exact ⟨.number n, by rw [Tree.chars, hn]⟩
    · cases h

/-- What the lists and objects of `frames`, innermost first, demand up to `rest`.  The innermost
one may not have got any item or member yet. -/
def Closes : (first : Bool) → List Frame → List Char → List Char → Prop
  | _, [], s, rest => s = rest
  | first, .list :: frames, s, rest =>
    ∃ ts last s', s = Tree.itemChars first ts last ++ s' ∧ Closes false frames s' rest
  | first, .object :: frames, s, rest =>
    ∃ ms last s', s = Tree.memberChars first ms last ++ s' ∧ Closes false frames s' rest

/-- What the rest of a value demands, from where the skipping stands. -/
def Left (frames : List Frame) (s rest : List Char) : Skipping → Prop
  | .value => ∃ s', StartsValue s s' ∧ Closes false frames s' rest
  | .entered => Closes true frames s rest
  | .between => Closes false frames s rest

/-- The bracket ends the innermost list or object. -/
theorem Closes.bracket {first : Bool} {frame : Frame} {frames : List Frame} {s rest : List Char}
    (h : Closes false frames s rest) (g : Gap) :
    Closes first (frame :: frames) (g.chars ++ frame.bracket :: s) rest := by
  cases frame with
  | list => exact ⟨[], g, s, (Tree.itemChars_nil ..).symm, h⟩
  | object => exact ⟨[], g, s, (Tree.memberChars_nil ..).symm, h⟩

/-- One more item, or one more member, in the innermost list or object. -/
theorem Closes.step {size : Nat} {first : Bool} {frame : Frame} {frames : List Frame}
    {s s' rest : List Char} (hkey : skipKey size frame s = .ok s')
    (h : Left (frame :: frames) s' rest .value) (g : Gap) :
    Closes first (frame :: frames) (g.chars ++ (Tree.comma first ++ s)) rest := by
  obtain ⟨_, ⟨behind, t, rfl⟩, hclose⟩ := h
  cases frame with
  | list =>
    obtain rfl := Except.ok.inj hkey
    obtain ⟨ts, last, s', rfl, hclose⟩ := hclose
    refine ⟨(⟨g, behind⟩, t) :: ts, last, s', ?_, hclose⟩
    simp [Tree.itemChars_cons, Tree.lead]
  | object =>
    obtain ⟨before, q, beforeColon, rfl⟩ := exists_quoted_of_skipKey hkey
    obtain ⟨ms, last, s', rfl, hclose⟩ := hclose
    refine ⟨(⟨⟨g, before⟩, q, beforeColon, behind⟩, t) :: ms, last, s', ?_, hclose⟩
    simp [Tree.memberChars_cons, Tree.lead, Quoted.chars]

/-- Where the skipping stands inside a list or an object, from which it has got an item or a
member already unless `first`. -/
def inside (first : Bool) : Skipping := if first then .entered else .between

/-- A round of the skipping that goes on: where it stands, in which lists and objects, and in
front of what, before the round and after it. -/
inductive Round (size : Nat) :
    Skipping → List Frame → List Char → Skipping → List Frame → List Char → Prop where
  | list (frames : List Frame) (g : Gap) (s : List Char) :
      Round size .value frames (g.chars ++ '[' :: s) .entered (.list :: frames) s
  | object (frames : List Frame) (g : Gap) (s : List Char) :
      Round size .value frames (g.chars ++ '{' :: s) .entered (.object :: frames) s
  | plain (frames : List Frame) (g : Gap) (t : Tree) (s : List Char) :
      Round size .value frames (g.chars ++ (t.chars ++ s)) .between frames s
  | bracket (first : Bool) (frame : Frame) (frames : List Frame) (g : Gap) (s : List Char) :
      Round size (inside first) (frame :: frames) (g.chars ++ frame.bracket :: s) .between frames s
  | step (first : Bool) {frame : Frame} (frames : List Frame) (g : Gap) {s s' : List Char}
      (hkey : skipKey size frame s = .ok s') :
      Round size (inside first) (frame :: frames) (g.chars ++ (Tree.comma first ++ s))
        .value (frame :: frames) s'

/-- A round gets on with what is left of a value. -/
theorem Round.left {size : Nat} {mode mode' : Skipping} {frames frames' : List Frame}
    {s s' rest : List Char} (h : Round size mode frames s mode' frames' s')
    (hleft : Left frames' s' rest mode') : Left frames s rest mode := by
  have hinside {first : Bool} {frames : List Frame} {s : List Char}
      (h : Closes first frames s rest) : Left frames s rest (inside first) := by
    cases first with
    | true => exact h
    | false => exact h
  cases h with
  | list frames g s =>
    obtain ⟨ts, last, s', rfl, hclose⟩ := hleft
    exact ⟨s', ⟨g, .list ts last, rfl⟩, hclose⟩
  | object frames g s =>
    obtain ⟨ms, last, s', rfl, hclose⟩ := hleft
    exact ⟨s', ⟨g, .object ms last, rfl⟩, hclose⟩
  | plain frames g t s => exact ⟨s', ⟨g, t, rfl⟩, hleft⟩
  | bracket first frame frames g s => exact hinside (Closes.bracket hleft g)
  | step first frames g hkey => exact hinside (Closes.step hkey hleft g)

/-- Skipping that succeeds is at its end, or it goes on by a round. -/
theorem round_of_skipSteps {size rounds : Nat} {mode : Skipping} {frames : List Frame}
    {s rest : List Char} (h : skipSteps size (rounds + 1) mode frames s = .ok rest) :
    Left frames s rest mode ∨ ∃ mode' frames' s', Round size mode frames s mode' frames' s' ∧
      skipSteps size rounds mode' frames' s' = .ok rest := by
  obtain ⟨g, hg⟩ := exists_gap s
  cases mode with
  | value =>
    rw [skipSteps] at h
    split at h
    · next heq =>
      rw [hg, heq]
      exact .inr ⟨_, _, _, .list frames g _, h⟩
    · next heq =>
      rw [hg, heq]
      exact .inr ⟨_, _, _, .object frames g _, h⟩
    · split at h
      · next hplain =>
        obtain ⟨t, ht⟩ := exists_tree_of_skipPlain hplain
        rw [hg, ht]
        exact .inr ⟨_, _, _, .plain frames g t _, h⟩
      · cases h
  | entered =>
    cases frames with
    | nil => exact .inl (Except.ok.inj h)
    | cons frame frames =>
      rw [skipSteps] at h
      split at h
      · cases h
      · next c behind heq =>
        rw [hg, heq]
        split at h
        · next hc => exact .inr ⟨_, _, _, hc ▸ .bracket true frame frames g behind, h⟩
        · split at h
          · next hkey => exact .inr ⟨_, _, _, .step true frames g hkey, h⟩
          · cases h
  | between =>
    cases frames with
    | nil => exact .inl (Except.ok.inj h)
    | cons frame frames =>
      rw [skipSteps] at h
      split at h
      · cases h
      · next c behind heq =>
        rw [hg, heq]
        split at h
        · next hc =>
          split at h
          · next hkey => exact .inr ⟨_, _, _, hc ▸ .step false frames g hkey, h⟩
          · cases h
        · split at h
          · next hc => exact .inr ⟨_, _, _, hc ▸ .bracket false frame frames g behind, h⟩
          · cases h

/-- Each round of the skipping gets on with what is left of a value. -/
theorem left_of_skipSteps {size rounds : Nat} {mode : Skipping} {frames : List Frame}
    {s rest : List Char} (h : skipSteps size rounds mode frames s = .ok rest) :
    Left frames s rest mode := by
  induction rounds generalizing mode frames s with
  | zero => cases h
  | succ rounds ih =>
    rcases round_of_skipSteps h with hend | ⟨mode', frames', s', hround, hrest⟩
    · exact hend
    · exact hround.left (ih hrest)

/-- What is skipped is a value. -/
theorem startsValue_of_skipValue {size : Nat} {s rest : List Char}
    (h : skipValue size s = .ok rest) : StartsValue s rest := by
  obtain ⟨_, hs, rfl⟩ := left_of_skipSteps h
  exact hs

/-! ## Readers -/

/-- A reader that accepts nothing but values. -/
def ReadsValues (r : Reader α) : Prop :=
  ∀ size depth s a rest, r size depth s = .ok (a, rest) → StartsValue s rest

theorem StartsMember.of_colon {s s' rest : List Char} (hcolon : colon s = .ok s')
    (h : StartsValue s' rest) : StartsMember s rest := by
  obtain ⟨g, rfl⟩ := exists_gap_of_colon hcolon
  exact ⟨g, s', rfl, h⟩

/-- A text that is not what was expected is not accepted. -/
theorem unexpected_ne_ok {size : Nat} {expected : String} {s rest : List Char} {a : α} :
    (unexpected size expected s : Read α) ≠ .ok (a, rest) := by
  intro h
  unfold unexpected at h
  dsimp only at h
  split at h
  · cases h
  · cases h

theorem ReadsValues.map {β : Type} {r : Reader α} (h : ReadsValues r) (f : α → β) :
    ReadsValues (r.map f) := by
  intro size depth s b rest hr
  obtain ⟨⟨a, _⟩, ha, heq⟩ := map_eq_ok_iff.1 hr
  cases heq
  exact h size depth s a _ ha

/-- A word that is read is a value. -/
theorem StartsValue.of_word {t : Tree} {c : Char} {letters s s' rest : List Char} {v w : Json}
    (ht : t.chars = c :: letters) (hs : skipSpace s = c :: s')
    (h : (word letters s').map (fun behind => (v, behind)) = .ok (w, rest)) :
    StartsValue s rest := by
  obtain ⟨_, hword, hres⟩ := map_eq_ok_iff.1 h
  cases hres
  exact StartsValue.of_skipSpace (by rw [hs, ht, eq_append_of_word hword, List.cons_append])

/-- The reader of any value accepts only values. -/
theorem readsValues_any : ReadsValues Reader.any := by
  intro size depth
  -- strong induction: only some values have others inside, which are read at one level less
  induction depth using Nat.strongRecOn with
  | ind depth ih =>
    intro s v rest h
    unfold Reader.any at h ih
    rw [value] at h
    split at h
    · cases h
    · next heq => exact StartsValue.of_word (t := .null) rfl heq h
    · next heq => exact StartsValue.of_word (t := .bool true) rfl heq h
    · next heq => exact StartsValue.of_word (t := .bool false) rfl heq h
    · next heq =>
      obtain ⟨_, hstring, hres⟩ := map_eq_ok_iff.1 h
      cases hres
      obtain ⟨q, rfl⟩ := exists_quoted_of_string hstring
      exact StartsValue.of_skipSpace (t := .string q) (by rw [heq]; simp [Tree.chars, Quoted.chars])
    · next heq =>
      split at h
      · cases h
      · next depth =>
        obtain ⟨_, hitems, hres⟩ := map_eq_ok_iff.1 h
        cases hres
        obtain ⟨ts, last, rfl⟩ := exists_items (ih depth (Nat.lt_succ_self depth)) hitems
        exact StartsValue.of_skipSpace (t := .list ts last) heq
    · next heq =>
      split at h
      · cases h
      · next depth =>
        dsimp only at h
        obtain ⟨_, hmembers, hres⟩ := map_eq_ok_iff.1 h
        cases hres
        obtain ⟨ms, last, rfl⟩ := exists_members (fun _ _ _ _ _ hstep => by
          split at hstep
          · cases hstep
          · next hcolon =>
            obtain ⟨⟨w, _⟩, hw, hres⟩ := map_eq_ok_iff.1 hstep
            cases hres
            exact .of_colon hcolon (ih depth (Nat.lt_succ_self depth) _ _ _ hw)) hmembers
        exact StartsValue.of_skipSpace (t := .object ms last) heq
    · next heq =>
      split at h
      · obtain ⟨⟨n, _⟩, hn, hres⟩ := map_eq_ok_iff.1 h
        cases hres
        obtain ⟨n, hn⟩ := exists_numeral (skipNumber_of_number hn)
        exact StartsValue.of_skipSpace (t := .number n) (by rw [heq, hn]; rfl)
      · cases h

theorem ReadsValues.optional {r : Reader α} (h : ReadsValues r) : ReadsValues r.optional := by
  intro size depth s a rest hr
  unfold Reader.optional at hr
  split at hr
  · next heq =>
    obtain ⟨_, hword, hres⟩ := map_eq_ok_iff.1 hr
    cases hres
    exact StartsValue.of_skipSpace (t := .null) (by rw [heq, eq_append_of_word hword]; rfl)
  · obtain ⟨g, t, ht⟩ := h.map some _ _ _ _ _ hr
    obtain ⟨g', hg'⟩ := exists_gap s
    refine ⟨g'.append g, t, ?_⟩
    rw [hg', ht, Gap.append, List.append_assoc]

theorem readsValues_choice (type : String) (choose : Json → Option α) :
    ReadsValues (Reader.choice type choose) := by
  intro size depth s a rest hr
  unfold Reader.choice at hr
  split at hr
  · cases hr
  · next hv =>
    split at hr
    · cases hr
      exact readsValues_any _ _ _ _ _ hv
    · cases hr

theorem ReadsValues.list {r : Reader α} (h : ReadsValues r) : ReadsValues r.list := by
  intro size depth s as rest hr
  unfold Reader.list at hr
  split at hr
  · next heq =>
    split at hr
    · cases hr
    · obtain ⟨ts, last, rfl⟩ := exists_items (h size _) hr
      exact StartsValue.of_skipSpace (t := .list ts last) heq
  · exact absurd hr unexpected_ne_ok

theorem ReadsValues.table {r : Reader α} (h : ReadsValues r) : ReadsValues r.table := by
  intro size depth s t rest hr
  unfold Reader.table at hr
  split at hr
  · next heq =>
    split at hr
    · cases hr
    · dsimp only at hr
      obtain ⟨ms, last, rfl⟩ := exists_members (fun _ _ _ _ _ hstep => by
        split at hstep
        · cases hstep
        · next hcolon =>
          obtain ⟨⟨a, _⟩, ha, hres⟩ := map_eq_ok_iff.1 hstep
          cases hres
          exact .of_colon hcolon (h _ _ _ _ _ ha)) hr
      exact StartsValue.of_skipSpace (t := .object ms last) heq
  · exact absurd hr unexpected_ne_ok

/-- A member of a record is a member, whether its key is known or not. -/
theorem startsMember_of_fieldStep {size depth : Nat} {fields : List (Field Reader σ)}
    (h : ∀ f ∈ fields, ReadsValues f.read) {state state' : σ × List String} {key : String}
    {s rest : List Char} (hstep : fieldStep size depth fields state key s = .ok (state', rest)) :
    StartsMember s rest := by
  unfold fieldStep at hstep
  split at hstep
  · split at hstep
    · cases hstep
    · next hcolon =>
      obtain ⟨_, hskip, hres⟩ := map_eq_ok_iff.1 hstep
      cases hres
      exact .of_colon hcolon (startsValue_of_skipValue hskip)
  · next field hfield =>
    split at hstep
    · cases hstep
    · split at hstep
      · cases hstep
      · next hcolon =>
        obtain ⟨⟨set, _⟩, hset, hres⟩ := map_eq_ok_iff.1 hstep
        cases hres
        exact .of_colon hcolon (h field (List.mem_of_find?_eq_some hfield) _ _ _ _ _ hset)

theorem exists_gap_of_endOfItems {s rest : List Char} (h : endOfItems s = .ok rest) :
    ∃ g : Gap, s = g.chars ++ ']' :: rest := by
  obtain ⟨g, hg⟩ := exists_gap s
  unfold endOfItems at h
  split at h
  · cases h
  · next heq =>
    cases h
    exact ⟨g, by rw [hg, heq]⟩
  · split at h
    · cases h
    · cases h
  · cases h

/-- A record that is written as a list is a list. -/
theorem exists_items_of_fieldItems {size depth : Nat} {fields : List (Field Reader σ)}
    (h : ∀ f ∈ fields, ReadsValues f.read) {first : Bool} {state state' : σ} {s rest : List Char}
    (hitems : fieldItems size depth fields first state s = .ok (state', rest)) :
    ∃ ts last, s = Tree.itemChars first ts last ++ rest := by
  induction fields generalizing first state s with
  | nil =>
    rw [fieldItems] at hitems
    obtain ⟨_, hend, hres⟩ := map_eq_ok_iff.1 hitems
    cases hres
    obtain ⟨g, rfl⟩ := exists_gap_of_endOfItems hend
    exact ⟨[], g, (Tree.itemChars_nil ..).symm⟩
  | cons field fields ih =>
    rw [fieldItems] at hitems
    split at hitems
    · cases hitems
    · next hnext =>
      cases hitems
      obtain ⟨g, rfl⟩ := exists_gap_of_nextItem hnext
      exact ⟨[], g, (Tree.itemChars_nil ..).symm⟩
    · next hnext =>
      obtain ⟨p, rfl⟩ := exists_place_of_nextItem hnext
      split at hitems
      · cases hitems
      · next hitem =>
        obtain ⟨g, t, rfl⟩ := h field List.mem_cons_self _ _ _ _ _ hitem
        obtain ⟨ts, last, rfl⟩ := ih (fun f hf => h f (List.mem_cons_of_mem _ hf)) hitems
        refine ⟨(⟨p.before, p.behind.append g⟩, t) :: ts, last, ?_⟩
        rw [lead_append, Tree.itemChars_cons]

theorem readsValues_record {type : String} {fields : List (Field Reader σ)} {blank : σ}
    (h : ∀ f ∈ fields, ReadsValues f.read) : ReadsValues (Reader.record type fields blank) := by
  intro size depth s a rest hr
  unfold Reader.record at hr
  split at hr
  · next heq =>
    split at hr
    · cases hr
    · obtain ⟨_, hmembers, hres⟩ := map_eq_ok_iff.1 hr
      cases hres
      obtain ⟨ms, last, rfl⟩ :=
        exists_members (fun _ _ _ _ _ hstep => startsMember_of_fieldStep h hstep) hmembers
      exact StartsValue.of_skipSpace (t := .object ms last) heq
  · next heq =>
    split at hr
    · cases hr
    · obtain ⟨ts, last, rfl⟩ := exists_items_of_fieldItems h hr
      exact StartsValue.of_skipSpace (t := .list ts last) heq
  · exact absurd hr unexpected_ne_ok

/-- A text that is accepted is a value with white space around it. -/
theorem ReadsValues.exists_tree {r : Reader α} (h : ReadsValues r) {text : String} {a : α}
    (hrun : r.run text = .ok a) :
    ∃ (g : Gap) (t : Tree) (g' : Gap), text.toList = g.chars ++ (t.chars ++ g'.chars) := by
  unfold Reader.run at hrun
  dsimp only at hrun
  split at hrun
  · cases hrun
  · next rest hr =>
    split at hrun
    · next hend =>
      obtain ⟨g, t, ht⟩ := h _ _ _ _ _ hr
      obtain ⟨g', hg'⟩ := exists_gap rest
      rw [hend, List.append_nil] at hg'
      exact ⟨g, t, g', by rw [ht, hg']⟩
    · cases hrun

end Json
end GlyphLine
