import GlyphLine.Proofs.Json.Numeral
import GlyphLine.Proofs.Json.Quoted
import GlyphLine.Proofs.Json.Spacing

/-!
# Every value can be skipped

Skipping takes a written value to its end, however deep it is nested, however large its numbers
are, and whether its strings mean a text or not.  It goes in rounds, with the lists and objects
that it is in on a stack; the stack below a value is of no account for the value, so that the
rounds that a value takes are counted value by value.  Each character begins at most two of
them.  One more is needed where an item or a member is the first, since there is no comma in
front of it, and that one is saved at the bracket in front.

## Main statements

* `Skips.of_tree`: the rounds that a value takes.
* `skipValue_chars`: **every written value is skipped to its end**.
-/

namespace GlyphLine
namespace Json

open Lexeme

/-! ## How a value begins -/

/-- The first character of a value tells lists, objects and null from each other and from the
rest, and it is none that may stand between values. -/
structure Tree.Opening (t : Tree) (c : Char) : Prop where
  space : isSpace c = false
  comma : c ≠ ','
  bracket : ∀ frame : Frame, c ≠ frame.bracket
  null : c = 'n' → t = .null
  list : c = '[' → ∃ ts last, t = .list ts last
  object : c = '{' → ∃ ms last, t = .object ms last

theorem Tree.exists_opening (t : Tree) : ∃ c cs, t.chars = c :: cs ∧ t.Opening c := by
  have plain {c : Char} (cs : List Char) (hchars : t.chars = c :: cs) (hspace : isSpace c = false)
      (hcomma : c ≠ ',') (hlist : c ≠ ']') (hobject : c ≠ '}') (hnull : c ≠ 'n')
      (hbracket : c ≠ '[') (hbrace : c ≠ '{') : ∃ c cs, t.chars = c :: cs ∧ t.Opening c := by
    refine ⟨c, cs, hchars, hspace, hcomma, fun frame => ?_, fun h => absurd h hnull,
      fun h => absurd h hbracket, fun h => absurd h hbrace⟩
    cases frame with
    | list => exact hlist
    | object => exact hobject
  have brackets {c : Char} (h : c = 'n' ∨ c = '[' ∨ c = '{') (frame : Frame) :
      c ≠ frame.bracket := by
    cases frame with
    | list => rcases h with rfl | rfl | rfl <;> decide
    | object => rcases h with rfl | rfl | rfl <;> decide
  cases t with
  | null =>
    exact ⟨'n', _, rfl, by decide, by decide, brackets (.inl rfl), fun _ => rfl,
      fun h => absurd h (by decide), fun h => absurd h (by decide)⟩
  | bool b =>
    cases b with
    | true =>
      exact plain _ rfl (by decide) (by decide) (by decide) (by decide) (by decide) (by decide)
        (by decide)
    | false =>
      exact plain _ rfl (by decide) (by decide) (by decide) (by decide) (by decide) (by decide)
        (by decide)
  | number n =>
    obtain ⟨c, cs, hcs, hc⟩ := numeral_eq_cons n
    have hne {d : Char} (hminus : d ≠ '-') (hdigit : d.isDigit = false) : c ≠ d :=
      ne_of_beginsNumber hc hminus hdigit
    exact plain cs (by rw [Tree.chars, hcs]) (isSpace_of_beginsNumber hc)
      (hne (by decide) (by decide)) (hne (by decide) (by decide)) (hne (by decide) (by decide))
      (hne (by decide) (by decide)) (hne (by decide) (by decide)) (hne (by decide) (by decide))
  | string q =>
    exact plain _ rfl (by decide) (by decide) (by decide) (by decide) (by decide) (by decide)
      (by decide)
  | list ts last =>
    exact ⟨'[', _, rfl, by decide, by decide, brackets (.inr (.inl rfl)),
      fun h => absurd h (by decide), fun _ => ⟨ts, last, rfl⟩, fun h => absurd h (by decide)⟩
  | object ms last =>
    exact ⟨'{', _, rfl, by decide, by decide, brackets (.inr (.inr rfl)),
      fun h => absurd h (by decide), fun h => absurd h (by decide), fun _ => ⟨ms, last, rfl⟩⟩

/-! ## How an item or a member ends -/

theorem endsNumber_lead (p : Place) (s : List Char) : EndsNumber (Tree.lead false p ++ s) := by
  rw [Tree.lead, List.append_assoc, List.append_assoc]
  exact endsNumber_gap p.before (endsNumber_cons (.inl rfl) _)

theorem endsNumber_itemChars_tree (ts : List (Place × Tree)) (last : Gap) (s : List Char) :
    EndsNumber (Tree.itemChars false ts last ++ s) := by
  cases ts with
  | nil =>
    rw [Tree.itemChars_nil]
    exact endsNumber_gap last (endsNumber_cons (.inr (.inl rfl)) s)
  | cons i ts =>
    rw [Tree.itemChars_cons]
    exact endsNumber_lead i.1 _

theorem endsNumber_memberChars_tree (ms : List (Label × Tree)) (last : Gap) (s : List Char) :
    EndsNumber (Tree.memberChars false ms last ++ s) := by
  cases ms with
  | nil =>
    rw [Tree.memberChars_nil]
    exact endsNumber_gap last (endsNumber_cons (.inr (.inr rfl)) s)
  | cons m ms =>
    rw [Tree.memberChars_cons]
    exact endsNumber_lead m.1.toPlace _

/-! ## Rounds -/

/-- Where the skipping stands in front of an item or a member. -/
def Skipping.inside (first : Bool) : Skipping := if first then .entered else .between

/-- The white space that the skipping leaves in front of an item or a member. -/
def Place.left (first : Bool) (p : Place) : Gap := if first then .none else p.behind

/-- The round in front of an item or a member takes what leads to it. -/
theorem skipSteps_lead {size : Nat} {frame : Frame} {first : Bool} {p : Place} {c : Char}
    {s behind : List Char} (hspace : isSpace c = false) (hbracket : c ≠ frame.bracket)
    (hkey : skipKey size frame ((p.left first).chars ++ c :: s) = .ok behind) (rounds : Nat)
    (frames : List Frame) :
    skipSteps size (rounds + 1) (.inside first) (frame :: frames)
        (Tree.lead first p ++ c :: s) =
      skipSteps size rounds .value (frame :: frames) behind := by
  cases first with
  | true =>
    have hskip : skipSpace (Tree.lead true p ++ c :: s) = c :: s := by
      rw [Tree.lead, List.append_assoc, List.append_assoc, skipSpace_gap]
      show skipSpace (p.behind.chars ++ c :: s) = _
      rw [skipSpace_gap, skipSpace_cons hspace]
    have hkey' : skipKey size frame (c :: s) = .ok behind := hkey
    show skipSteps size (rounds + 1) .entered _ _ = _
    rw [skipSteps, hskip]
    dsimp only
    rw [if_neg hbracket, hkey']
  | false =>
    have hskip : skipSpace (Tree.lead false p ++ c :: s) = ',' :: (p.behind.chars ++ c :: s) := by
      rw [Tree.lead, List.append_assoc, List.append_assoc, skipSpace_gap]
      exact skipSpace_cons (by decide) _
    have hkey' : skipKey size frame (p.behind.chars ++ c :: s) = .ok behind := hkey
    show skipSteps size (rounds + 1) .between _ _ = _
    rw [skipSteps, hskip]
    dsimp only
    rw [if_pos rfl, hkey']

/-- The round that ends a list or an object. -/
theorem skipSteps_bracket (size rounds : Nat) (first : Bool) (frame : Frame)
    (frames : List Frame) (last : Gap) (s : List Char) :
    skipSteps size (rounds + 1) (.inside first) (frame :: frames)
        (last.chars ++ frame.bracket :: s) =
      skipSteps size rounds .between frames s := by
  have hspace : isSpace frame.bracket = false := by cases frame <;> rfl
  have hcomma : frame.bracket ≠ ',' := by cases frame <;> decide
  cases first with
  | true =>
    show skipSteps size (rounds + 1) .entered _ _ = _
    rw [skipSteps, skipSpace_gap, skipSpace_cons hspace]
    dsimp only
    rw [if_pos rfl]
  | false =>
    show skipSteps size (rounds + 1) .between _ _ = _
    rw [skipSteps, skipSpace_gap, skipSpace_cons hspace]
    dsimp only
    rw [if_neg hcomma, if_pos rfl]

/-- What a list or an object has inside, with the bracket behind it, is skipped in `k` rounds. -/
def SkipsInside (size k : Nat) (first : Bool) (frame : Frame) (cs : List Char) : Prop :=
  ∀ rounds frames rest,
    skipSteps size (rounds + k) (.inside first) (frame :: frames) (cs ++ rest) =
      skipSteps size rounds .between frames rest

/-- A value is skipped in at most two rounds a character. -/
def Skips (size : Nat) (t : Tree) : Prop :=
  ∃ k ≤ 2 * t.chars.length, ∀ rounds frames (g : Gap) rest, EndsNumber rest →
    skipSteps size (rounds + k) .value frames (g.chars ++ (t.chars ++ rest)) =
      skipSteps size rounds .between frames rest

/-- The items of a list are skipped one after the other. -/
theorem exists_skipsInside_items {size : Nat} {ts : List (Place × Tree)}
    (h : ∀ i ∈ ts, Skips size i.2) (first : Bool) (last : Gap) :
    ∃ k ≤ 2 * (Tree.itemChars first ts last).length + first.toNat,
      SkipsInside size k first .list (Tree.itemChars first ts last) := by
  induction ts generalizing first with
  | nil =>
    refine ⟨1, ?_, fun rounds frames rest => ?_⟩
    · rw [Tree.itemChars, List.length_append, List.length_singleton]
      omega
    · rw [Tree.itemChars_nil]
      exact skipSteps_bracket size rounds first .list frames last rest
  | cons i ts ih =>
    obtain ⟨p, t⟩ := i
    obtain ⟨k, hk, hrest⟩ := ih (fun i hi => h i (List.mem_cons_of_mem _ hi)) false
    obtain ⟨m, hm, hitem⟩ := h _ List.mem_cons_self
    refine ⟨k + m + 1, ?_, fun rounds frames rest => ?_⟩
    · have hcomma : 1 ≤ (Tree.lead first p).length + first.toNat := by
        cases first with
        | true => exact Nat.le_add_left ..
        | false =>
          rw [Tree.lead, List.length_append, List.length_append]
          show 1 ≤ _ + (1 + _) + 0
          omega
      rw [Tree.itemChars, List.length_append, List.length_append]
      dsimp only [Bool.toNat_false] at hk hm
      omega
    · obtain ⟨c, cs, hc, hopen⟩ := t.exists_opening
      have hkey : skipKey size .list ((p.left first).chars ++ (t.chars ++
          (Tree.itemChars false ts last ++ rest))) = .ok _ := rfl
      have hvalue := hitem (rounds + k) (.list :: frames) (p.left first) _
        (endsNumber_itemChars_tree ts last rest)
      rw [Nat.add_assoc] at hvalue
      rw [Tree.itemChars_cons]
      refine Eq.trans ?_ (hvalue.trans (hrest rounds frames rest))
      dsimp only
      rw [hc, List.cons_append] at hkey ⊢
      exact skipSteps_lead hopen.space (hopen.bracket .list) hkey (rounds + (k + m)) frames

/-- The key of a member is skipped up to behind its colon. -/
theorem skipKey_quoted {size : Nat} {q : Quoted} (h : q.inner.length < size) (g g' : Gap)
    (s : List Char) :
    skipKey size .object (g.chars ++ '\"' :: (q.inner ++ '\"' :: (g'.chars ++ ':' :: s))) =
      .ok s := by
  rw [skipKey, skipSpace_gap, skipSpace_cons (by decide)]
  split
  · next heq => exact absurd heq (List.cons_ne_nil _ _)
  · next heq =>
    obtain ⟨-, rfl⟩ := List.cons.inj heq
    rw [skipString_quoted h]
    exact colon_gap g' s
  · next hquote => exact absurd rfl (hquote _)

/-- The members of an object are skipped one after the other. -/
theorem exists_skipsInside_members {size : Nat} {ms : List (Label × Tree)}
    (hkeys : ∀ m ∈ ms, m.1.key.inner.length < size) (h : ∀ m ∈ ms, Skips size m.2) (first : Bool)
    (last : Gap) :
    ∃ k ≤ 2 * (Tree.memberChars first ms last).length + first.toNat,
      SkipsInside size k first .object (Tree.memberChars first ms last) := by
  induction ms generalizing first with
  | nil =>
    refine ⟨1, ?_, fun rounds frames rest => ?_⟩
    · rw [Tree.memberChars, List.length_append, List.length_singleton]
      omega
    · rw [Tree.memberChars_nil]
      exact skipSteps_bracket size rounds first .object frames last rest
  | cons m ms ih =>
    obtain ⟨l, t⟩ := m
    obtain ⟨k, hk, hrest⟩ := ih (fun m hm => hkeys m (List.mem_cons_of_mem _ hm))
      (fun m hm => h m (List.mem_cons_of_mem _ hm)) false
    obtain ⟨m, hm, hvalue⟩ := h _ List.mem_cons_self
    refine ⟨k + m + 1, ?_, fun rounds frames rest => ?_⟩
    · have hlength := congrArg List.length (Tree.memberChars_cons first l t ms last [])
      simp only [List.length_append, List.length_cons, List.length_nil] at hlength
      dsimp only [Bool.toNat_false] at hk hm
      omega
    · have hvalue := hvalue (rounds + k) (.object :: frames) l.behindColon _
        (endsNumber_memberChars_tree ms last rest)
      rw [Nat.add_assoc] at hvalue
      rw [Tree.memberChars_cons]
      refine Eq.trans ?_ (hvalue.trans (hrest rounds frames rest))
      exact skipSteps_lead (by decide) (by decide)
        (skipKey_quoted (hkeys _ List.mem_cons_self) (l.left first) l.beforeColon _)
        (rounds + (k + m)) frames

/-! ## Values -/

/-- A value without parts is skipped in one round. -/
theorem Skips.of_plain {size : Nat} {t : Tree}
    (h : ∀ rest, EndsNumber rest → skipPlain size (t.chars ++ rest) = .ok rest)
    (hlist : ∀ ts last, t ≠ .list ts last) (hobject : ∀ ms last, t ≠ .object ms last) :
    Skips size t := by
  obtain ⟨c, cs, hc, hopen⟩ := t.exists_opening
  have hlength : t.chars.length = cs.length + 1 := by rw [hc, List.length_cons]
  refine ⟨1, by omega, fun rounds frames g rest hrest => ?_⟩
  have hplain := h rest hrest
  rw [hc, List.cons_append] at hplain ⊢
  rw [skipSteps, skipSpace_gap, skipSpace_cons hopen.space]
  split
  · next heq =>
    obtain ⟨ts, last, ht⟩ := hopen.list (List.cons.inj heq).1
    exact absurd ht (hlist ts last)
  · next heq =>
    obtain ⟨ms, last, ht⟩ := hopen.object (List.cons.inj heq).1
    exact absurd ht (hobject ms last)
  · rw [hplain]

theorem skipPlain_number {c : Char} (h : c = '-' ∨ c.isDigit = true) (size : Nat)
    (s : List Char) : skipPlain size (c :: s) = skipNumber (c :: s) := by
  have hne {d : Char} (hminus : d ≠ '-') (hdigit : d.isDigit = false) : c ≠ d :=
    ne_of_beginsNumber h hminus hdigit
  unfold skipPlain
  split
  · next heq => exact absurd heq (List.cons_ne_nil _ _)
  · next heq => exact absurd (List.cons.inj heq).1 (hne (by decide) (by decide))
  · next heq => exact absurd (List.cons.inj heq).1 (hne (by decide) (by decide))
  · next heq => exact absurd (List.cons.inj heq).1 (hne (by decide) (by decide))
  · next heq => exact absurd (List.cons.inj heq).1 (hne (by decide) (by decide))
  · next heq =>
    obtain ⟨rfl, rfl⟩ := List.cons.inj heq
    exact if_pos (by simpa using h)

/-- A list or an object is skipped if what it has inside is. -/
theorem Skips.of_inside {size : Nat} {t : Tree} {f : Frame} {cs : List Char}
    (hchars : t.chars = (match f with | .list => '[' | .object => '{') :: cs)
    (h : ∃ k ≤ 2 * cs.length + 1, SkipsInside size k true f cs) : Skips size t := by
  obtain ⟨k, hk, hinside⟩ := h
  refine ⟨k + 1, ?_, fun rounds frames g rest _ => ?_⟩
  · rw [hchars, List.length_cons]
    omega
  · rw [hchars, List.cons_append, ← hinside rounds frames rest]
    show skipSteps size (rounds + k + 1) .value frames _ = _
    cases f with
    | list =>
      rw [skipSteps, skipSpace_gap, skipSpace_cons (by decide)]
      rfl
    | object =>
      rw [skipSteps, skipSpace_gap, skipSpace_cons (by decide)]
      rfl

/-- What stands in a list or an object is shorter than it. -/
theorem Tree.length_item_le {ts : List (Place × Tree)} {i : Place × Tree} (h : i ∈ ts)
    (first : Bool) (last : Gap) :
    i.2.chars.length ≤ (Tree.itemChars first ts last).length := by
  induction ts generalizing first with
  | nil => exact absurd h List.not_mem_nil
  | cons j ts ih =>
    rw [Tree.itemChars, List.length_append, List.length_append]
    rcases List.mem_cons.1 h with rfl | h
    · omega
    · have := ih h false
      omega

theorem Tree.length_member_le {ms : List (Label × Tree)} {m : Label × Tree} (h : m ∈ ms)
    (first : Bool) (last : Gap) :
    m.1.key.inner.length + m.2.chars.length + 3 ≤ (Tree.memberChars first ms last).length := by
  induction ms generalizing first with
  | nil => exact absurd h List.not_mem_nil
  | cons n ms ih =>
    obtain ⟨l, t⟩ := n
    have hlength := congrArg List.length (Tree.memberChars_cons first l t ms last [])
    simp only [List.length_append, List.length_cons, List.length_nil] at hlength
    rcases List.mem_cons.1 h with rfl | h
    · dsimp only
      omega
    · have := ih h false
      omega

/-- Every value is skipped in at most two rounds a character. -/
theorem Skips.of_tree {size : Nat} {t : Tree} (h : t.chars.length < size) : Skips size t := by
  induction t with
  | null => exact .of_plain (fun _ _ => rfl) (fun _ _ h => by cases h) fun _ _ h => by cases h
  | bool b =>
    cases b with
    | true => exact .of_plain (fun _ _ => rfl) (fun _ _ h => by cases h) fun _ _ h => by cases h
    | false => exact .of_plain (fun _ _ => rfl) (fun _ _ h => by cases h) fun _ _ h => by cases h
  | number n =>
    obtain ⟨c, cs, hcs, hc⟩ := numeral_eq_cons n
    have hchars : (Tree.number n).chars = c :: cs := hcs
    refine .of_plain (fun rest hrest => ?_) (fun _ _ h => by cases h) fun _ _ h => by cases h
    rw [hchars, List.cons_append, skipPlain_number hc, ← List.cons_append, ← hcs,
      skipNumber_chars n hrest]
  | string q =>
    have hchars : (Tree.string q).chars = '\"' :: (q.inner ++ ['\"']) := rfl
    rw [hchars, List.length_cons, List.length_append] at h
    refine .of_plain (fun rest _ => ?_) (fun _ _ h => by cases h) fun _ _ h => by cases h
    rw [hchars, List.cons_append, List.append_assoc, List.singleton_append]
    exact skipString_quoted (by omega) rest
  | list ts last ih =>
    have hlength : (Tree.list ts last).chars.length = (Tree.itemChars true ts last).length + 1 :=
      rfl
    refine .of_inside (f := .list) rfl (exists_skipsInside_items (fun i hi => ?_) true last)
    have := Tree.length_item_le hi true last
    exact ih i hi (by omega)
  | object ms last ih =>
    have hlength : (Tree.object ms last).chars.length =
        (Tree.memberChars true ms last).length + 1 := rfl
    refine .of_inside (f := .object) rfl
      (exists_skipsInside_members (fun m hm => ?_) (fun m hm => ?_) true last)
    · have := Tree.length_member_le hm true last
      omega
    · have := Tree.length_member_le hm true last
      exact ih m hm (by omega)

/-- A value is skipped to its end. -/
theorem skipValue_chars {size : Nat} {t : Tree} (h : t.chars.length < size) (g : Gap)
    {rest : List Char} (hrest : EndsNumber rest) :
    skipValue size (g.chars ++ (t.chars ++ rest)) = .ok rest := by
  obtain ⟨k, hk, hskip⟩ := Skips.of_tree h
  obtain ⟨rounds, hrounds⟩ : ∃ rounds, 2 * size + 2 = rounds + 1 + k :=
    ⟨2 * size + 1 - k, by omega⟩
  rw [skipValue, hrounds, hskip (rounds + 1) [] g rest hrest, skipSteps]

end Json
end GlyphLine
