import GlyphLine.Proofs.Json.Skipping
import GlyphLine.Proofs.Compact.Json

/-!
# What a value is read as depends on the value only

A reader is given a text that goes on behind the value, and the number of characters of the
whole text.  Neither matters, nor does the white space in front of the value: what a reader
makes of a written value, be it a result or a fault, is the same wherever the value stands.  The
readers for lists, tables and records have this from the readers for what stands inside.

So one can speak of what a reader makes of a value.  For a table or a record that is written as
an object, it is found by going through the keys and values in their order, and the white space
between them is left out of account.

## Main definitions

* `Reader.on`: what a reader makes of a value.
* `Settled`: that a reader makes the same of a value wherever it stands.

## Main statements

* `settled_any`, `Settled.optional`, `settled_choice`, `Settled.list`, `Settled.table`,
  `settled_record`: the readers of every shape are settled.
* `Settled.on_table`, `on_record`: objects are read **member by member**.
* `Settled.on_list`, `on_record_list`: lists are read item by item.
-/

namespace GlyphLine
namespace Json

open Lexeme

variable {α β σ : Type}

/-- What a reader makes of a value, where nothing else stands in the text. -/
def Reader.on (r : Reader α) (depth : Nat) (t : Tree) : Except Fault α :=
  (r (t.chars.length + 1) depth t.chars).map Prod.fst

/-- A reader has the result `res` for a value, wherever the value stands. -/
def Finds (r : Reader α) (depth : Nat) (t : Tree) (res : Except Fault α) : Prop :=
  ∀ size (g : Gap) rest, t.chars.length < size → EndsNumber rest →
    r size depth (g.chars ++ (t.chars ++ rest)) = res.map fun a => (a, rest)

/-- A reader makes the same of a value wherever it stands. -/
def Settled (r : Reader α) : Prop := ∀ depth t, Finds r depth t (r.on depth t)

theorem map_fst_map (res : Except Fault α) (rest : List Char) :
    (res.map fun a => (a, rest)).map Prod.fst = res := by
  cases res with
  | error f => rfl
  | ok a => rfl

/-- The result is what the reader makes of the value alone. -/
theorem Finds.on_eq {r : Reader α} {depth : Nat} {t : Tree} {res : Except Fault α}
    (h : Finds r depth t res) : r.on depth t = res := by
  have halone := h (t.chars.length + 1) .none [] (Nat.lt_add_one _)
    fun c hc => absurd hc (Option.not_mem_none c)
  rw [List.append_nil] at halone
  rw [Reader.on]
  show Except.map Prod.fst (r (t.chars.length + 1) depth (Gap.none.chars ++ t.chars)) = res
  rw [halone, map_fst_map]

theorem Finds.on {r : Reader α} {depth : Nat} {t : Tree} {e : Except Fault α}
    (h : Finds r depth t e) : Finds r depth t (r.on depth t) := by
  rw [h.on_eq]
  exact h

/-! ## Loops -/

/-- In front of an item stands nothing but what leads to it. -/
theorem nextItem_tree (first : Bool) (p : Place) (t : Tree) (s : List Char) :
    nextItem first (Tree.lead first p ++ (t.chars ++ s)) = .ok (true, t.chars ++ s) := by
  obtain ⟨c, cs, hc, hopen⟩ := t.exists_opening
  rw [hc, List.cons_append]
  exact nextItem_lead hopen.space (hopen.bracket .list) first p (cs ++ s)

theorem Tree.length_items_lt (first : Bool) (ts : List (Place × Tree)) (last : Gap) :
    ts.length < (Tree.itemChars first ts last).length := by
  induction ts generalizing first with
  | nil =>
    rw [Tree.itemChars, List.length_append, List.length_singleton]
    exact Nat.lt_add_left _ Nat.zero_lt_one
  | cons i ts ih =>
    obtain ⟨c, cs, hc, -⟩ := i.2.exists_opening
    have := ih false
    rw [Tree.itemChars, List.length_append, List.length_append, hc, List.length_cons,
      List.length_cons]
    omega

theorem Tree.length_members_lt (first : Bool) (ms : List (Label × Tree)) (last : Gap) :
    ms.length < (Tree.memberChars first ms last).length := by
  induction ms generalizing first with
  | nil =>
    rw [Tree.memberChars, List.length_append, List.length_singleton]
    exact Nat.lt_add_left _ Nat.zero_lt_one
  | cons m ms ih =>
    obtain ⟨l, t⟩ := m
    have := ih false
    have hlength := congrArg List.length (Tree.memberChars_cons first l t ms last [])
    simp only [List.length_append, List.length_cons, List.length_nil] at hlength ⊢
    omega

/-- A list is read as what its items are read as. -/
theorem items_tree {read : List Char → Read α} {f : Tree → Except Fault α}
    {ts : List (Place × Tree)}
    (hread : ∀ i ∈ ts, ∀ rest, EndsNumber rest →
      read (i.2.chars ++ rest) = (f i.2).map fun a => (a, rest))
    {rounds : Nat} (hrounds : ts.length < rounds) (first : Bool) (done : List α) (last : Gap)
    (rest : List Char) :
    items read rounds first done (Tree.itemChars first ts last ++ rest) =
      (ts.mapM fun i => f i.2).map fun as => (done.reverse ++ as, rest) := by
  induction ts generalizing rounds first done with
  | nil =>
    obtain ⟨rounds, rfl⟩ := Nat.exists_eq_add_of_le' (Nat.zero_lt_of_lt hrounds)
    rw [Tree.itemChars_nil, items, nextItem_gap, List.mapM_nil]
    show Except.ok (done.reverse, rest) = Except.ok (done.reverse ++ [], rest)
    rw [List.append_nil]
  | cons i ts ih =>
    obtain ⟨p, t⟩ := i
    obtain ⟨rounds, rfl⟩ := Nat.exists_eq_add_of_le' (Nat.zero_lt_of_lt hrounds)
    have hitem := hread _ List.mem_cons_self _ (endsNumber_itemChars_tree ts last rest)
    rw [Tree.itemChars_cons, items, nextItem_tree, List.mapM_cons]
    dsimp only at hitem ⊢
    rw [hitem]
    cases f t with
    | error e => rfl
    | ok a =>
      have hrest := ih (fun i hi => hread i (List.mem_cons_of_mem _ hi))
        (Nat.lt_of_succ_lt_succ hrounds) false (a :: done)
      show items read rounds false (a :: done) _ = _
      rw [hrest]
      cases ts.mapM fun i => f i.2 with
      | error e => rfl
      | ok as =>
        show Except.ok ((a :: done).reverse ++ as, rest) = .ok (done.reverse ++ a :: as, rest)
        rw [List.reverse_cons, List.append_assoc, List.singleton_append]

/-- How a member changes a state, given how the text of its key and its value do. -/
def onMember (next : σ → String → Tree → Except Fault σ) (state : σ) (m : Quoted × Tree) :
    Except Fault σ :=
  match m.1.text with
  | .error f => .error f
  | .ok key => next state key m.2

/-- An object is gone through member by member. -/
theorem members_tree {size : Nat} {step : σ → String → List Char → Read σ}
    {next : σ → String → Tree → Except Fault σ} {ms : List (Label × Tree)}
    (hkeys : ∀ m ∈ ms, m.1.key.inner.length < size)
    (hstep : ∀ m ∈ ms, ∀ state key rest, EndsNumber rest →
      step state key (m.1.beforeColon.chars ++ ':' :: (m.1.behindColon.chars ++
        (m.2.chars ++ rest))) = (next state key m.2).map fun state => (state, rest))
    {rounds : Nat} (hrounds : ms.length < rounds) (first : Bool) (state : σ) (last : Gap)
    (rest : List Char) :
    members size step rounds first state (Tree.memberChars first ms last ++ rest) =
      ((Tree.cores ms).foldlM (onMember next) state).map fun state => (state, rest) := by
  induction ms generalizing rounds first state with
  | nil =>
    obtain ⟨rounds, rfl⟩ := Nat.exists_eq_add_of_le' (Nat.zero_lt_of_lt hrounds)
    rw [Tree.memberChars_nil, members, nextKey_gap]
    rfl
  | cons m ms ih =>
    obtain ⟨l, t⟩ := m
    obtain ⟨rounds, rfl⟩ := Nat.exists_eq_add_of_le' (Nat.zero_lt_of_lt hrounds)
    have hkey := string_quoted (hkeys _ List.mem_cons_self) (l.beforeColon.chars ++
      ':' :: (l.behindColon.chars ++ (t.chars ++ (Tree.memberChars false ms last ++ rest))))
    have hcores : Tree.cores ((l, t) :: ms) = (l.key, t) :: Tree.cores ms := rfl
    rw [Tree.memberChars_cons, members, nextKey_lead, hcores, List.foldlM_cons, onMember]
    dsimp only at hkey ⊢
    rw [hkey]
    cases l.key.text with
    | error f => rfl
    | ok key =>
      have hmember := hstep _ List.mem_cons_self state key _
        (endsNumber_memberChars_tree ms last rest)
      dsimp only [Except.map] at hmember ⊢
      rw [hmember]
      cases next state key t with
      | error f => rfl
      | ok state =>
        exact ih (fun m hm => hkeys m (List.mem_cons_of_mem _ hm))
          (fun m hm => hstep m (List.mem_cons_of_mem _ hm)) (Nat.lt_of_succ_lt_succ hrounds)
          false state

/-! ## Readers -/

/-- A result that has been passed through `f`, in front of what follows. -/
theorem map_map_rest (res : Except Fault α) (f : α → β) (rest : List Char) :
    ((res.map fun a => (a, rest)).map fun p => (f p.1, p.2)) =
      (res.map f).map fun b => (b, rest) := by
  cases res with
  | error f => rfl
  | ok a => rfl

theorem Finds.map {r : Reader α} {depth : Nat} {t : Tree} {res : Except Fault α}
    (h : Finds r depth t res) (f : α → β) : Finds (r.map f) depth t (res.map f) := by
  intro size g rest hsize hrest
  rw [Reader.map, h size g rest hsize hrest]
  exact map_map_rest res f rest

theorem Settled.map {r : Reader α} (h : Settled r) (f : α → β) : Settled (r.map f) :=
  fun depth t => ((h depth t).map f).on

theorem Settled.on_map {r : Reader α} (h : Settled r) (f : α → β) (depth : Nat) (t : Tree) :
    (r.map f).on depth t = (r.on depth t).map f :=
  ((h depth t).map f).on_eq

/-- White space in front of a value is passed over. -/
theorem value_gap (size depth : Nat) (g : Gap) (s : List Char) :
    value size depth (g.chars ++ s) = value size depth s :=
  value_congr (skipSpace_gap g s)

theorem value_tooDeep {c : Char} (h : c = '[' ∨ c = '{') (size : Nat) (s : List Char) :
    value size 0 (c :: s) = .error .tooDeep := by
  rcases h with rfl | rfl
  · rfl
  · rfl

theorem Finds.any_list {depth : Nat} {ts : List (Place × Tree)}
    (h : ∀ i ∈ ts, Finds Reader.any depth i.2 (Reader.any.on depth i.2)) (last : Gap) :
    Finds Reader.any (depth + 1) (.list ts last)
      ((ts.mapM fun i => Reader.any.on depth i.2).map .array) := by
  intro size g rest hsize _
  have hlength : (Tree.list ts last).chars.length = (Tree.itemChars true ts last).length + 1 := rfl
  have hread : ∀ i ∈ ts, ∀ rest, EndsNumber rest →
      value size depth (i.2.chars ++ rest) = (Reader.any.on depth i.2).map fun v => (v, rest) := by
    intro i hi rest hrest
    have := Tree.length_item_le hi true last
    exact h i hi size .none rest (by omega) hrest
  have hcount := Tree.length_items_lt true ts last
  show value size (depth + 1) (g.chars ++ '[' :: (Tree.itemChars true ts last ++ rest)) = _
  rw [value_gap, value_bracket, items_tree hread (by omega)]
  exact map_map_rest _ Json.array rest

/-- How the reader of any value goes on from a key. -/
def valueNext (depth : Nat) (ms : List (String × Json)) (key : String) (t : Tree) :
    Except Fault (List (String × Json)) :=
  (Reader.any.on depth t).map fun v => putEntry key v ms

theorem Finds.any_object {depth : Nat} {ms : List (Label × Tree)}
    (h : ∀ m ∈ ms, Finds Reader.any depth m.2 (Reader.any.on depth m.2)) (last : Gap) :
    Finds Reader.any (depth + 1) (.object ms last)
      (((Tree.cores ms).foldlM (onMember (valueNext depth)) []).map .object) := by
  intro size g rest hsize _
  have hlength : (Tree.object ms last).chars.length = (Tree.memberChars true ms last).length + 1 :=
    rfl
  have hstep : ∀ m ∈ ms, ∀ done key rest, EndsNumber rest →
      valueStep size depth done key (m.1.beforeColon.chars ++ ':' :: (m.1.behindColon.chars ++
        (m.2.chars ++ rest))) = (valueNext depth done key m.2).map fun ms => (ms, rest) := by
    intro m hm done key rest hrest
    have := Tree.length_member_le hm true last
    have hvalue : value size depth (m.1.behindColon.chars ++ (m.2.chars ++ rest)) = _ :=
      h m hm size m.1.behindColon rest (by omega) hrest
    rw [valueStep, colon_gap]
    dsimp only
    rw [hvalue]
    exact map_map_rest _ (putEntry key · done) rest
  have hkeys : ∀ m ∈ ms, m.1.key.inner.length < size := by
    intro m hm
    have := Tree.length_member_le hm true last
    omega
  have hcount := Tree.length_members_lt true ms last
  show value size (depth + 1) (g.chars ++ '{' :: (Tree.memberChars true ms last ++ rest)) = _
  rw [value_gap, value_brace, members_tree hkeys hstep (by omega)]
  exact map_map_rest _ Json.object rest

/-- The reader of any value is settled. -/
theorem settled_any : Settled Reader.any := by
  intro depth t
  induction t generalizing depth with
  | null =>
    refine Finds.on (e := .ok .null) fun size g rest _ _ => ?_
    exact (value_gap ..).trans (value_null size depth rest)
  | bool b =>
    refine Finds.on (e := .ok (.bool b)) fun size g rest _ _ => (value_gap ..).trans ?_
    cases b with
    | true => exact value_true size depth rest
    | false => exact value_false size depth rest
  | number n =>
    obtain ⟨res, hres⟩ := exists_number n
    obtain ⟨c, cs, hcs, hc⟩ := numeral_eq_cons n
    refine Finds.on (e := res.map .number) fun size g rest _ hrest => (value_gap ..).trans ?_
    have hnumber := hres rest hrest
    rw [Tree.chars]
    rw [hcs, List.cons_append] at hnumber ⊢
    rw [value_number hc, hnumber]
    exact map_map_rest res Json.number rest
  | string q =>
    refine Finds.on (e := q.text.map .string) fun size g rest hsize _ => (value_gap ..).trans ?_
    have hlength : (Tree.string q).chars.length = (q.inner ++ ['\"']).length + 1 := rfl
    rw [List.length_append] at hlength
    show value size depth ('\"' :: ((q.inner ++ ['\"']) ++ rest)) = _
    rw [value_quote, List.append_assoc, List.singleton_append, string_quoted (by omega)]
    exact map_map_rest q.text Json.string rest
  | list ts last ih =>
    cases depth with
    | zero =>
      exact Finds.on (e := .error .tooDeep) fun size g rest _ _ =>
        (value_gap ..).trans (value_tooDeep (.inl rfl) size _)
    | succ depth => exact (Finds.any_list (fun i hi => ih i hi depth) last).on
  | object ms last ih =>
    cases depth with
    | zero =>
      exact Finds.on (e := .error .tooDeep) fun size g rest _ _ =>
        (value_gap ..).trans (value_tooDeep (.inr rfl) size _)
    | succ depth => exact (Finds.any_object (fun m hm => ih m hm depth) last).on

theorem settled_choice (type : String) (choose : Json → Option α) :
    Settled (Reader.choice type choose) := by
  intro depth t
  refine Finds.on (e := (Reader.any.on depth t).bind fun v =>
    (choose v).elim (.error (.noVariant type)) .ok) fun size g rest hsize hrest => ?_
  have hvalue : value size depth (g.chars ++ (t.chars ++ rest)) = _ :=
    settled_any depth t size g rest hsize hrest
  rw [Reader.choice, hvalue]
  cases Reader.any.on depth t with
  | error f => rfl
  | ok v =>
    dsimp only [Except.map, Except.bind]
    cases choose v with
    | none => rfl
    | some a => rfl

theorem Finds.optional_null (r : Reader α) (depth : Nat) :
    Finds r.optional depth .null (.ok none) := by
  intro size g rest _ _
  rw [Reader.optional, skipSpace_gap]
  rfl

theorem Finds.optional_some {r : Reader α} {depth : Nat} {t : Tree} {res : Except Fault α}
    (h : Finds r depth t res) (ht : t ≠ .null) :
    Finds r.optional depth t (res.map some) := by
  intro size g rest hsize hrest
  obtain ⟨c, cs, hc, hopen⟩ := t.exists_opening
  have hread : r.map some size depth (t.chars ++ rest) = _ :=
    h.map some size .none rest hsize hrest
  rw [hc, List.cons_append] at hread ⊢
  rw [Reader.optional, skipSpace_gap, skipSpace_cons hopen.space]
  split
  · next heq => exact absurd (hopen.null (List.cons.inj heq).1) ht
  · exact hread

theorem Settled.optional {r : Reader α} (h : Settled r) : Settled r.optional := by
  intro depth t
  by_cases ht : t = .null
  · subst ht
    exact (Finds.optional_null r depth).on
  · exact ((h depth t).optional_some ht).on

theorem Settled.on_optional {r : Reader α} (h : Settled r) {t : Tree} (ht : t ≠ .null)
    (depth : Nat) : r.optional.on depth t = (r.on depth t).map some :=
  ((h depth t).optional_some ht).on_eq

/-- Where a list or an object was expected, a number is read before it is turned down. -/
theorem unexpected_number {c : Char} (h : c = '-' ∨ c.isDigit = true) (size : Nat)
    (expected : String) (s : List Char) :
    (unexpected size expected (c :: s) : Read α) =
      match (Lexeme.number (c :: s)).map fun n => Found.ofNumber n.1 with
      | .ok found => .error (.wrongType found expected)
      | .error f => .error f := by
  rcases h with rfl | h
  · rfl
  · obtain ⟨n, hn, rfl⟩ := Text.exists_digitChar h
    match n, hn with
    | 0, _ | 1, _ | 2, _ | 3, _ | 4, _ | 5, _ | 6, _ | 7, _ | 8, _ | 9, _ => rfl

/-- What is said of a value that is not the expected one does not depend on what follows. -/
theorem exists_unexpected (expected : String) (t : Tree) :
    ∃ f, ∀ size rest, t.chars.length < size → EndsNumber rest →
      (unexpected size expected (t.chars ++ rest) : Read α) = .error f := by
  cases t with
  | null => exact ⟨_, fun _ _ _ _ => rfl⟩
  | bool b =>
    cases b with
    | true => exact ⟨_, fun _ _ _ _ => rfl⟩
    | false => exact ⟨_, fun _ _ _ _ => rfl⟩
  | number n =>
    obtain ⟨res, hres⟩ := exists_number n
    obtain ⟨c, cs, hcs, hc⟩ := numeral_eq_cons n
    have hfound (size : Nat) (rest : List Char) (hrest : EndsNumber rest) :
        (unexpected size expected ((Tree.number n).chars ++ rest) : Read α) =
          match res.map Found.ofNumber with
          | .ok found => .error (.wrongType found expected)
          | .error f => .error f := by
      have hnumber := hres rest hrest
      rw [hcs, List.cons_append] at hnumber
      rw [Tree.chars, hcs, List.cons_append, unexpected_number hc, hnumber]
      cases res with
      | error f => rfl
      | ok v => rfl
    cases res with
    | error f => exact ⟨f, fun size rest _ hrest => hfound size rest hrest⟩
    | ok v => exact ⟨_, fun size rest _ hrest => hfound size rest hrest⟩
  | string q =>
    have hlength : (Tree.string q).chars.length = (q.inner ++ ['\"']).length + 1 := rfl
    rw [List.length_append] at hlength
    have hfound (size : Nat) (rest : List Char) (hsize : (Tree.string q).chars.length < size) :
        (unexpected size expected ((Tree.string q).chars ++ rest) : Read α) =
          match q.text.map Found.string with
          | .ok found => .error (.wrongType found expected)
          | .error f => .error f := by
      show (match (Lexeme.string size ((q.inner ++ ['\"']) ++ rest)).map fun t =>
          Found.string t.1 with
        | .ok found => .error (.wrongType found expected)
        | .error f => .error f : Read α) = _
      rw [List.append_assoc, List.singleton_append, string_quoted (by omega)]
      cases q.text with
      | error f => rfl
      | ok t => rfl
    cases htext : q.text with
    | error f =>
      rw [htext] at hfound
      exact ⟨f, fun size rest hsize _ => hfound size rest hsize⟩
    | ok t =>
      rw [htext] at hfound
      exact ⟨_, fun size rest hsize _ => hfound size rest hsize⟩
  | list ts last => exact ⟨_, fun _ _ _ _ => rfl⟩
  | object ms last => exact ⟨_, fun _ _ _ _ => rfl⟩

/-- The items of a list are read where they stand as they are read alone. -/
theorem Settled.items {r : Reader α} (h : Settled r) {ts : List (Place × Tree)} {last : Gap}
    {size : Nat} (hsize : (Tree.list ts last).chars.length < size) (depth : Nat)
    (rest : List Char) :
    items (r size depth) size true [] (Tree.itemChars true ts last ++ rest) =
      (ts.mapM fun i => r.on depth i.2).map fun as => (as, rest) := by
  have hlength : (Tree.list ts last).chars.length = (Tree.itemChars true ts last).length + 1 := rfl
  have hcount := Tree.length_items_lt true ts last
  refine items_tree (f := r.on depth) (fun i hi rest hrest => ?_) (by omega) true [] last rest
  have := Tree.length_item_le hi true last
  exact h depth i.2 size .none rest (by omega) hrest

/-- The members of an object are gone through where they stand as they are alone, if a step from
key to value does so for the values of the object. -/
theorem members_object {size : Nat} {step : σ → String → List Char → Read σ}
    {next : σ → String → Tree → Except Fault σ} {ms : List (Label × Tree)} {last : Gap}
    (hsize : (Tree.object ms last).chars.length < size)
    (hstep : ∀ t : Tree, t.chars.length < size → ∀ state key (g g' : Gap) rest, EndsNumber rest →
      step state key (g.chars ++ ':' :: (g'.chars ++ (t.chars ++ rest))) =
        (next state key t).map fun state => (state, rest))
    (state : σ) (rest : List Char) :
    members size step size true state (Tree.memberChars true ms last ++ rest) =
      ((Tree.cores ms).foldlM (onMember next) state).map fun state => (state, rest) := by
  have hlength : (Tree.object ms last).chars.length = (Tree.memberChars true ms last).length + 1 :=
    rfl
  have hcount := Tree.length_members_lt true ms last
  refine members_tree (fun m hm => ?_) (fun m hm state key rest hrest => ?_) (by omega) true state
    last rest
  · have := Tree.length_member_le hm true last
    omega
  · have := Tree.length_member_le hm true last
    exact hstep m.2 (by omega) state key _ _ rest hrest

theorem list_unexpected (r : Reader α) {c : Char} (hspace : isSpace c = false) (hc : c ≠ '[')
    (size depth : Nat) (g : Gap) (s : List Char) :
    r.list size depth (g.chars ++ c :: s) = unexpected size "a sequence" (c :: s) := by
  rw [Reader.list, skipSpace_gap, skipSpace_cons hspace]
  split
  · next heq => exact absurd (List.cons.inj heq).1 hc
  · rfl

theorem list_bracket (r : Reader α) (size depth : Nat) (g : Gap) (s : List Char) :
    r.list size (depth + 1) (g.chars ++ '[' :: s) = items (r size depth) size true [] s := by
  rw [Reader.list, skipSpace_gap]
  rfl

theorem Settled.finds_list {r : Reader α} (h : Settled r) (depth : Nat) (ts : List (Place × Tree))
    (last : Gap) :
    Finds r.list (depth + 1) (.list ts last) (ts.mapM fun i => r.on depth i.2) :=
  fun size g rest hsize _ => (list_bracket r size depth g _).trans (h.items hsize depth rest)

theorem Settled.list {r : Reader α} (h : Settled r) : Settled r.list := by
  intro depth t
  obtain ⟨c, cs, hc, hopen⟩ := t.exists_opening
  by_cases hbracket : c = '['
  · obtain ⟨ts, last, rfl⟩ := hopen.list hbracket
    cases depth with
    | zero =>
      refine Finds.on (e := .error .tooDeep) fun size g rest _ _ => ?_
      rw [Reader.list, skipSpace_gap]
      rfl
    | succ depth => exact (h.finds_list depth ts last).on
  · obtain ⟨f, hf⟩ := exists_unexpected (α := List α) "a sequence" t
    refine Finds.on (e := .error f) fun size g rest hsize hrest => ?_
    have hread := hf size rest hsize hrest
    rw [hc, List.cons_append] at hread ⊢
    rw [list_unexpected r hopen.space hbracket, hread]
    rfl

/-- A list is read item by item. -/
theorem Settled.on_list {r : Reader α} (h : Settled r) (depth : Nat) (ts : List (Place × Tree))
    (last : Gap) :
    r.list.on (depth + 1) (.list ts last) = ts.mapM fun i => r.on depth i.2 :=
  (h.finds_list depth ts last).on_eq

/-! ## Tables -/

/-- How the reader of a table goes on from a key. -/
def tableNext (r : Reader α) (depth : Nat) (table : ByName α) (key : String) (t : Tree) :
    Except Fault (ByName α) :=
  (r.on depth t).map fun a => table.insert key a

theorem table_unexpected (r : Reader α) {c : Char} (hspace : isSpace c = false) (hc : c ≠ '{')
    (size depth : Nat) (g : Gap) (s : List Char) :
    r.table size depth (g.chars ++ c :: s) = unexpected size "a map" (c :: s) := by
  rw [Reader.table, skipSpace_gap, skipSpace_cons hspace]
  split
  · next heq => exact absurd (List.cons.inj heq).1 hc
  · rfl

theorem table_brace (r : Reader α) (size depth : Nat) (g : Gap) (s : List Char) :
    r.table size (depth + 1) (g.chars ++ '{' :: s) =
      members size (tableStep r size depth) size true ByName.empty s := by
  rw [Reader.table, skipSpace_gap]
  rfl

theorem Settled.finds_table {r : Reader α} (h : Settled r) (depth : Nat)
    (ms : List (Label × Tree)) (last : Gap) :
    Finds r.table (depth + 1) (.object ms last)
      ((Tree.cores ms).foldlM (onMember (tableNext r depth)) ByName.empty) := by
  intro size g rest hsize _
  refine (table_brace r size depth g _).trans (members_object hsize ?_ ByName.empty rest)
  intro t ht table key g g' rest hrest
  rw [tableStep, colon_gap]
  dsimp only
  rw [h depth t size g' rest ht hrest]
  exact map_map_rest _ (table.insert key ·) rest

theorem Settled.table {r : Reader α} (h : Settled r) : Settled r.table := by
  intro depth t
  obtain ⟨c, cs, hc, hopen⟩ := t.exists_opening
  by_cases hbrace : c = '{'
  · obtain ⟨ms, last, rfl⟩ := hopen.object hbrace
    cases depth with
    | zero =>
      refine Finds.on (e := .error .tooDeep) fun size g rest _ _ => ?_
      rw [Reader.table, skipSpace_gap]
      rfl
    | succ depth => exact (h.finds_table depth ms last).on
  · obtain ⟨f, hf⟩ := exists_unexpected (α := ByName α) "a map" t
    refine Finds.on (e := .error f) fun size g rest hsize hrest => ?_
    have hread := hf size rest hsize hrest
    rw [hc, List.cons_append] at hread ⊢
    rw [table_unexpected r hopen.space hbrace, hread]
    rfl

/-- A table is read member by member. -/
theorem Settled.on_table {r : Reader α} (h : Settled r) (depth : Nat) (ms : List (Label × Tree))
    (last : Gap) :
    r.table.on (depth + 1) (.object ms last) =
      (Tree.cores ms).foldlM (onMember (tableNext r depth)) ByName.empty :=
  (h.finds_table depth ms last).on_eq

/-! ## Records -/

/-- How the reader of a record goes on from a key. -/
def fieldNext (depth : Nat) (fields : List (Field Reader σ)) (state : σ × List String)
    (key : String) (t : Tree) : Except Fault (σ × List String) :=
  match fields.find? fun f => f.name == key with
  | none => .ok state
  | some field =>
    if state.2.contains key then .error (.duplicateField key)
    else (field.read.on depth t).map fun set => (set state.1, key :: state.2)

theorem fieldNext_unknown {fields : List (Field Reader σ)} {key : String}
    (h : (fields.find? fun f => f.name == key) = none) (depth : Nat) (state : σ × List String)
    (t : Tree) : fieldNext depth fields state key t = .ok state := by
  rw [fieldNext, h]

theorem fieldNext_known {fields : List (Field Reader σ)} {key : String} {field : Field Reader σ}
    (h : (fields.find? fun f => f.name == key) = some field) (depth : Nat)
    (state : σ × List String) (t : Tree) :
    fieldNext depth fields state key t =
      if state.2.contains key then .error (.duplicateField key)
      else (field.read.on depth t).map fun set => (set state.1, key :: state.2) := by
  rw [fieldNext, h]

theorem fieldStep_tree {depth : Nat} {fields : List (Field Reader σ)}
    (h : ∀ f ∈ fields, Settled f.read) {size : Nat} {t : Tree} (ht : t.chars.length < size)
    (state : σ × List String) (key : String) (g g' : Gap) {rest : List Char}
    (hrest : EndsNumber rest) :
    fieldStep size depth fields state key (g.chars ++ ':' :: (g'.chars ++ (t.chars ++ rest))) =
      (fieldNext depth fields state key t).map fun state => (state, rest) := by
  rw [fieldStep, fieldNext]
  cases hfield : fields.find? fun f => f.name == key with
  | none =>
    dsimp only
    rw [colon_gap]
    dsimp only
    rw [skipValue_chars ht g' hrest]
    rfl
  | some field =>
    dsimp only
    split
    · rfl
    · rw [colon_gap]
      dsimp only
      rw [h field (List.mem_of_find?_eq_some hfield) depth t size g' rest ht hrest]
      exact map_map_rest _ (fun set : σ → σ => (set state.1, key :: state.2)) rest

theorem record_brace (type : String) (fields : List (Field Reader σ)) (blank : σ)
    (size depth : Nat) (g : Gap) (s : List Char) :
    Reader.record type fields blank size (depth + 1) (g.chars ++ '{' :: s) =
      (members size (fieldStep size depth fields) size true (blank, []) s).map
        fun (state, rest) => (state.1, rest) := by
  rw [Reader.record, skipSpace_gap]
  rfl

theorem record_bracket (type : String) (fields : List (Field Reader σ)) (blank : σ)
    (size depth : Nat) (g : Gap) (s : List Char) :
    Reader.record type fields blank size (depth + 1) (g.chars ++ '[' :: s) =
      fieldItems size depth fields true blank s := by
  rw [Reader.record, skipSpace_gap]
  rfl

theorem record_unexpected (type : String) (fields : List (Field Reader σ)) (blank : σ) {c : Char}
    (hspace : isSpace c = false) (hbrace : c ≠ '{') (hbracket : c ≠ '[') (size depth : Nat)
    (g : Gap) (s : List Char) :
    Reader.record type fields blank size depth (g.chars ++ c :: s) =
      unexpected size ("struct " ++ type) (c :: s) := by
  rw [Reader.record, skipSpace_gap, skipSpace_cons hspace]
  split
  · next heq => exact absurd (List.cons.inj heq).1 hbrace
  · next heq => exact absurd (List.cons.inj heq).1 hbracket
  · rfl

theorem finds_record {type : String} {fields : List (Field Reader σ)} {blank : σ}
    (h : ∀ f ∈ fields, Settled f.read) (depth : Nat) (ms : List (Label × Tree)) (last : Gap) :
    Finds (Reader.record type fields blank) (depth + 1) (.object ms last)
      (((Tree.cores ms).foldlM (onMember (fieldNext depth fields)) (blank, [])).map Prod.fst) := by
  intro size g rest hsize _
  have hmembers : members size (fieldStep size depth fields) size true (blank, [])
      (Tree.memberChars true ms last ++ rest) = _ :=
    members_object hsize
      (fun t ht state key g g' rest hrest => fieldStep_tree h ht state key g g' hrest)
      (blank, []) rest
  refine (record_brace type fields blank size depth g _).trans ((congrArg _ hmembers).trans ?_)
  exact map_map_rest _ Prod.fst rest

/-- How a record that is written as a list is read: field by field, in their order.  There may be
no more items than fields. -/
def onItems (depth : Nat) : List (Field Reader σ) → List Tree → σ → Except Fault σ
  | [], [], state => .ok state
  | [], _ :: _, _ => .error .trailingText
  | _ :: _, [], state => .ok state
  | field :: fields, t :: ts, state =>
    (field.read.on depth t).bind fun set => onItems depth fields ts (set state)

/-- No further item may stand in a list that holds as many as there are fields. -/
theorem endOfItems_cons (first : Bool) (i : Place × Tree) (ts : List (Place × Tree)) (last : Gap)
    (rest : List Char) :
    endOfItems (Tree.itemChars first (i :: ts) last ++ rest) = .error .trailingText := by
  obtain ⟨p, t⟩ := i
  obtain ⟨c, cs, hc, hopen⟩ := t.exists_opening
  have hend : c ≠ ']' := hopen.bracket .list
  rw [Tree.itemChars_cons, hc, List.cons_append, Tree.lead, List.append_assoc,
    List.append_assoc]
  cases first with
  | true =>
    show endOfItems (p.before.chars ++ (p.behind.chars ++ c :: _)) = _
    rw [endOfItems, skipSpace_gap, skipSpace_gap, skipSpace_cons hopen.space]
    split
    · next heq => exact absurd heq (List.cons_ne_nil _ _)
    · next heq => exact absurd (List.cons.inj heq).1 hend
    · next heq => exact absurd (List.cons.inj heq).1 hopen.comma
    · rfl
  | false =>
    show endOfItems (p.before.chars ++ ',' :: (p.behind.chars ++ c :: _)) = _
    rw [endOfItems, skipSpace_gap, skipSpace_cons (by decide)]
    split
    · next heq => exact absurd heq (List.cons_ne_nil _ _)
    · next heq => exact absurd (List.cons.inj heq).1 (by decide)
    · next heq =>
      obtain ⟨-, rfl⟩ := List.cons.inj heq
      rw [skipSpace_gap, skipSpace_cons hopen.space]
      split
      · next heq => exact absurd (List.cons.inj heq).1 hend
      · rfl
    · next hcomma => exact absurd rfl (hcomma _)

/-- The items of a record are read where they stand as they are read alone. -/
theorem fieldItems_tree {size depth : Nat} {fields : List (Field Reader σ)}
    (h : ∀ f ∈ fields, Settled f.read) {ts : List (Place × Tree)}
    (hsize : ∀ i ∈ ts, i.2.chars.length < size) (first : Bool) (state : σ) (last : Gap)
    (rest : List Char) :
    fieldItems size depth fields first state (Tree.itemChars first ts last ++ rest) =
      (onItems depth fields (ts.map Prod.snd) state).map fun state => (state, rest) := by
  induction fields generalizing first state ts with
  | nil =>
    rw [fieldItems]
    cases ts with
    | nil =>
      rw [Tree.itemChars_nil, endOfItems, skipSpace_gap, skipSpace_cons (by decide)]
      rfl
    | cons i ts =>
      rw [endOfItems_cons]
      rfl
  | cons field fields ih =>
    cases ts with
    | nil =>
      rw [Tree.itemChars_nil, fieldItems, nextItem_gap]
      rfl
    | cons i ts =>
      obtain ⟨p, t⟩ := i
      have hitem :
          field.read size depth (t.chars ++ (Tree.itemChars false ts last ++ rest)) =
            (field.read.on depth t).map fun set => (set, Tree.itemChars false ts last ++ rest) :=
        h field List.mem_cons_self depth t size .none _ (hsize _ List.mem_cons_self)
          (endsNumber_itemChars_tree ts last rest)
      rw [Tree.itemChars_cons, fieldItems, nextItem_tree, List.map_cons, onItems]
      dsimp only
      rw [hitem]
      cases field.read.on depth t with
      | error f => rfl
      | ok set =>
        exact ih (fun f hf => h f (List.mem_cons_of_mem _ hf))
          (fun i hi => hsize i (List.mem_cons_of_mem _ hi)) false (set state)

theorem finds_record_list {type : String} {fields : List (Field Reader σ)} {blank : σ}
    (h : ∀ f ∈ fields, Settled f.read) (depth : Nat) (ts : List (Place × Tree)) (last : Gap) :
    Finds (Reader.record type fields blank) (depth + 1) (.list ts last)
      (onItems depth fields (ts.map Prod.snd) blank) := by
  intro size g rest hsize _
  refine (record_bracket type fields blank size depth g _).trans (fieldItems_tree h ?_ true blank
    last rest)
  exact fun i hi => Nat.lt_trans (Nat.lt_succ_of_le (Tree.length_item_le hi true last)) hsize

theorem settled_record {type : String} {fields : List (Field Reader σ)} {blank : σ}
    (h : ∀ f ∈ fields, Settled f.read) : Settled (Reader.record type fields blank) := by
  intro depth t
  obtain ⟨c, cs, hc, hopen⟩ := t.exists_opening
  by_cases hbrace : c = '{'
  · obtain ⟨ms, last, rfl⟩ := hopen.object hbrace
    cases depth with
    | zero =>
      refine Finds.on (e := .error .tooDeep) fun size g rest _ _ => ?_
      rw [Reader.record, skipSpace_gap]
      rfl
    | succ depth => exact (finds_record h depth ms last).on
  · by_cases hbracket : c = '['
    · obtain ⟨ts, last, rfl⟩ := hopen.list hbracket
      cases depth with
      | zero =>
        refine Finds.on (e := .error .tooDeep) fun size g rest _ _ => ?_
        rw [Reader.record, skipSpace_gap]
        rfl
      | succ depth => exact (finds_record_list h depth ts last).on
    · obtain ⟨f, hf⟩ := exists_unexpected (α := σ) ("struct " ++ type) t
      refine Finds.on (e := .error f) fun size g rest hsize hrest => ?_
      have hread := hf size rest hsize hrest
      rw [hc, List.cons_append] at hread ⊢
      rw [record_unexpected type fields blank hopen.space hbrace hbracket, hread]
      rfl

/-- A record that is written as an object is read member by member. -/
theorem on_record {type : String} {fields : List (Field Reader σ)} {blank : σ}
    (h : ∀ f ∈ fields, Settled f.read) (depth : Nat) (ms : List (Label × Tree)) (last : Gap) :
    (Reader.record type fields blank).on (depth + 1) (.object ms last) =
      ((Tree.cores ms).foldlM (onMember (fieldNext depth fields)) (blank, [])).map Prod.fst :=
  (finds_record h depth ms last).on_eq

/-- A record that is written as a list is read field by field. -/
theorem on_record_list {type : String} {fields : List (Field Reader σ)} {blank : σ}
    (h : ∀ f ∈ fields, Settled f.read) (depth : Nat) (ts : List (Place × Tree)) (last : Gap) :
    (Reader.record type fields blank).on (depth + 1) (.list ts last) =
      onItems depth fields (ts.map Prod.snd) blank :=
  (finds_record_list h depth ts last).on_eq

/-! ## Texts -/

/-- A text that holds a value, with white space around it, is read as the value is. -/
theorem Settled.run_eq {r : Reader α} (h : Settled r) (g : Gap) (t : Tree) (g' : Gap) :
    r.run (String.ofList (g.chars ++ (t.chars ++ g'.chars))) = r.on maxDepth t := by
  have hend : EndsNumber g'.chars := by
    have := endsNumber_gap g' (s := []) fun c hc => absurd hc (Option.not_mem_none c)
    rwa [List.append_nil] at this
  have hgap : skipSpace g'.chars = [] := by
    have := skipSpace_gap g' []
    rwa [List.append_nil] at this
  have hread := h maxDepth t ((g.chars ++ (t.chars ++ g'.chars)).length + 1) g g'.chars
    (by rw [List.length_append, List.length_append]; omega) hend
  unfold Reader.run
  rw [String.toList_ofList]
  dsimp only
  rw [hread]
  cases r.on maxDepth t with
  | error f => rfl
  | ok a =>
    dsimp only [Except.map]
    rw [hgap]

end Json
end GlyphLine
