import GlyphLine.Proofs.Compact.Basic
import GlyphLine.Proofs.Json.RoundTrip

/-!
# One-line texts read as JSON

The readers of JSON texts take a one-line text apart as it has been put together: scalars,
lists, tables and records one by one, if the readers for what stands inside do so.

* `Json.Takes`: that a reader finds a value.
* `Json.Takes.choice`, `Json.takes_null`, `Json.Takes.some`, `Json.takes_list`,
  `Json.takes_table`, `Json.takes_record`: each kind of reader.
-/

namespace GlyphLine
namespace Json

open Lexeme

/-! ## Strings -/

/-- One step of the reader takes what a character is written as. -/
theorem stringSteps_glyph (steps : Nat) (done : List Char) (g : Glyph) (rest : List Char) :
    stringSteps (steps + 1) done (g.chars ++ rest) = stringSteps steps (g.char :: done) rest := by
  obtain ⟨c, cs, hp, hw⟩ := g
  dsimp only at hp ⊢
  cases hw with
  | plain hquote hslash =>
    have hcontrol : isControl c = false := by
      rw [isControl, decide_eq_false (by omega)]
    rw [List.singleton_append, stringSteps, if_neg hquote, if_neg hslash,
      if_neg (by rw [hcontrol]; exact Bool.false_ne_true)]
  | escaped h =>
    have hesc : escaped (c :: rest) = .ok (c, rest) := by
      rcases h with rfl | rfl | rfl <;> rfl
    show stringSteps (steps + 1) done ('\\' :: c :: rest) = _
    rw [stringSteps, if_neg (by decide), if_pos rfl, hesc]
  | @code last h =>
    show stringSteps (steps + 1) done
      ('\\' :: 'u' :: '0' :: '0' :: hexChar (c.toNat / 16) :: last :: rest) = _
    rw [stringSteps, if_neg (by decide), if_pos rfl, escaped_code (by omega) h]

/-- With more steps than characters the whole string is read. -/
theorem stringSteps_glyphs {steps : Nat} {gs : List Glyph} (h : gs.length < steps)
    (done rest : List Char) :
    stringSteps steps done (gs.flatMap Glyph.chars ++ '\"' :: rest) =
      .ok (done.reverse ++ gs.map Glyph.char, rest) := by
  induction gs generalizing steps done with
  | nil =>
    obtain ⟨steps, rfl⟩ := Nat.exists_eq_add_of_le' (Nat.zero_lt_of_lt h)
    rw [List.flatMap_nil, List.nil_append, List.map_nil, List.append_nil, stringSteps, if_pos rfl]
  | cons g gs ih =>
    obtain ⟨steps, rfl⟩ := Nat.exists_eq_add_of_le' (Nat.zero_lt_of_lt h)
    rw [List.flatMap_cons, List.append_assoc, stringSteps_glyph,
      ih (Nat.lt_of_succ_lt_succ h), List.reverse_cons, List.append_assoc,
      List.singleton_append, List.map_cons]

/-- A string is read from behind its opening quote on. -/
theorem string_inner {budget : Nat} {s : Spelling} (h : s.inner.length < budget)
    (rest : List Char) :
    Lexeme.string budget (s.inner ++ '\"' :: rest) = .ok (s.text, rest) := by
  rw [Lexeme.string, Spelling.inner,
    stringSteps_glyphs (Nat.lt_of_le_of_lt s.length_glyphs_le h), List.reverse_nil,
    List.nil_append]
  rfl

/-! ## How a value begins -/

/-- A value begins with a character that is neither white space nor the end of a list, and
with the first letter of `null` only if it is null. -/
theorem compact_eq_cons (v : Compact) :
    ∃ c cs, v.chars = c :: cs ∧ isSpace c = false ∧ c ≠ ']' ∧ (c = 'n' → v = .null) := by
  cases v with
  | null => exact ⟨'n', _, rfl, by decide, by decide, fun _ => rfl⟩
  | bool b =>
    cases b with
    | true => exact ⟨'t', _, rfl, by decide, by decide, fun h => absurd h (by decide)⟩
    | false => exact ⟨'f', _, rfl, by decide, by decide, fun h => absurd h (by decide)⟩
  | whole n =>
    obtain ⟨c, cs, hcs, hc⟩ := numberChars_eq_cons n
    exact ⟨c, cs, hcs, isSpace_of_beginsNumber hc, ne_of_beginsNumber hc (by decide) (by decide),
      fun h => absurd h (ne_of_beginsNumber hc (by decide) (by decide))⟩
  | string s => exact ⟨'\"', _, rfl, by decide, by decide, fun h => absurd h (by decide)⟩
  | list vs => exact ⟨'[', _, rfl, by decide, by decide, fun h => absurd h (by decide)⟩
  | map es => exact ⟨'{', _, rfl, by decide, by decide, fun h => absurd h (by decide)⟩

/-- A list has fewer items than characters. -/
theorem length_items_lt (vs : List Compact) (first : Bool) :
    vs.length < (Compact.itemChars first vs).length := by
  induction vs generalizing first with
  | nil => exact Nat.lt_add_one 0
  | cons v vs ih =>
    obtain ⟨c, cs, hc, _⟩ := compact_eq_cons v
    have := ih false
    rw [List.length_cons, Compact.itemChars, hc, List.length_append, List.length_append,
      List.length_cons]
    omega

/-! ## What stands between the parts -/

theorem nextItem_compact (first : Bool) (v : Compact) (rest : List Char) :
    nextItem first (Compact.comma first ++ (v.chars ++ rest)) = .ok (true, v.chars ++ rest) := by
  obtain ⟨c, cs, hc, hspace, hend, _⟩ := compact_eq_cons v
  have hnext := nextItem_lead hspace hend first ⟨.none, .none⟩ (cs ++ rest)
  rw [hc, List.cons_append]
  cases first with
  | true => exact hnext
  | false => exact hnext

theorem nextItem_itemsEnd (first : Bool) (rest : List Char) :
    nextItem first (Compact.itemChars first [] ++ rest) = .ok (false, rest) :=
  nextItem_gap first .none rest

theorem nextKey_compact (first : Bool) (k : Key) (rest : List Char) :
    nextKey first (Compact.comma first ++ (k.chars ++ rest)) =
      .ok (true, k.spelling.inner ++ '\"' :: rest) := by
  have hnext := nextKey_lead first ⟨.none, .none⟩ (k.spelling.inner ++ '\"' :: rest)
  have hk : k.chars ++ rest = '\"' :: (k.spelling.inner ++ '\"' :: rest) := by
    rw [Key.chars, Spelling.chars, List.cons_append, List.append_assoc, List.singleton_append]
  rw [hk]
  cases first with
  | true => exact hnext
  | false => exact hnext

theorem nextKey_entriesEnd (first : Bool) (rest : List Char) :
    nextKey first (Compact.entryChars first [] ++ rest) = .ok (false, rest) :=
  nextKey_gap first .none rest

/-! ## Loops -/

theorem endsNumber_itemChars_compact (vs : List Compact) (rest : List Char) :
    EndsNumber (Compact.itemChars false vs ++ rest) := by
  cases vs with
  | nil => exact endsNumber_cons (.inr (.inl rfl)) rest
  | cons v vs => exact endsNumber_comma _

theorem endsNumber_entryChars_compact (es : List (Key × Compact)) (rest : List Char) :
    EndsNumber (Compact.entryChars false es ++ rest) := by
  cases es with
  | nil => exact endsNumber_cons (.inr (.inr rfl)) rest
  | cons e es => exact endsNumber_comma _

variable {α σ ι : Type}

/-- A list is read to its end if each of its items is. -/
theorem items_itemChars_compact {read : List Char → Read α} {form : ι → Compact} {value : ι → α}
    {is : List ι}
    (hread : ∀ i ∈ is, ∀ rest, EndsNumber rest →
      read ((form i).chars ++ rest) = .ok (value i, rest))
    {rounds : Nat} (hrounds : is.length < rounds) (first : Bool) (done : List α)
    (rest : List Char) :
    items read rounds first done (Compact.itemChars first (is.map form) ++ rest) =
      .ok (done.reverse ++ is.map value, rest) := by
  induction is generalizing rounds first done with
  | nil =>
    obtain ⟨rounds, rfl⟩ := Nat.exists_eq_add_of_le' (Nat.zero_lt_of_lt hrounds)
    rw [List.map_nil, items, nextItem_itemsEnd, List.map_nil, List.append_nil]
  | cons i is ih =>
    obtain ⟨rounds, rfl⟩ := Nat.exists_eq_add_of_le' (Nat.zero_lt_of_lt hrounds)
    rw [List.map_cons, Compact.itemChars, List.append_assoc, List.append_assoc, items,
      nextItem_compact]
    dsimp only
    rw [hread i List.mem_cons_self _ (endsNumber_itemChars_compact _ _)]
    dsimp only
    rw [ih (fun j hj => hread j (List.mem_cons_of_mem _ hj)) (Nat.lt_of_succ_lt_succ hrounds),
      List.reverse_cons, List.append_assoc, List.singleton_append, List.map_cons]

/-- An object is read to its end if the step that reads a value goes on, from each state that
is met, to the one expected. -/
theorem members_entryChars_compact {size : Nat} {step : σ → String → List Char → Read σ}
    {next : σ → ι → σ} {key : ι → Key} {form : ι → Compact} {is : List ι} {state : σ}
    (hstep : Along next (fun s i => ∀ rest, EndsNumber rest →
      step s (key i).text (':' :: ((form i).chars ++ rest)) = .ok (next s i, rest)) is state)
    (hkeys : ∀ i ∈ is, (key i).spelling.inner.length < size)
    {rounds : Nat} (hrounds : is.length < rounds) (first : Bool) (rest : List Char) :
    members size step rounds first state
        (Compact.entryChars first (is.map fun i => (key i, form i)) ++ rest) =
      .ok (is.foldl next state, rest) := by
  induction is generalizing rounds first state with
  | nil =>
    obtain ⟨rounds, rfl⟩ := Nat.exists_eq_add_of_le' (Nat.zero_lt_of_lt hrounds)
    rw [List.map_nil, members, nextKey_entriesEnd, List.foldl_nil]
  | cons i is ih =>
    obtain ⟨rounds, rfl⟩ := Nat.exists_eq_add_of_le' (Nat.zero_lt_of_lt hrounds)
    rw [List.map_cons, Compact.entryChars, List.append_assoc, List.append_assoc,
      List.cons_append, List.append_assoc, members, nextKey_compact]
    dsimp only
    rw [string_inner (hkeys i List.mem_cons_self)]
    dsimp only
    rw [← Key.text, hstep.1 _ (endsNumber_entryChars_compact _ _)]
    dsimp only
    rw [ih hstep.2 (fun j hj => hkeys j (List.mem_cons_of_mem _ hj))
      (Nat.lt_of_succ_lt_succ hrounds), List.foldl_cons]

/-! ## Readers -/

/-- A reader finds `a` in the written value `v`, in front of anything that could not belong to
a number, if it may still enter `n` lists and objects. -/
def Takes (n : Nat) (r : Reader α) (v : Compact) (a : α) : Prop :=
  ∀ (size depth : Nat) (rest : List Char), v.chars.length < size → n ≤ depth →
    EndsNumber rest → r size depth (v.chars ++ rest) = .ok (a, rest)

theorem Takes.map {n : Nat} {β : Type} {r : Reader α} {v : Compact} {a : α} (h : Takes n r v a)
    (f : α → β) : Takes n (r.map f) v (f a) := by
  intro size depth rest hsize hdepth hrest
  rw [Reader.map, h size depth rest hsize hdepth hrest]
  rfl

theorem takes_any_bool (n : Nat) (b : Bool) : Takes n Reader.any (.bool b) (.bool b) := by
  intro size depth rest _ _ _
  cases b with
  | true => exact value_true size depth rest
  | false => exact value_false size depth rest

theorem takes_any_whole (n : Nat) {m : Int} (h : Width.fits 64 m = true) :
    Takes n Reader.any (.whole m) (.number (.whole m)) := by
  intro size depth rest _ _ hrest
  obtain ⟨c, cs, hcs, hc⟩ := numberChars_eq_cons m
  have hnumber := number_numberChars h hrest
  rw [hcs, List.cons_append] at hnumber
  rw [Compact.chars, hcs, List.cons_append]
  show value size depth _ = _
  rw [value_number hc, hnumber]
  rfl

theorem takes_any_string (n : Nat) (s : Spelling) :
    Takes n Reader.any (.string s) (.string s.text) := by
  intro size depth rest hsize _ _
  rw [Compact.chars, Spelling.length_chars] at hsize
  rw [Compact.chars, Spelling.chars, List.cons_append, List.append_assoc, List.singleton_append]
  show value size depth _ = _
  rw [value_quote, string_inner (by omega)]
  rfl

/-- A scalar that is accepted. -/
theorem Takes.choice {n : Nat} {v : Compact} {j : Json} (h : Takes n Reader.any v j)
    {type : String} {choose : Json → Option α} {a : α} (ha : choose j = some a) :
    Takes n (Reader.choice type choose) v a := by
  intro size depth rest hsize hdepth hrest
  have hvalue : value size depth (v.chars ++ rest) = .ok (j, rest) :=
    h size depth rest hsize hdepth hrest
  rw [Reader.choice, hvalue]
  dsimp only
  rw [ha]

theorem takes_null (n : Nat) (r : Reader α) : Takes n r.optional .null none := by
  intro size depth rest _ _ _
  rfl

/-- What is not null is left to the reader for values that are there. -/
theorem Takes.some {n : Nat} {r : Reader α} {v : Compact} {a : α} (h : Takes n r v a)
    (hv : v ≠ .null) : Takes n r.optional v (some a) := by
  intro size depth rest hsize hdepth hrest
  have hread := h.map Option.some size depth rest hsize hdepth hrest
  obtain ⟨c, cs, hc, hspace, _, hnull⟩ := compact_eq_cons v
  rw [hc, List.cons_append] at hread ⊢
  rw [Reader.optional, skipSpace_cons hspace]
  split
  · next heq => exact absurd (hnull (List.cons.inj heq).1) hv
  · exact hread

theorem takes_list {n : Nat} {r : Reader α} {form : ι → Compact} {value : ι → α} {is : List ι}
    (h : ∀ i ∈ is, Takes n r (form i) (value i)) :
    Takes (n + 1) r.list (.list (is.map form)) (is.map value) := by
  intro size depth rest hsize hdepth _
  obtain ⟨depth, rfl⟩ := Nat.exists_eq_add_of_le' (Nat.le_trans (Nat.le_add_left 1 n) hdepth)
  rw [Compact.chars, List.length_cons] at hsize
  have hread : ∀ i ∈ is, ∀ rest, EndsNumber rest →
      r size depth ((form i).chars ++ rest) = .ok (value i, rest) := by
    intro i hi rest hrest
    have := Compact.length_item_le (List.mem_map_of_mem (f := form) hi) true
    exact h i hi size depth rest (by omega) (Nat.le_of_succ_le_succ hdepth) hrest
  have hlen := length_items_lt (is.map form) true
  rw [List.length_map] at hlen
  show items (r size depth) size true [] (Compact.itemChars true (is.map form) ++ rest) = _
  rw [items_itemChars_compact hread (by omega)]
  rfl

/-- The parts of an object that is shorter than the text are so too. -/
theorem length_lt_of_map {key : ι → Key} {form : ι → Compact} {is : List ι} {size : Nat}
    (h : (Compact.map (is.map fun i => (key i, form i))).chars.length < size) :
    is.length < size ∧
      ∀ i ∈ is, (key i).spelling.inner.length < size ∧ (form i).chars.length < size := by
  rw [Compact.chars, List.length_cons] at h
  have hcount := Compact.length_entries_lt (is.map fun i => (key i, form i)) true
  rw [List.length_map] at hcount
  refine ⟨by omega, fun i hi => ?_⟩
  have hlen :=
    Compact.length_entry_le (List.mem_map_of_mem (f := fun i => (key i, form i)) hi) true
  rw [Key.chars, Spelling.length_chars] at hlen
  omega

/-- How the reader of a table goes on from a key. -/
def tableStep (r : Reader α) (size depth : Nat) (t : ByName α) (key : String) (s : List Char) :
    Read (ByName α) :=
  match colon s with
  | .error f => .error f
  | .ok s => (r size depth s).map fun (a, rest) => (t.insert key a, rest)

theorem takes_table {n : Nat} {r : Reader α} {key : ι → Key} {form : ι → Compact} {value : ι → α}
    {is : List ι} (h : ∀ i ∈ is, Takes n r (form i) (value i)) :
    Takes (n + 1) r.table (.map (is.map fun i => (key i, form i)))
      (ByName.ofList (is.map fun i => ((key i).text, value i))) := by
  intro size depth rest hsize hdepth _
  obtain ⟨depth, rfl⟩ := Nat.exists_eq_add_of_le' (Nat.le_trans (Nat.le_add_left 1 n) hdepth)
  obtain ⟨hcount, hlen⟩ := length_lt_of_map hsize
  have hstep : Along (fun t i => t.insert (key i).text (value i))
      (fun t i => ∀ rest, EndsNumber rest →
        tableStep r size depth t (key i).text (':' :: ((form i).chars ++ rest)) =
          .ok (t.insert (key i).text (value i), rest)) is ByName.empty := by
    refine Along.of_forall fun i hi t rest hrest => ?_
    rw [tableStep, colon_cons]
    dsimp only
    rw [h i hi size depth rest (hlen i hi).2 (Nat.le_of_succ_le_succ hdepth) hrest]
    rfl
  show members size (tableStep r size depth) size true ByName.empty
    (Compact.entryChars true (is.map fun i => (key i, form i)) ++ rest) = _
  rw [members_entryChars_compact hstep (fun i hi => (hlen i hi).1) hcount, ByName.ofList,
    List.foldl_map]

/-- A record of which no field is given twice. -/
theorem takes_record {n : Nat} {type : String} {fields : List (Field Reader σ)} {blank : σ}
    {key : ι → Key} {form : ι → Compact} {set : ι → σ → σ} {is : List ι}
    (hkeys : (is.map fun i => (key i).text).Nodup)
    (h : ∀ i ∈ is, ∃ field, (fields.find? fun f => f.name == (key i).text) = some field ∧
      Takes n field.read (form i) (set i)) :
    Takes (n + 1) (Reader.record type fields blank) (.map (is.map fun i => (key i, form i)))
      (is.foldl (fun s i => set i s) blank) := by
  intro size depth rest hsize hdepth _
  obtain ⟨depth, rfl⟩ := Nat.exists_eq_add_of_le' (Nat.le_trans (Nat.le_add_left 1 n) hdepth)
  obtain ⟨hcount, hlen⟩ := length_lt_of_map hsize
  have hstep : Along (nextField (fun i => (key i).text) set)
      (fun s i => ∀ rest, EndsNumber rest →
        fieldStep size depth fields s (key i).text (':' :: ((form i).chars ++ rest)) =
          .ok (nextField (fun i => (key i).text) set s i, rest)) is (blank, []) := by
    refine (along_nextField set hkeys blank).imp fun i hi s hnew rest hrest => ?_
    obtain ⟨field, hfind, hread⟩ := h i hi
    rw [fieldStep, hfind]
    dsimp only
    rw [hnew, if_neg Bool.false_ne_true, colon_cons]
    dsimp only
    rw [hread size depth rest (hlen i hi).2 (Nat.le_of_succ_le_succ hdepth) hrest]
    rfl
  show (members size (fieldStep size depth fields) size true (blank, [])
    (Compact.entryChars true (is.map fun i => (key i, form i)) ++ rest)).map _ = _
  rw [members_entryChars_compact hstep (fun i hi => (hlen i hi).1) hcount]
  show Except.ok ((is.foldl (nextField (fun i => (key i).text) set) (blank, [])).1, rest) = _
  rw [foldl_nextField]

/-- A reader that finds a value in a written one has it as its result on the text. -/
theorem run_chars {n : Nat} {r : Reader α} {v : Compact} {a : α} (h : Takes n r v a)
    (hn : n ≤ maxDepth) : r.run (String.ofList v.chars) = .ok a := by
  have hread := h (v.chars.length + 1) maxDepth [] (Nat.lt_add_one _) hn
    fun c hc => absurd hc (Option.not_mem_none c)
  have hchars : (String.ofList v.chars).toList = v.chars ++ [] := by
    rw [String.toList_ofList, List.append_nil]
  refine run_eq_ok ?_ (show skipSpace [] = [] from rfl)
  rw [hchars, List.length_append]
  exact hread

end Json
end GlyphLine
