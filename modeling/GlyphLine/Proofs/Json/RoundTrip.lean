import GlyphLine.Json.Reader
import GlyphLine.Proofs.Json.Canonical
import GlyphLine.Proofs.Json.Spacing

/-!
# Reading undoes writing on values

A value is written over several lines and read back as its sorted form.  The induction is
on how deep the value is nested, which is what the reader counts down; inside a list or an
object it is on the items or the members, which the loops of the reader go through.  What
follows a value matters only to numbers, and the writer puts a comma, a line feed or
nothing behind them.

## Main statements

* `value_chars`: a value in front of anything that could not belong to a number.
* `parse_file`: the text of a file.
-/

namespace GlyphLine

/-- A whole number that fits into sixty-four bits, with a sign or without. -/
def Number.IsWord : Number → Prop
  | .whole n => Width.fits 64 n = true
  | .double _ => False

instance : DecidablePred Number.IsWord
  | .whole n => inferInstanceAs (Decidable (Width.fits 64 n = true))
  | .double _ => .isFalse id

namespace Json

open Lexeme

/-! ## White space -/

/-- The beginning of a line that is `columns` columns in. -/
def lineGap (columns : Nat) : Gap :=
  ⟨newLine columns, fun _ hc => (List.mem_cons.1 hc).elim (fun h => .inr (.inl h)) fun h =>
    .inl (List.eq_of_mem_replicate h)⟩

theorem endsNumber_newLine (columns : Nat) (s : List Char) :
    EndsNumber (newLine columns ++ s) := by
  intro c hc
  obtain rfl : '\n' = c := Option.some.inj hc
  decide

theorem endsNumber_comma (s : List Char) : EndsNumber (',' :: s) := endsNumber_cons (.inl rfl) s

theorem endsNumber_itemChars (columns : Nat) (vs : List Json) (outer : Nat) (s : List Char) :
    EndsNumber (itemChars columns vs ++ (newLine outer ++ s)) := by
  cases vs with
  | nil => exact endsNumber_newLine outer s
  | cons v vs =>
    rw [itemChars, List.append_assoc, List.append_assoc, List.cons_append]
    exact endsNumber_comma _

theorem endsNumber_memberChars (columns : Nat) (ms : List (String × Json)) (outer : Nat)
    (s : List Char) : EndsNumber (memberChars columns ms ++ (newLine outer ++ s)) := by
  cases ms with
  | nil => exact endsNumber_newLine outer s
  | cons m ms =>
    rw [memberChars, List.append_assoc, List.append_assoc, List.append_assoc, List.append_assoc,
      List.cons_append]
    exact endsNumber_comma _

/-! ## What stands between the parts -/

theorem nextItem_first {c : Char} (hs : isSpace c = false) (hc : c ≠ ']') (columns : Nat)
    (s : List Char) : nextItem true (newLine columns ++ c :: s) = .ok (true, c :: s) :=
  nextItem_lead hs hc true ⟨.none, lineGap columns⟩ s

theorem nextItem_comma {c : Char} (hs : isSpace c = false) (hc : c ≠ ']') (columns : Nat)
    (s : List Char) : nextItem false (',' :: (newLine columns ++ c :: s)) = .ok (true, c :: s) :=
  nextItem_lead hs hc false ⟨.none, lineGap columns⟩ s

theorem nextItem_end (first : Bool) (columns : Nat) (s : List Char) :
    nextItem first (newLine columns ++ ']' :: s) = .ok (false, s) :=
  nextItem_gap first (lineGap columns) s

theorem nextKey_first (columns : Nat) (s : List Char) :
    nextKey true (newLine columns ++ '\"' :: s) = .ok (true, s) :=
  nextKey_lead true ⟨.none, lineGap columns⟩ s

theorem nextKey_comma (columns : Nat) (s : List Char) :
    nextKey false (',' :: (newLine columns ++ '\"' :: s)) = .ok (true, s) :=
  nextKey_lead false ⟨.none, lineGap columns⟩ s

theorem nextKey_end (first : Bool) (columns : Nat) (s : List Char) :
    nextKey first (newLine columns ++ '}' :: s) = .ok (false, s) :=
  nextKey_gap first (lineGap columns) s

theorem colon_cons (s : List Char) : colon (':' :: s) = .ok s := colon_gap .none s

/-! ## The branches of the reader -/

/-- White space in front of a value does not matter. -/
theorem value_congr {size depth : Nat} {s t : List Char} (h : skipSpace s = skipSpace t) :
    value size depth s = value size depth t := by
  rw [value, value, h]

theorem value_space (size depth : Nat) (s : List Char) :
    value size depth (' ' :: s) = value size depth s :=
  value_congr rfl

theorem value_null (size depth : Nat) (rest : List Char) :
    value size depth ('n' :: 'u' :: 'l' :: 'l' :: rest) = .ok (.null, rest) := by
  cases depth with
  | zero => rfl
  | succ depth => rfl

theorem value_true (size depth : Nat) (rest : List Char) :
    value size depth ('t' :: 'r' :: 'u' :: 'e' :: rest) = .ok (.bool true, rest) := by
  cases depth with
  | zero => rfl
  | succ depth => rfl

theorem value_false (size depth : Nat) (rest : List Char) :
    value size depth ('f' :: 'a' :: 'l' :: 's' :: 'e' :: rest) = .ok (.bool false, rest) := by
  cases depth with
  | zero => rfl
  | succ depth => rfl

theorem value_quote (size depth : Nat) (rest : List Char) :
    value size depth ('\"' :: rest) =
      (Lexeme.string size rest).map fun (t, rest) => (.string t, rest) := by
  cases depth with
  | zero => rfl
  | succ depth => rfl

theorem value_bracket (size depth : Nat) (rest : List Char) :
    value size (depth + 1) ('[' :: rest) =
      (items (value size depth) size true [] rest).map fun (vs, rest) => (.array vs, rest) := by
  rfl

/-- How the reader of an object goes on from a key. -/
def valueStep (size depth : Nat) (ms : List (String × Json)) (key : String) (s : List Char) :
    Read (List (String × Json)) :=
  match colon s with
  | .error f => .error f
  | .ok s => (value size depth s).map fun (v, rest) => (putEntry key v ms, rest)

theorem value_brace (size depth : Nat) (rest : List Char) :
    value size (depth + 1) ('{' :: rest) =
      (members size (valueStep size depth) size true [] rest).map
        fun (ms, rest) => (.object ms, rest) := by
  rfl

/-- What begins with a sign or a digit is a number. -/
theorem value_number {c : Char} (h : c = '-' ∨ c.isDigit = true) (size depth : Nat)
    (s : List Char) :
    value size depth (c :: s) =
      (Lexeme.number (c :: s)).map fun (n, rest) => (.number n, rest) := by
  have hne {d : Char} (hminus : d ≠ '-') (hdigit : d.isDigit = false) : c ≠ d :=
    ne_of_beginsNumber h hminus hdigit
  rw [value, skipSpace_cons (isSpace_of_beginsNumber h)]
  split
  · next heq => exact absurd heq (List.cons_ne_nil _ _)
  · next heq => exact absurd (List.cons.inj heq).1 (hne (by decide) (by decide))
  · next heq => exact absurd (List.cons.inj heq).1 (hne (by decide) (by decide))
  · next heq => exact absurd (List.cons.inj heq).1 (hne (by decide) (by decide))
  · next heq => exact absurd (List.cons.inj heq).1 (hne (by decide) (by decide))
  · next heq => exact absurd (List.cons.inj heq).1 (hne (by decide) (by decide))
  · next heq => exact absurd (List.cons.inj heq).1 (hne (by decide) (by decide))
  · next heq =>
    obtain ⟨rfl, rfl⟩ := List.cons.inj heq
    rw [if_pos (by simpa using h)]

/-! ## How a value begins -/

/-- A value is written with neither white space nor a closing bracket in front. -/
theorem chars_eq_cons {v : Json} (hw : EachNumber Number.IsWord v) (columns : Nat) :
    ∃ c cs, chars columns v = c :: cs ∧ isSpace c = false ∧ c ≠ ']' := by
  cases hw with
  | null => exact ⟨'n', _, rfl, by decide, by decide⟩
  | @bool b =>
    cases b with
    | true => exact ⟨'t', _, rfl, by decide, by decide⟩
    | false => exact ⟨'f', _, rfl, by decide, by decide⟩
  | @number n h =>
    cases n with
    | double d => exact absurd h id
    | whole n =>
      obtain ⟨c, cs, hcs, hc⟩ := numberChars_eq_cons n
      exact ⟨c, cs, hcs, isSpace_of_beginsNumber hc,
        ne_of_beginsNumber hc (by decide) (by decide)⟩
  | string => exact ⟨'\"', _, rfl, by decide, by decide⟩
  | @array vs h =>
    cases vs with
    | nil => exact ⟨'[', _, rfl, by decide, by decide⟩
    | cons v vs => exact ⟨'[', _, rfl, by decide, by decide⟩
  | @object ms h =>
    cases ms with
    | nil => exact ⟨'{', _, rfl, by decide, by decide⟩
    | cons m ms => exact ⟨'{', _, rfl, by decide, by decide⟩

/-! ## Loops -/

/-- An item is no longer than the list that it stands in. -/
theorem length_chars_le_itemChars {v : Json} {vs : List Json} (h : v ∈ vs) (columns : Nat) :
    (chars columns v).length ≤ (itemChars columns vs).length := by
  induction vs with
  | nil => exact absurd h List.not_mem_nil
  | cons w vs ih =>
    rw [itemChars, List.length_append, List.length_append]
    rcases List.mem_cons.1 h with rfl | h
    · omega
    · have := ih h
      omega

/-- A list has no more items than characters. -/
theorem length_le_itemChars (vs : List Json) (columns : Nat) :
    vs.length ≤ (itemChars columns vs).length := by
  induction vs with
  | nil => exact Nat.le_refl 0
  | cons v vs ih =>
    rw [itemChars, List.length_append, List.length_append, List.length_cons, List.length_cons]
    omega

/-- A member is no longer than the object that it stands in. -/
theorem length_member_le_memberChars {m : String × Json} {ms : List (String × Json)}
    (h : m ∈ ms) (columns : Nat) :
    (stringChars m.1).length + (chars columns m.2).length ≤ (memberChars columns ms).length := by
  induction ms with
  | nil => exact absurd h List.not_mem_nil
  | cons n ms ih =>
    rw [memberChars, List.length_append, List.length_append, List.length_append,
      List.length_append]
    rcases List.mem_cons.1 h with rfl | h
    · omega
    · have := ih h
      omega

/-- An object has no more members than characters. -/
theorem length_le_memberChars (ms : List (String × Json)) (columns : Nat) :
    ms.length ≤ (memberChars columns ms).length := by
  induction ms with
  | nil => exact Nat.le_refl 0
  | cons m ms ih =>
    rw [memberChars, List.length_append, List.length_append, List.length_append,
      List.length_append, List.length_cons, List.length_cons]
    omega

/-- What a reader makes of the written form of a value that stands `columns` columns in. -/
def ReadsBack (read : List Char → Read Json) (columns : Nat) (v : Json) : Prop :=
  ∀ rest, EndsNumber rest → read (chars columns v ++ rest) = .ok (v.sorted, rest)

/-- One round through a list: an item is read, and the loop goes on behind it. -/
theorem items_step {read : List Char → Read Json} {columns : Nat} {v : Json}
    (hread : ReadsBack read columns v) {first : Bool} {s rest : List Char}
    (hnext : nextItem first s = .ok (true, chars columns v ++ rest)) (hrest : EndsNumber rest)
    (rounds : Nat) (done : List Json) :
    items read (rounds + 1) first done s = items read rounds false (v.sorted :: done) rest := by
  rw [items, hnext]
  dsimp only
  rw [hread rest hrest]

/-- The items behind the first one, with the end of the list. -/
theorem items_itemChars {read : List Char → Read Json} {columns : Nat} {vs : List Json}
    (hw : ∀ v ∈ vs, EachNumber Number.IsWord v) (hread : ∀ v ∈ vs, ReadsBack read columns v)
    {rounds : Nat} (hrounds : vs.length < rounds) (done : List Json) (outer : Nat)
    (rest : List Char) :
    items read rounds false done (itemChars columns vs ++ (newLine outer ++ ']' :: rest)) =
      .ok (done.reverse ++ sortedItems vs, rest) := by
  induction vs generalizing rounds done with
  | nil =>
    cases rounds with
    | zero => exact absurd hrounds (Nat.not_lt_zero _)
    | succ rounds =>
      rw [itemChars, List.nil_append, items, nextItem_end, sortedItems, List.append_nil]
  | cons v vs ih =>
    cases rounds with
    | zero => exact absurd hrounds (Nat.not_lt_zero _)
    | succ rounds =>
      obtain ⟨c, cs, hc, hspace, hend⟩ := chars_eq_cons (hw v List.mem_cons_self) columns
      have hnext : nextItem false (itemChars columns (v :: vs) ++ (newLine outer ++ ']' :: rest)) =
          .ok (true, chars columns v ++ (itemChars columns vs ++ (newLine outer ++ ']' :: rest))) := by
        rw [itemChars, hc]
        simpa using nextItem_comma hspace hend columns
          (cs ++ (itemChars columns vs ++ (newLine outer ++ ']' :: rest)))
      rw [items_step (hread v List.mem_cons_self) hnext (endsNumber_itemChars columns vs outer _),
        ih (fun w hm => hw w (List.mem_cons_of_mem _ hm))
          (fun w hm => hread w (List.mem_cons_of_mem _ hm)) (Nat.lt_of_succ_lt_succ hrounds),
        sortedItems, List.reverse_cons, List.append_assoc, List.singleton_append]

/-- A key with its colon and its value is read, and the value put among the members. -/
theorem valueStep_member {size depth columns : Nat} {v : Json}
    (hread : ReadsBack (value size depth) columns v) (done : List (String × Json)) (k : String)
    {rest : List Char} (hrest : EndsNumber rest) :
    valueStep size depth done k (':' :: ' ' :: (chars columns v ++ rest)) =
      .ok (putEntry k v.sorted done, rest) := by
  rw [valueStep, colon_cons]
  dsimp only
  rw [value_space, hread rest hrest]
  rfl

/-- A member as it is written, in front of what follows. -/
def memberLine (columns : Nat) (m : String × Json) (rest : List Char) : List Char :=
  m.1.toList.flatMap stringChar ++ '\"' :: ':' :: ' ' :: (chars columns m.2 ++ rest)

theorem memberChars_cons (columns : Nat) (m : String × Json) (ms : List (String × Json))
    (rest : List Char) :
    memberChars columns (m :: ms) ++ rest =
      ',' :: (newLine columns ++ '\"' :: memberLine columns m (memberChars columns ms ++ rest)) := by
  obtain ⟨k, v⟩ := m
  rw [memberChars, stringChars, memberLine]
  simp only [List.append_assoc, List.cons_append, List.nil_append]

/-- One round through an object: a member is read, and the loop goes on behind it. -/
theorem members_step {size depth columns : Nat} {m : String × Json}
    (hread : ReadsBack (value size depth) columns m.2) (hkey : m.1.toList.length < size)
    {first : Bool} {s rest : List Char}
    (hnext : nextKey first s = .ok (true, memberLine columns m rest)) (hrest : EndsNumber rest)
    (rounds : Nat) (done : List (String × Json)) :
    members size (valueStep size depth) (rounds + 1) first done s =
      members size (valueStep size depth) rounds false (putEntry m.1 m.2.sorted done) rest := by
  rw [members, hnext]
  dsimp only
  rw [memberLine, string_stringChars hkey]
  dsimp only
  rw [valueStep_member hread done m.1 hrest]

/-- The members behind the first one, with the end of the object. -/
theorem members_memberChars {size depth columns : Nat} {ms : List (String × Json)}
    (hread : ∀ m ∈ ms, ReadsBack (value size depth) columns m.2)
    (hkeys : ∀ m ∈ ms, m.1.toList.length < size)
    {rounds : Nat} (hrounds : ms.length < rounds) (done : List (String × Json)) (outer : Nat)
    (rest : List Char) :
    members size (valueStep size depth) rounds false done
        (memberChars columns ms ++ (newLine outer ++ '}' :: rest)) =
      .ok (sortedMembers done ms, rest) := by
  induction ms generalizing rounds done with
  | nil =>
    cases rounds with
    | zero => exact absurd hrounds (Nat.not_lt_zero _)
    | succ rounds => rw [memberChars, List.nil_append, members, nextKey_end, sortedMembers]
  | cons m ms ih =>
    cases rounds with
    | zero => exact absurd hrounds (Nat.not_lt_zero _)
    | succ rounds =>
      have hnext := nextKey_comma columns
        (memberLine columns m (memberChars columns ms ++ (newLine outer ++ '}' :: rest)))
      rw [← memberChars_cons] at hnext
      rw [members_step (hread m List.mem_cons_self) (hkeys m List.mem_cons_self) hnext
          (endsNumber_memberChars columns ms outer _),
        ih (fun n hm => hread n (List.mem_cons_of_mem _ hm))
          (fun n hm => hkeys n (List.mem_cons_of_mem _ hm)) (Nat.lt_of_succ_lt_succ hrounds)]
      rfl

/-! ## Values -/

/-- A key is shorter than its member. -/
theorem length_key_le (s : String) : s.toList.length + 2 ≤ (stringChars s).length := by
  have := length_le_flatMap_stringChar s.toList
  rw [stringChars, List.length_append, List.length_cons, List.length_singleton]
  omega

/-- A list is read back if each of its items is. -/
theorem readsBack_array {size depth columns : Nat} {vs : List Json}
    (hw : ∀ v ∈ vs, EachNumber Number.IsWord v)
    (hread : ∀ v ∈ vs, ReadsBack (value size depth) (columns + 2) v) (hsize : vs.length < size) :
    ReadsBack (value size (depth + 1)) columns (.array vs) := by
  intro rest _
  obtain ⟨size, rfl⟩ := Nat.exists_eq_add_of_le' (Nat.zero_lt_of_lt hsize)
  cases vs with
  | nil =>
    show value (size + 1) (depth + 1) ('[' :: ']' :: rest) = _
    rw [value_bracket, items]
    rfl
  | cons v vs =>
    obtain ⟨c, cs, hc, hspace, hend⟩ := chars_eq_cons (hw v List.mem_cons_self) (columns + 2)
    have hnext : nextItem true (newLine (columns + 2) ++ (chars (columns + 2) v ++
        (itemChars (columns + 2) vs ++ (newLine columns ++ ']' :: rest)))) =
        .ok (true, chars (columns + 2) v ++
          (itemChars (columns + 2) vs ++ (newLine columns ++ ']' :: rest))) := by
      rw [hc, List.cons_append]
      exact nextItem_first hspace hend _ _
    have hitems := items_itemChars (fun w hm => hw w (List.mem_cons_of_mem _ hm))
      (fun w hm => hread w (List.mem_cons_of_mem _ hm)) (Nat.lt_of_succ_lt_succ hsize)
      [v.sorted] columns rest
    rw [chars]
    simp only [List.append_assoc, List.cons_append, List.nil_append]
    rw [value_bracket, items_step (hread v List.mem_cons_self) hnext
      (endsNumber_itemChars _ vs columns _), hitems]
    rfl

/-- An object is read back, with its members in order, if the value of each of them is. -/
theorem readsBack_object {size depth columns : Nat} {ms : List (String × Json)}
    (hread : ∀ m ∈ ms, ReadsBack (value size depth) (columns + 2) m.2)
    (hkeys : ∀ m ∈ ms, m.1.toList.length < size) (hsize : ms.length < size) :
    ReadsBack (value size (depth + 1)) columns (.object ms) := by
  intro rest _
  obtain ⟨size, rfl⟩ := Nat.exists_eq_add_of_le' (Nat.zero_lt_of_lt hsize)
  cases ms with
  | nil =>
    show value (size + 1) (depth + 1) ('{' :: '}' :: rest) = _
    rw [value_brace, members]
    rfl
  | cons m ms =>
    have hnext := nextKey_first (columns + 2)
      (memberLine (columns + 2) m (memberChars (columns + 2) ms ++ (newLine columns ++ '}' :: rest)))
    have hmembers := members_memberChars (fun n hm => hread n (List.mem_cons_of_mem _ hm))
      (fun n hm => hkeys n (List.mem_cons_of_mem _ hm)) (Nat.lt_of_succ_lt_succ hsize)
      (putEntry m.1 m.2.sorted []) columns rest
    have hchars : chars columns (.object (m :: ms)) ++ rest =
        '{' :: (newLine (columns + 2) ++ '\"' :: memberLine (columns + 2) m
          (memberChars (columns + 2) ms ++ (newLine columns ++ '}' :: rest))) := by
      obtain ⟨k, v⟩ := m
      rw [chars, stringChars, memberLine]
      simp only [List.append_assoc, List.cons_append, List.nil_append]
    rw [hchars, value_brace, members_step (hread m List.mem_cons_self)
      (hkeys m List.mem_cons_self) hnext (endsNumber_memberChars _ ms columns _), hmembers]
    rfl

/-- What a written list consists of is shorter than the list. -/
theorem length_chars_array (columns : Nat) (vs : List Json) :
    (itemChars (columns + 2) vs).length ≤ (chars columns (.array vs)).length := by
  cases vs with
  | nil => exact Nat.zero_le _
  | cons v vs =>
    rw [chars, itemChars]
    simp only [List.length_append, List.length_cons]
    omega

/-- What a written object consists of is shorter than the object. -/
theorem length_chars_object (columns : Nat) (ms : List (String × Json)) :
    (memberChars (columns + 2) ms).length ≤ (chars columns (.object ms)).length := by
  cases ms with
  | nil => exact Nat.zero_le _
  | cons m ms =>
    obtain ⟨k, v⟩ := m
    rw [chars, memberChars]
    simp only [List.length_append, List.length_cons]
    omega

/-- A value is read back, as its sorted form, in front of anything that could not belong to
a number. -/
theorem value_chars {depth : Nat} {v : Json} (hn : Nested depth v)
    (hw : EachNumber Number.IsWord v) {columns size : Nat}
    (hsize : (chars columns v).length < size) : ReadsBack (value size depth) columns v := by
  induction hn generalizing columns with
  | null => exact fun rest _ => value_null size _ rest
  | @bool _ b =>
    intro rest _
    cases b with
    | true => exact value_true size _ rest
    | false => exact value_false size _ rest
  | @number _ n =>
    intro rest hrest
    cases hw with
    | number h =>
      cases n with
      | double d => exact absurd h id
      | whole n =>
        obtain ⟨c, cs, hcs, hc⟩ := numberChars_eq_cons n
        have hnumber := number_numberChars h hrest
        rw [hcs, List.cons_append] at hnumber
        rw [chars, hcs, List.cons_append, value_number hc, hnumber]
        rfl
  | @string _ s =>
    intro rest _
    rw [chars] at hsize ⊢
    have hlen := length_key_le s
    rw [stringChars, List.cons_append, List.cons_append, List.append_assoc,
      List.singleton_append, value_quote, string_stringChars (by omega)]
    rfl
  | @array depth vs _ ih =>
    have hlen := length_chars_array columns vs
    refine readsBack_array hw.of_array (fun v hv => ih v hv (hw.of_array v hv) ?_) ?_
    · have := length_chars_le_itemChars hv (columns + 2)
      omega
    · have := length_le_itemChars vs (columns + 2)
      omega
  | @object depth ms _ ih =>
    have hlen := length_chars_object columns ms
    refine readsBack_object (fun m hm => ih m hm (hw.of_object m hm) ?_) (fun m hm => ?_) ?_
    · have := length_member_le_memberChars hm (columns + 2)
      omega
    · have := length_member_le_memberChars hm (columns + 2)
      have := length_key_le m.1
      omega
    · have := length_le_memberChars ms (columns + 2)
      omega

/-- A reader that leaves only white space of a text has its result as that of the text. -/
theorem run_eq_ok {α : Type} {r : Reader α} {text : String} {a : α} {rest : List Char}
    (h : r (text.toList.length + 1) maxDepth text.toList = .ok (a, rest))
    (hend : skipSpace rest = []) : r.run text = .ok a := by
  unfold Reader.run
  dsimp only
  rw [h]
  dsimp only
  rw [hend]

/-- The text of a file is read back as the sorted form of the value. -/
theorem parse_file {v : Json} (hn : Nested maxDepth v) (hw : EachNumber Number.IsWord v) :
    parse v.file = .ok v.sorted := by
  have htext : v.file.toList = chars 0 v ++ ['\n'] := by
    rw [file, pretty, String.toList_append, String.toList_ofList]
    rfl
  have hlen : (chars 0 v).length < v.file.toList.length + 1 := by
    rw [htext, List.length_append]
    omega
  have hread := value_chars hn hw hlen ['\n'] (endsNumber_newLine 0 [])
  rw [← htext] at hread
  exact run_eq_ok hread rfl

end Json
end GlyphLine
