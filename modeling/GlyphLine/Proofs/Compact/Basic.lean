import GlyphLine.Json.Printer

/-!
# JSON values in one line

A JSON value can be written in one line, without white space between its parts.  What is
then still open is how the characters of its strings are written, and the order of the
members of its objects.  Here are all such texts whose strings have printable characters
only, and whose numbers are whole.

The keys of an object are strings that are not too long: a reader that remembers where a
key may have begun forgets the place after `Key.greatest` characters.

* `Writes`: the ways to write a character.
* `Spelling`, `Key`: strings and keys, as they are written.
* `Compact`: values, as they are written.
* `Compact.chars`: the characters of a value.
-/

namespace GlyphLine

/-! ## Strings -/

/-- The ways to write a character in a string: as itself, behind a backslash, or as the four
digits of its code point, the last of which may be a small letter or a capital one. -/
inductive Writes (c : Char) : List Char → Prop where
  | plain (hquote : c ≠ '\"') (hslash : c ≠ '\\') : Writes c [c]
  | escaped (h : c = '\"' ∨ c = '\\' ∨ c = '/') : Writes c ['\\', c]
  | code {last : Char}
      (h : last = Json.hexChar (c.toNat % 16) ∨ last = (Json.hexChar (c.toNat % 16)).toUpper) :
      Writes c ['\\', 'u', '0', '0', Json.hexChar (c.toNat / 16), last]

/-- A printable character of the first hundred and twenty-eight, with one of the ways to
write it. -/
structure Glyph where
  char : Char
  chars : List Char
  printable : 0x20 ≤ char.toNat ∧ char.toNat ≤ 0x7E
  writes : Writes char chars

/-- A character written as itself, if it can be. -/
def Glyph.plain? (c : Char) : Option Glyph :=
  if h : (0x20 ≤ c.toNat ∧ c.toNat ≤ 0x7E) ∧ c ≠ '\"' ∧ c ≠ '\\' then
    some ⟨c, [c], h.1, .plain h.2.1 h.2.2⟩
  else none

/-- A string, as it is written. -/
structure Spelling where
  glyphs : List Glyph

namespace Spelling

/-- The string of the characters that can be written as themselves, written so. -/
def plain (cs : List Char) : Spelling := ⟨cs.filterMap Glyph.plain?⟩

/-- The characters that are meant. -/
def text (s : Spelling) : String := String.ofList (s.glyphs.map Glyph.char)

/-- The characters between the quotes. -/
def inner (s : Spelling) : List Char := s.glyphs.flatMap Glyph.chars

/-- The characters that are written. -/
def chars (s : Spelling) : List Char := '\"' :: (s.inner ++ ['\"'])

theorem length_chars (s : Spelling) : s.chars.length = s.inner.length + 2 := by
  rw [chars, List.length_cons, List.length_append, List.length_singleton]

/-- A character takes six characters at most. -/
theorem length_glyph_le (g : Glyph) : g.chars.length ≤ 6 := by
  obtain ⟨c, cs, _, hw⟩ := g
  cases hw with
  | plain => exact Nat.le_add_left 1 5
  | escaped => exact Nat.le_add_left 2 4
  | code => exact Nat.le_refl 6

theorem glyph_chars_ne_nil (g : Glyph) : g.chars ≠ [] := by
  obtain ⟨c, cs, _, hw⟩ := g
  cases hw with
  | plain => exact List.cons_ne_nil _ _
  | escaped => exact List.cons_ne_nil _ _
  | code => exact List.cons_ne_nil _ _

/-- A string has at most as many characters as it is written with. -/
theorem length_glyphs_le (s : Spelling) : s.glyphs.length ≤ s.inner.length := by
  have hglyphs : ∀ gs : List Glyph, gs.length ≤ (gs.flatMap Glyph.chars).length := by
    intro gs
    induction gs with
    | nil => exact Nat.le_refl 0
    | cons g gs ih =>
      have hpos := List.length_pos_iff.2 (glyph_chars_ne_nil g)
      rw [List.flatMap_cons, List.length_append, List.length_cons]
      omega
  exact hglyphs s.glyphs

/-- A string is written with at most six times the characters that it has. -/
theorem length_inner_le (s : Spelling) : s.inner.length ≤ 6 * s.text.toList.length := by
  have hglyphs : ∀ gs : List Glyph, (gs.flatMap Glyph.chars).length ≤ 6 * gs.length := by
    intro gs
    induction gs with
    | nil => exact Nat.le_refl 0
    | cons g gs ih =>
      have := length_glyph_le g
      rw [List.flatMap_cons, List.length_append, List.length_cons]
      omega
  rw [text, String.toList_ofList, List.length_map]
  exact hglyphs s.glyphs

end Spelling

/-- How many characters there may be between the quotes of a key. -/
def Key.greatest : Nat := 1022

/-- A key, as it is written. -/
structure Key where
  spelling : Spelling
  short : spelling.inner.length ≤ Key.greatest

namespace Key

/-- The characters that are meant. -/
def text (k : Key) : String := k.spelling.text

/-- The characters that are written. -/
def chars (k : Key) : List Char := k.spelling.chars

end Key

/-! ## Values -/

/-- A value, as it is written. -/
inductive Compact where
  | null
  | bool (b : Bool)
  | whole (n : Int)
  | string (s : Spelling)
  | list (items : List Compact)
  | map (entries : List (Key × Compact))

namespace Compact

/-- What holds of a list or an object if it holds of what stands inside holds of all values. -/
@[induction_eliminator, elab_as_elim]
theorem induct {P : Compact → Prop} (null : P .null) (bool : ∀ b, P (.bool b))
    (whole : ∀ n, P (.whole n)) (string : ∀ s, P (.string s))
    (list : ∀ vs, (∀ v ∈ vs, P v) → P (.list vs))
    (map : ∀ es, (∀ e ∈ es, P e.2) → P (.map es)) (v : Compact) : P v :=
  @Compact.rec P (fun vs => ∀ v ∈ vs, P v) (fun es => ∀ e ∈ es, P e.2) (fun e => P e.2)
    null bool whole string list map
    (fun _ h => absurd h List.not_mem_nil)
    (fun _ _ hv hvs _ h => (List.mem_cons.1 h).elim (fun heq => heq ▸ hv) (hvs _))
    (fun _ h => absurd h List.not_mem_nil)
    (fun _ _ he hes _ h => (List.mem_cons.1 h).elim (fun heq => heq ▸ he) (hes _))
    (fun _ _ h => h) v

/-- The comma in front of an item or an entry that is not the first. -/
def comma (first : Bool) : List Char := if first then [] else [',']

/-- A truth value. -/
def boolChars (b : Bool) : List Char :=
  if b then ['t', 'r', 'u', 'e'] else ['f', 'a', 'l', 's', 'e']

mutual

/-- The characters of a value. -/
def chars : Compact → List Char
  | .null => ['n', 'u', 'l', 'l']
  | .bool b => boolChars b
  | .whole n => Json.numberChars (.whole n)
  | .string s => s.chars
  | .list vs => '[' :: itemChars true vs
  | .map es => '{' :: entryChars true es

/-- The items of a list, and the bracket behind them. -/
def itemChars (first : Bool) : List Compact → List Char
  | [] => [']']
  | v :: vs => comma first ++ (v.chars ++ itemChars false vs)

/-- The entries of an object, and the brace behind them. -/
def entryChars (first : Bool) : List (Key × Compact) → List Char
  | [] => ['}']
  | (k, v) :: es => comma first ++ (k.chars ++ ':' :: (v.chars ++ entryChars false es))

end

/-! ## Lengths -/

/-- An item is no longer than the list that it stands in. -/
theorem length_item_le {v : Compact} {vs : List Compact} (h : v ∈ vs) (first : Bool) :
    v.chars.length ≤ (itemChars first vs).length := by
  induction vs generalizing first with
  | nil => exact absurd h List.not_mem_nil
  | cons w vs ih =>
    rw [itemChars, List.length_append, List.length_append]
    rcases List.mem_cons.1 h with rfl | h
    · omega
    · have := ih h false
      omega

/-- A key and its value are no longer than the object that they stand in. -/
theorem length_entry_le {k : Key} {v : Compact} {es : List (Key × Compact)} (h : (k, v) ∈ es)
    (first : Bool) : k.chars.length + v.chars.length ≤ (entryChars first es).length := by
  induction es generalizing first with
  | nil => exact absurd h List.not_mem_nil
  | cons e es ih =>
    obtain ⟨l, w⟩ := e
    rw [entryChars, List.length_append, List.length_append, List.length_cons, List.length_append]
    rcases List.mem_cons.1 h with heq | h
    · obtain ⟨rfl, rfl⟩ := Prod.mk.inj heq
      omega
    · have := ih h false
      omega

/-- An object has fewer entries than characters. -/
theorem length_entries_lt (es : List (Key × Compact)) (first : Bool) :
    es.length < (entryChars first es).length := by
  induction es generalizing first with
  | nil => exact Nat.lt_add_one 0
  | cons e es ih =>
    obtain ⟨k, v⟩ := e
    have := ih false
    rw [List.length_cons, entryChars, List.length_append, List.length_append, List.length_cons,
      List.length_append]
    omega

end Compact

/-! ## Entries one after the other -/

section Along

variable {σ ι : Type}

/-- Going through `is` from the state `s` on, where `next` says what comes out of each item,
every item is met in a state in which it is `Good`. -/
def Along (next : σ → ι → σ) (Good : σ → ι → Prop) : List ι → σ → Prop
  | [], _ => True
  | i :: is, s => Good s i ∧ Along next Good is (next s i)

theorem Along.of_forall {next : σ → ι → σ} {Good : σ → ι → Prop} {is : List ι} {s : σ}
    (h : ∀ i ∈ is, ∀ s, Good s i) : Along next Good is s := by
  induction is generalizing s with
  | nil => trivial
  | cons i is ih =>
    exact ⟨h i List.mem_cons_self s, ih fun j hj => h j (List.mem_cons_of_mem _ hj)⟩

/-- What follows from being good for the items that are met follows where they are met. -/
theorem Along.imp {next : σ → ι → σ} {P Q : σ → ι → Prop} {is : List ι} {s : σ}
    (h : Along next P is s) (himp : ∀ i ∈ is, ∀ s, P s i → Q s i) : Along next Q is s := by
  induction is generalizing s with
  | nil => trivial
  | cons i is ih =>
    exact ⟨himp i List.mem_cons_self s h.1,
      ih h.2 fun j hj => himp j (List.mem_cons_of_mem _ hj)⟩

/-- A record with one more field, and the names of the fields that it has got. -/
def nextField (name : ι → String) (set : ι → σ → σ) (s : σ × List String) (i : ι) :
    σ × List String :=
  (set i s.1, name i :: s.2)

theorem foldl_nextField (name : ι → String) (set : ι → σ → σ) (is : List ι)
    (s : σ × List String) :
    (is.foldl (nextField name set) s).1 = is.foldl (fun s i => set i s) s.1 := by
  induction is generalizing s with
  | nil => rfl
  | cons i is ih => exact ih _

/-- If all names are different, no field has been got already when it is met. -/
theorem along_nextField {name : ι → String} (set : ι → σ → σ) {is : List ι}
    (h : (is.map name).Nodup) (blank : σ) :
    Along (nextField name set) (fun s i => s.2.contains (name i) = false) is (blank, []) := by
  have hgot : ∀ (is : List ι) (s : σ) (got : List String), (is.map name).Nodup →
      (∀ i ∈ is, name i ∉ got) →
      Along (nextField name set) (fun s i => s.2.contains (name i) = false) is (s, got) := by
    intro is
    induction is with
    | nil => exact fun _ _ _ _ => trivial
    | cons i is ih =>
      intro s got hnames hnew
      rw [List.map_cons, List.nodup_cons] at hnames
      refine ⟨by simpa using hnew i List.mem_cons_self, ih _ _ hnames.2 fun j hj hmem => ?_⟩
      rcases List.mem_cons.1 hmem with heq | hmem
      · exact hnames.1 (heq ▸ List.mem_map_of_mem hj)
      · exact hnew j (List.mem_cons_of_mem _ hj) hmem
  exact hgot is blank [] h fun i _ => List.not_mem_nil

end Along

end GlyphLine
