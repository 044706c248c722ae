import GlyphLine.ByName

/-!
# Entries written into a table

A table does not remember in which order entries with different names have been written into
it, and a function that is applied to all values of a table can as well be applied to each
value before it is written.

A table of results stands for a table of values, or for a failure.  Of several failures the one
at the least name counts, since the entries stand in the order of their names.

## Main statements

* `map_eq_ok_iff`, `map_eq_error_iff`: a result to which a function has been applied.
* `ByName.insert_comm`: entries with different names.
* `ByName.map_insert`: a function applied to all values.
* `ByName.find?_eq_some_iff`, `ByName.find?_map`: the value at a name.
* `ByName.mem_names_ofList`, `ByName.pairwise_lt_names`: the names of a table.
* `ByName.collect_eq_ok`, `ByName.collect_eq_error_iff`: what a table of results stands for.
-/

namespace GlyphLine

/-! ## Results and functions -/

/-- A result that has been passed through a function comes from a result. -/
theorem map_eq_ok_iff {ε α β : Type} {f : α → β} {x : Except ε α} {b : β} :
    Except.map f x = .ok b ↔ ∃ a, x = .ok a ∧ f a = b := by
  cases x with
  | error e =>
    constructor
    · intro h
      cases h
    · rintro ⟨a, h, -⟩
      cases h
  | ok a =>
    constructor
    · intro h
      exact ⟨a, rfl, Except.ok.inj h⟩
    · rintro ⟨a, h, rfl⟩
      rw [Except.ok.inj h]
      rfl

/-- A function that is applied to a result keeps its failures. -/
theorem map_eq_error_iff {ε α β : Type} {f : α → β} {x : Except ε α} {e : ε} :
    Except.map f x = .error e ↔ x = .error e := by
  cases x with
  | error e' =>
    constructor
    · intro h
      rw [Except.error.inj h]
    · intro h
      rw [Except.error.inj h]
      rfl
  | ok a =>
    constructor
    · intro h
      cases h
    · intro h
      cases h

/-! ## Entries in any order -/

/-- Entries with different names can be written in either order. -/
theorem putEntry_comm {α : Type} {a b : String} (h : a ≠ b) (x y : α)
    (entries : List (String × α)) :
    putEntry a x (putEntry b y entries) = putEntry b y (putEntry a x entries) := by
  have asymm {s t : String} (hlt : s < t) : ¬ t < s := fun hgt =>
    String.lt_irrefl s (String.lt_trans hlt hgt)
  induction entries with
  | nil =>
    by_cases hab : a < b
    · simp [putEntry, hab, asymm hab, h.symm]
    · simp [putEntry, hab, name_lt_of_not_lt hab h, h]
  | cons e rest ih =>
    obtain ⟨n, v⟩ := e
    -- both names are compared with the first one, and with each other where both stand before it
    grind [putEntry, String.lt_trans, name_lt_of_not_lt, String.lt_irrefl]

theorem map_putEntry {α β : Type} (f : String → α → β) (name : String) (value : α)
    (entries : List (String × α)) :
    (putEntry name value entries).map (fun e => (e.1, f e.1 e.2)) =
      putEntry name (f name value) (entries.map fun e => (e.1, f e.1 e.2)) := by
  induction entries with
  | nil => rfl
  | cons e rest ih =>
    obtain ⟨n, v⟩ := e
    rw [List.map_cons, putEntry, putEntry]
    split
    · rfl
    · split
      · rfl
      · rw [List.map_cons, ih]

namespace ByName

variable {α β : Type}

/-- Tables with the same entries are the same. -/
theorem ext_entries {s t : ByName α} (h : s.entries = t.entries) : s = t := by
  cases s
  cases t
  cases h
  rfl

theorem insert_comm {a b : String} (h : a ≠ b) (x y : α) (t : ByName α) :
    (t.insert b y).insert a x = (t.insert a x).insert b y :=
  ext_entries (putEntry_comm h x y t.entries)

theorem map_insert (f : String → α → β) (t : ByName α) (name : String) (value : α) :
    (t.insert name value).map f = (t.map f).insert name (f name value) :=
  ext_entries (map_putEntry f name value t.entries)

theorem map_map {γ : Type} (f : String → α → β) (g : String → β → γ) (t : ByName α) :
    (t.map f).map g = t.map fun name value => g name (f name value) :=
  ext_entries (List.map_map ..)

/-! ## Values at a name -/

/-- The value at a name is that of the entry: there is no other one with the name. -/
theorem find?_eq_some_iff {t : ByName α} {name : String} {v : α} :
    t.find? name = some v ↔ (name, v) ∈ t.entries := by
  rw [find?, List.lookup_eq_some_iff]
  constructor
  · rintro ⟨before, after, h, -⟩
    rw [h]
    exact List.mem_append_right before List.mem_cons_self
  · intro h
    obtain ⟨before, after, heq⟩ := List.append_of_mem h
    refine ⟨before, after, heq, fun e he => bne_iff_ne.mpr (Ne.symm (String.ne_of_lt ?_))⟩
    have hincreasing : Increasing (before ++ (name, v) :: after) := heq ▸ t.increasing
    exact (List.pairwise_append.mp hincreasing).2.2 e he _ List.mem_cons_self

@[simp] theorem names_map (f : String → α → β) (t : ByName α) : (t.map f).names = t.names := by
  rw [names, names, map, List.map_map]
  rfl

theorem find?_map (f : String → α → β) (t : ByName α) (name : String) :
    (t.map f).find? name = (t.find? name).map (f name) := by
  ext b
  rw [find?_eq_some_iff, Option.map_eq_some_iff, map, List.mem_map]
  constructor
  · rintro ⟨e, he, heq⟩
    obtain ⟨rfl, rfl⟩ := Prod.mk.inj heq
    exact ⟨e.2, find?_eq_some_iff.mpr he, rfl⟩
  · rintro ⟨a, ha, rfl⟩
    exact ⟨(name, a), find?_eq_some_iff.mp ha, rfl⟩

theorem mem_map_fst_putEntry {name s : String} {value : α} {entries : List (String × α)} :
    s ∈ (putEntry name value entries).map Prod.fst ↔ s = name ∨ s ∈ entries.map Prod.fst := by
  induction entries with
  | nil => exact List.mem_singleton.trans (or_iff_left List.not_mem_nil).symm
  | cons e rest ih =>
    obtain ⟨n, v⟩ := e
    rw [putEntry]
    split
    · exact List.mem_cons
    · split
      · next heq =>
        rw [List.map_cons, List.map_cons, List.mem_cons, List.mem_cons, heq, or_self_left]
      · rw [List.map_cons, List.map_cons, List.mem_cons, List.mem_cons, ih, or_left_comm]

/-- A name that is written into a table is added to its names. -/
theorem mem_names_insert {t : ByName α} {name s : String} {value : α} :
    s ∈ (t.insert name value).names ↔ s = name ∨ s ∈ t.names := mem_map_fst_putEntry

/-- The names of a table are those of the entries that it is made of. -/
theorem mem_names_ofList {entries : List (String × α)} {s : String} :
    s ∈ (ofList entries).names ↔ s ∈ entries.map Prod.fst := by
  have hfold (t : ByName α) : s ∈ (entries.foldl (fun t e => t.insert e.1 e.2) t).names ↔
      s ∈ entries.map Prod.fst ∨ s ∈ t.names := by
    induction entries generalizing t with
    | nil => exact (or_iff_right List.not_mem_nil).symm
    | cons e rest ih =>
      rw [List.foldl_cons, ih, mem_names_insert, List.map_cons, List.mem_cons, or_left_comm,
        or_assoc]
  exact (hfold empty).trans (or_iff_left List.not_mem_nil)

/-- The names of a table stand in increasing order. -/
theorem pairwise_lt_names (t : ByName α) : t.names.Pairwise (· < ·) :=
  increasing_iff_names.mp t.increasing

theorem mem_putEntry_self (name : String) (value : α) (entries : List (String × α)) :
    (name, value) ∈ putEntry name value entries := by
  induction entries with
  | nil => exact List.mem_cons_self
  | cons e rest ih =>
    rw [putEntry]
    split
    · exact List.mem_cons_self
    · split
      · exact List.mem_cons_self
      · exact List.mem_cons_of_mem _ ih

/-- An entry that has been written is found. -/
theorem find?_insert (t : ByName α) (name : String) (value : α) :
    (t.insert name value).find? name = some value :=
  find?_eq_some_iff.mpr (mem_putEntry_self name value t.entries)

/-! ## Tables of results -/

variable {ε : Type}

theorem collectEntries_eq_ok {entries : List (String × Except ε α)}
    {values : { values : List (String × α) // values.map Prod.fst = entries.map Prod.fst }}
    (h : collectEntries entries = .ok values) :
    entries = values.1.map fun e => (e.1, .ok e.2) := by
  induction entries with
  | nil => rw [← Except.ok.inj h, List.map_nil]
  | cons entry rest ih =>
    obtain ⟨name, r⟩ := entry
    cases r with
    | error e => cases h
    | ok a =>
      rw [collectEntries] at h
      split at h
      · cases h
      · next hrest => rw [← Except.ok.inj h, List.map_cons, ← ih hrest]

/-- The failure of a list of results is the first one. -/
theorem collectEntries_eq_error {entries : List (String × Except ε α)} {e : ε}
    (h : collectEntries entries = .error e) :
    ∃ before name after, entries = before ++ (name, .error e) :: after ∧
      ∀ entry ∈ before, ∀ f, entry.2 ≠ .error f := by
  induction entries with
  | nil => cases h
  | cons entry rest ih =>
    obtain ⟨name, r⟩ := entry
    cases r with
    | error f =>
      obtain rfl : f = e := Except.error.inj h
      exact ⟨[], name, rest, rfl, fun _ hmem => absurd hmem List.not_mem_nil⟩
    | ok a =>
      rw [collectEntries] at h
      split at h
      · next f hrest =>
        obtain rfl : f = e := Except.error.inj h
        obtain ⟨before, name', after, rfl, hbefore⟩ := ih hrest
        refine ⟨(name, .ok a) :: before, name', after, rfl, List.forall_mem_cons.mpr ⟨?_, hbefore⟩⟩
        intro f hf
        cases hf
      · cases h

/-- A table of results that stands for a table of values holds these values. -/
theorem collect_eq_ok {t : ByName (Except ε α)} {s : ByName α} (h : t.collect = .ok s) :
    t = s.map fun _ a => .ok a := by
  rw [collect] at h
  split at h
  · cases h
  · next hvalues =>
    rw [← Except.ok.inj h]
    exact ext_entries (collectEntries_eq_ok hvalues)

/-- A table of results stands for the failure at the least name that has one. -/
theorem collect_eq_error_iff {t : ByName (Except ε α)} {e : ε} :
    t.collect = .error e ↔ ∃ name, t.find? name = some (.error e) ∧
      ∀ other f, t.find? other = some (.error f) → name ≤ other := by
  have hleast : ∀ {e : ε}, t.collect = .error e → ∃ name, t.find? name = some (.error e) ∧
      ∀ other f, t.find? other = some (.error f) → name ≤ other := by
    intro e h
    have hentries : collectEntries t.entries = .error e := by
      rw [collect] at h
      split at h
      · next hf => exact hf.trans (congrArg _ (Except.error.inj h))
      · cases h
    obtain ⟨before, name, after, heq, hbefore⟩ := collectEntries_eq_error hentries
    have hincreasing : Increasing (before ++ (name, .error e) :: after) := heq ▸ t.increasing
    refine ⟨name, find?_eq_some_iff.mpr (heq ▸ List.mem_append_right before List.mem_cons_self),
      fun other f hother => ?_⟩
    -- the other entry is not in front of the first failure
    rcases List.mem_append.mp (heq ▸ find?_eq_some_iff.mp hother) with hmem | hmem
    · exact absurd rfl (hbefore _ hmem f)
    · rcases List.mem_cons.mp hmem with hsame | hmem
      · obtain rfl := (Prod.mk.inj hsame).1
        exact String.le_refl _
      · exact Std.le_of_lt (List.rel_of_pairwise_cons
          (List.pairwise_append.mp hincreasing).2.1 hmem)
  refine ⟨hleast, ?_⟩
  rintro ⟨name, hname, hmin⟩
  cases h : t.collect with
  | ok s =>
    rw [collect_eq_ok h, find?_map] at hname
    obtain ⟨a, -, ha⟩ := Option.map_eq_some_iff.mp hname
    cases ha
  | error e' =>
    obtain ⟨name', hname', hmin'⟩ := hleast h
    have hsame : name' = name :=
      String.le_antisymm (hmin' name e hname) (hmin name' e' hname')
    rw [hsame, hname] at hname'
    rw [Except.error.inj (Option.some_inj.mp hname')]

end ByName
end GlyphLine
