/-!
# Tables by name

A table gives values to names.  Its entries stand in increasing order of the names
(the order of their code points), so that a table has one form and a name one entry.
A name that is written again takes the later value.

* `putEntry`: an entry written into an increasing list of entries.
* `ByName`: the tables.
-/

namespace GlyphLine

/-- An entry written into an increasing list of entries, in place of the one with the
same name if there is one. -/
def putEntry {α : Type} (name : String) (value : α) : List (String × α) → List (String × α)
  | [] => [(name, value)]
  | (n, v) :: rest =>
    if name < n then (name, value) :: (n, v) :: rest
    else if name = n then (name, value) :: rest
    else (n, v) :: putEntry name value rest

/-- Entries in increasing order of their names. -/
def Increasing {α : Type} (entries : List (String × α)) : Prop :=
  entries.Pairwise fun a b => a.1 < b.1

theorem increasing_iff_names {α : Type} {entries : List (String × α)} :
    Increasing entries ↔ (entries.map Prod.fst).Pairwise (· < ·) := List.pairwise_map.symm

/-- Whether entries are increasing depends on their names only. -/
theorem increasing_of_names {α β : Type} {entries : List (String × α)}
    {values : List (String × β)} (h : values.map Prod.fst = entries.map Prod.fst)
    (hi : Increasing entries) : Increasing values :=
  increasing_iff_names.2 (h ▸ increasing_iff_names.1 hi)

theorem mem_putEntry {α : Type} {name : String} {value : α} {e : String × α}
    {entries : List (String × α)} (h : e ∈ putEntry name value entries) :
    e = (name, value) ∨ e ∈ entries := by
  induction entries with
  | nil => exact .inl (List.mem_singleton.1 h)
  | cons f rest ih =>
    obtain ⟨n, v⟩ := f
    rw [putEntry] at h
    split at h
    · simpa using h
    · split at h
      · rcases List.mem_cons.1 h with h | h
        · exact .inl h
        · exact .inr (List.mem_cons_of_mem _ h)
      · rcases List.mem_cons.1 h with h | h
        · exact .inr (h ▸ List.mem_cons_self)
        · exact (ih h).imp id (List.mem_cons_of_mem _)

theorem name_lt_of_not_lt {s t : String} (h : ¬ s < t) (hne : s ≠ t) : t < s :=
  Decidable.byContradiction fun hn => hne (String.le_antisymm (String.not_lt.1 hn)
    (String.not_lt.1 h))

theorem increasing_putEntry {α : Type} (name : String) (value : α)
    {entries : List (String × α)} (h : Increasing entries) :
    Increasing (putEntry name value entries) := by
  induction entries with
  | nil => exact List.pairwise_singleton ..
  | cons f rest ih =>
    obtain ⟨n, v⟩ := f
    have hall : ∀ {e}, e ∈ rest → n < e.1 := fun he => List.rel_of_pairwise_cons h he
    have hrest := h.of_cons
    rw [putEntry]
    split
    · next hlt =>
      refine List.pairwise_cons.2 ⟨fun e he => ?_, h⟩
      rcases List.mem_cons.1 he with he | he
      · exact he ▸ hlt
      · exact String.lt_trans hlt (hall he)
    · next hlt =>
      split
      · next heq =>
        subst heq
        exact List.pairwise_cons.2 ⟨fun e he => hall he, hrest⟩
      · next hne =>
        refine List.pairwise_cons.2 ⟨fun e he => ?_, ih hrest⟩
        rcases mem_putEntry he with he | he
        · exact he ▸ name_lt_of_not_lt hlt hne
        · exact hall he

/-- A table of values by name. -/
structure ByName (α : Type) where
  entries : List (String × α)
  increasing : Increasing entries

namespace ByName

variable {α : Type}

instance [DecidableEq α] : DecidableEq (ByName α) := fun s t =>
  if h : s.entries = t.entries then
    .isTrue (by cases s; cases t; simp only [ByName.mk.injEq]; exact h)
  else .isFalse fun e => h (congrArg ByName.entries e)

instance [Repr α] : Repr (ByName α) := ⟨fun t n => reprPrec t.entries n⟩

/-- The table without entries. -/
def empty : ByName α := ⟨[], List.Pairwise.nil⟩

instance : Inhabited (ByName α) := ⟨empty⟩

/-- The table with `value` at `name`. -/
def insert (t : ByName α) (name : String) (value : α) : ByName α :=
  ⟨putEntry name value t.entries, increasing_putEntry name value t.increasing⟩

/-- The table of a list of entries, of which the last one with a name counts. -/
def ofList (entries : List (String × α)) : ByName α :=
  entries.foldl (fun t e => t.insert e.1 e.2) empty

/-- The value at a name. -/
def find? (t : ByName α) (name : String) : Option α := t.entries.lookup name

/-- The names that have a value, in increasing order. -/
def names (t : ByName α) : List String := t.entries.map Prod.fst

/-- The names of a table are those at which a value is found. -/
theorem find?_isSome_iff {t : ByName α} {name : String} :
    (t.find? name).isSome = true ↔ name ∈ t.names := by
  rw [find?, names, List.lookup_isSome_iff, List.mem_map]
  exact exists_congr fun e => and_congr_right fun _ => beq_iff_eq.trans eq_comm

/-- Entries of which each value is a result, as a result of entries: the first failure,
or the entries with the values, under the same names. -/
def collectEntries {ε : Type} : (entries : List (String × Except ε α)) →
    Except ε { values : List (String × α) // values.map Prod.fst = entries.map Prod.fst }
  | [] => .ok ⟨[], rfl⟩
  | (_, .error e) :: _ => .error e
  | (name, .ok a) :: rest =>
    match collectEntries rest with
    | .error e => .error e
    | .ok ⟨values, h⟩ => .ok ⟨(name, a) :: values, by simp [h]⟩

/-- The values passed through `f`, under the same names. -/
def map {β : Type} (f : String → α → β) (t : ByName α) : ByName β :=
  ⟨t.entries.map fun e => (e.1, f e.1 e.2), increasing_of_names (by simp) t.increasing⟩

/-- A table of results as a result of a table: the failure at the least name that has
one, or the table of the values. -/
def collect {ε : Type} (t : ByName (Except ε α)) : Except ε (ByName α) :=
  match collectEntries t.entries with
  | .error e => .error e
  | .ok ⟨values, h⟩ => .ok ⟨values, increasing_of_names h t.increasing⟩

end ByName
end GlyphLine
