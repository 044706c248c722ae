import GlyphLine.Json.Basic

/-!
# Values in canonical form

What a JSON text can be read back as depends on three things about a value: which numbers
it holds, how deep its lists and objects are nested, and whether the members of its
objects stand in order.  Reading puts the members of an object in order, so that a value
is read back as its *sorted* form, and a value whose members are in order as itself.

## Main definitions

* `EachNumber`: every number of a value is of some kind.
* `Nested`: lists and objects are nested at most so deep.
* `Ordered`: the members of every object stand in increasing order of their names.
* `sorted`: a value with the members of its objects in order, the last one of each name.

## Main statements

* `sorted_eq_self`: sorting does nothing to an ordered value.
-/

namespace GlyphLine

/-- An entry whose name is greater than all others goes to the end. -/
theorem putEntry_eq_append {α : Type} {name : String} {value : α} {entries : List (String × α)}
    (h : ∀ e ∈ entries, e.1 < name) :
    putEntry name value entries = entries ++ [(name, value)] := by
  induction entries with
  | nil => rfl
  | cons e rest ih =>
    obtain ⟨n, v⟩ := e
    have hlt : n < name := h (n, v) List.mem_cons_self
    have hnot : ¬ name < n := fun hn => String.lt_irrefl n (String.lt_trans hlt hn)
    have hne : name ≠ n := fun he => String.lt_irrefl n (he ▸ hlt)
    rw [putEntry, if_neg hnot, if_neg hne, ih fun e he => h e (List.mem_cons_of_mem _ he)]
    rfl

namespace Json

/-! ## Predicates -/

/-- Every number of the value is one of `P`. -/
inductive EachNumber (P : Number → Prop) : Json → Prop
  | null : EachNumber P .null
  | bool {b : Bool} : EachNumber P (.bool b)
  | number {n : Number} (h : P n) : EachNumber P (.number n)
  | string {s : String} : EachNumber P (.string s)
  | array {vs : List Json} (h : ∀ v ∈ vs, EachNumber P v) : EachNumber P (.array vs)
  | object {ms : List (String × Json)} (h : ∀ m ∈ ms, EachNumber P m.2) :
    EachNumber P (.object ms)

/-- At most `depth` lists and objects stand inside each other, the value itself included. -/
inductive Nested : (depth : Nat) → Json → Prop
  | null {depth : Nat} : Nested depth .null
  | bool {depth : Nat} {b : Bool} : Nested depth (.bool b)
  | number {depth : Nat} {n : Number} : Nested depth (.number n)
  | string {depth : Nat} {s : String} : Nested depth (.string s)
  | array {depth : Nat} {vs : List Json} (h : ∀ v ∈ vs, Nested depth v) :
    Nested (depth + 1) (.array vs)
  | object {depth : Nat} {ms : List (String × Json)} (h : ∀ m ∈ ms, Nested depth m.2) :
    Nested (depth + 1) (.object ms)

/-- The members of every object stand in increasing order of their names. -/
inductive Ordered : Json → Prop
  | null : Ordered .null
  | bool {b : Bool} : Ordered (.bool b)
  | number {n : Number} : Ordered (.number n)
  | string {s : String} : Ordered (.string s)
  | array {vs : List Json} (h : ∀ v ∈ vs, Ordered v) : Ordered (.array vs)
  | object {ms : List (String × Json)} (hi : Increasing ms) (h : ∀ m ∈ ms, Ordered m.2) :
    Ordered (.object ms)

theorem EachNumber.of_array {P : Number → Prop} {vs : List Json} (h : EachNumber P (.array vs)) :
    ∀ v ∈ vs, EachNumber P v := by
  cases h with
  | array h => exact h

theorem EachNumber.of_object {P : Number → Prop} {ms : List (String × Json)}
    (h : EachNumber P (.object ms)) : ∀ m ∈ ms, EachNumber P m.2 := by
  cases h with
  | object h => exact h

/-- Two things that hold of every number hold of it together. -/
theorem EachNumber.and {P Q : Number → Prop} {v : Json} (hp : EachNumber P v)
    (hq : EachNumber Q v) : EachNumber (fun n => P n ∧ Q n) v := by
  induction hp with
  | null => exact .null
  | bool => exact .bool
  | number h =>
    cases hq with
    | number hq => exact .number ⟨h, hq⟩
  | string => exact .string
  | array _ ih => exact .array fun v hv => ih v hv (hq.of_array v hv)
  | object _ ih => exact .object fun m hm => ih m hm (hq.of_object m hm)

theorem EachNumber.imp {P Q : Number → Prop} (himp : ∀ n, P n → Q n) {v : Json}
    (h : EachNumber P v) : EachNumber Q v := by
  induction h with
  | null => exact .null
  | bool => exact .bool
  | number h => exact .number (himp _ h)
  | string => exact .string
  | array _ ih => exact .array ih
  | object _ ih => exact .object ih

/-- A value that is nested so deep is nested deeper, as a bound. -/
theorem Nested.mono {d e : Nat} {v : Json} (h : Nested d v) (hle : d ≤ e) : Nested e v := by
  induction h generalizing e with
  | null => exact .null
  | bool => exact .bool
  | number => exact .number
  | string => exact .string
  | array _ ih =>
    obtain ⟨e, rfl⟩ := Nat.exists_eq_add_of_le' (Nat.le_trans (Nat.succ_pos _) hle)
    exact .array fun v hv => ih v hv (Nat.le_of_succ_le_succ hle)
  | object _ ih =>
    obtain ⟨e, rfl⟩ := Nat.exists_eq_add_of_le' (Nat.le_trans (Nat.succ_pos _) hle)
    exact .object fun m hm => ih m hm (Nat.le_of_succ_le_succ hle)

/-! ## The sorted form -/

mutual

/-- The value with the members of its objects in order.  Of several members with one name
the last one stays. -/
def sorted : Json → Json
  | .array vs => .array (sortedItems vs)
  | .object ms => .object (sortedMembers [] ms)
  | v => v

/-- The items of a list, sorted each. -/
def sortedItems : List Json → List Json
  | [] => []
  | v :: vs => v.sorted :: sortedItems vs

/-- The members of an object, sorted each and put in order after those of `done`. -/
def sortedMembers : (done : List (String × Json)) → List (String × Json) → List (String × Json)
  | done, [] => done
  | done, (k, v) :: ms => sortedMembers (putEntry k v.sorted done) ms

end

theorem sortedItems_eq_self {vs : List Json} (h : ∀ v ∈ vs, v.sorted = v) :
    sortedItems vs = vs := by
  induction vs with
  | nil => rfl
  | cons v vs ih =>
    rw [sortedItems, h v List.mem_cons_self, ih fun w hw => h w (List.mem_cons_of_mem _ hw)]

/-- Members that are in order, behind those already there, stay as they are. -/
theorem sortedMembers_eq_append {done ms : List (String × Json)} (hi : Increasing (done ++ ms))
    (h : ∀ m ∈ ms, m.2.sorted = m.2) : sortedMembers done ms = done ++ ms := by
  induction ms generalizing done with
  | nil => rw [sortedMembers, List.append_nil]
  | cons m ms ih =>
    obtain ⟨k, v⟩ := m
    have hlt : ∀ e ∈ done, e.1 < k := fun e he =>
      (List.pairwise_append.1 hi).2.2 e he (k, v) List.mem_cons_self
    have hv : v.sorted = v := h (k, v) List.mem_cons_self
    rw [sortedMembers, hv, putEntry_eq_append hlt, ih, List.append_assoc, List.singleton_append]
    · rwa [List.append_assoc, List.singleton_append]
    · exact fun m hm => h m (List.mem_cons_of_mem _ hm)

/-- An ordered value is its own sorted form. -/
theorem sorted_eq_self {v : Json} (h : Ordered v) : v.sorted = v := by
  induction h with
  | null => rfl
  | bool => rfl
  | number => rfl
  | string => rfl
  | array _ ih => rw [sorted, sortedItems_eq_self ih]
  | object hi _ ih =>
    rw [sorted, @sortedMembers_eq_append [] _ hi ih, List.nil_append]

theorem sortedItems_eq_map (vs : List Json) : sortedItems vs = vs.map sorted := by
  induction vs with
  | nil => rfl
  | cons v vs ih => rw [sortedItems, ih, List.map_cons]

end Json
end GlyphLine
