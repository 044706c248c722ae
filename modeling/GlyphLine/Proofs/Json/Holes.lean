import GlyphLine.Proofs.Json.Members

/-!
# Values with a hole

A list, a table or a record is written down with a hole, where an item, the value of a name or
the value of a field is to stand.  If it is read for one value in the hole, then it is read for
every value there that is read itself, and the results differ in one place only.

## 1.  Why one value in the hole is enough

What stands around the hole does not depend on what is put into it: the items beside it, the
other members with their keys, and the faults that they could have.  So from one value in the
hole we know that nothing else is wrong.

## 2.  Why nothing else changes

The changes that the members behind the hole make are those of other names, so they can as well
be made before the hole is filled (`builds_middle_iff`).  In a table this has to be asked for,
since a name that is written twice takes the later value; in a record it is so, since no field
may be there twice.  A record that is written as a list has its fields in a fixed order, and all
of them are different.

* `ReadsInto`: what a value with a hole is read as, depending on what is read in the hole.
* `ItemHole`, `EntryHole`, `FieldHole`: lists, tables and records with a hole.
* `ItemHole.on_list`, `EntryHole.on_table`, `FieldHole.on_record`: what they are read as.
-/

namespace GlyphLine
namespace Json

variable {α β γ σ : Type}

/-- If a value is read as `b`, then with this value in the hole of `c` the whole is read as what
`f` makes of `b`. -/
def ReadsInto (r : Reader α) (depth : Nat) (c : Tree → Tree) (q : Reader β) (inner : Nat)
    (f : β → α) : Prop :=
  ∀ v b, q.on inner v = .ok b → r.on depth (c v) = .ok (f b)

/-- A value with a hole can be put into a hole. -/
theorem ReadsInto.comp {r : Reader α} {q : Reader β} {p : Reader γ} {depth inner innermost : Nat}
    {c d : Tree → Tree} {f : β → α} {g : γ → β} (hc : ReadsInto r depth c q inner f)
    (hd : ReadsInto q inner d p innermost g) :
    ReadsInto r depth (fun v => c (d v)) p innermost fun b => f (g b) :=
  fun v b hb => hc (d v) (g b) (hd v b hb)

/-- What is read where null may stand, and is not null. -/
theorem Settled.exists_of_on_optional {r : Reader α} (h : Settled r) {t : Tree} (ht : t ≠ .null)
    {depth : Nat} {w : Option α} (hw : r.optional.on depth t = .ok w) :
    ∃ a, r.on depth t = .ok a ∧ w = some a := by
  rw [h.on_optional ht] at hw
  obtain ⟨a, ha, rfl⟩ := map_eq_ok_iff.1 hw
  exact ⟨a, ha, rfl⟩

/-- A value with a hole may stand where null may stand. -/
theorem ReadsInto.optional {r : Reader α} {q : Reader β} {depth inner : Nat} {c : Tree → Tree}
    {f : β → α} (h : Settled r) (hc : ∀ u, c u ≠ .null) (hread : ReadsInto r depth c q inner f) :
    ReadsInto r.optional depth c q inner fun b => some (f b) := by
  intro v b hb
  rw [h.on_optional (hc v), hread v b hb]
  rfl

/-! ## Lists -/

/-- A list with a hole behind `place` items. -/
inductive ItemHole (place : Nat) : (Tree → Tree) → Prop where
  | mk (before after : List (Place × Tree)) (p : Place) (last : Gap)
      (hplace : before.length = place) :
      ItemHole place fun u => .list (before ++ (p, u) :: after) last

theorem ItemHole.ne_null {place : Nat} {c : Tree → Tree} (hole : ItemHole place c) (u : Tree) :
    c u ≠ .null := by
  cases hole
  exact Tree.noConfusion

theorem mapM_cons_eq_ok {ε : Type} {f : α → Except ε β} {x : α} {xs : List α} {zs : List β} :
    (x :: xs).mapM f = .ok zs ↔ ∃ b cs, f x = .ok b ∧ xs.mapM f = .ok cs ∧ zs = b :: cs := by
  rw [List.mapM_cons]
  cases f x with
  | error e =>
    refine iff_of_false (fun h => by cases h) ?_
    rintro ⟨b, cs, hb, -⟩
    cases hb
  | ok b =>
    cases xs.mapM f with
    | error e =>
      refine iff_of_false (fun h => by cases h) ?_
      rintro ⟨_, cs, -, hcs, -⟩
      cases hcs
    | ok cs =>
      constructor
      · intro h
        exact ⟨b, cs, rfl, rfl, (Except.ok.inj h).symm⟩
      · rintro ⟨_, _, hb, hcs, rfl⟩
        cases hb
        cases hcs
        rfl

theorem length_of_mapM {ε : Type} {f : α → Except ε β} {xs : List α} {ys : List β}
    (h : xs.mapM f = .ok ys) : ys.length = xs.length := by
  induction xs generalizing ys with
  | nil =>
    cases h
    rfl
  | cons x xs ih =>
    obtain ⟨b, cs, -, hcs, rfl⟩ := mapM_cons_eq_ok.1 h
    rw [List.length_cons, List.length_cons, ih hcs]

theorem mapM_middle_eq_ok {ε : Type} {f : α → Except ε β} {xs ys : List α} {x : α}
    {zs : List β} :
    (xs ++ x :: ys).mapM f = .ok zs ↔
      ∃ as b cs, xs.mapM f = .ok as ∧ f x = .ok b ∧ ys.mapM f = .ok cs ∧ zs = as ++ b :: cs := by
  induction xs generalizing zs with
  | nil =>
    rw [List.nil_append, mapM_cons_eq_ok]
    constructor
    · rintro ⟨b, cs, hb, hcs, rfl⟩
      exact ⟨[], b, cs, rfl, hb, hcs, rfl⟩
    · rintro ⟨as, b, cs, has, hb, hcs, rfl⟩
      cases has
      exact ⟨b, cs, hb, hcs, rfl⟩
  | cons y xs ih =>
    rw [List.cons_append, mapM_cons_eq_ok]
    constructor
    · rintro ⟨a, _, ha, hrest, rfl⟩
      obtain ⟨as, b, cs, has, hb, hcs, rfl⟩ := ih.1 hrest
      exact ⟨a :: as, b, cs, mapM_cons_eq_ok.2 ⟨a, as, ha, has, rfl⟩, hb, hcs, rfl⟩
    · rintro ⟨_, b, cs, hfront, hb, hcs, rfl⟩
      obtain ⟨a, as, ha, has, rfl⟩ := mapM_cons_eq_ok.1 hfront
      exact ⟨a, as ++ b :: cs, ha, ih.2 ⟨as, b, cs, has, hb, hcs, rfl⟩, rfl⟩

/-- A list is read with every item in the hole that is read. -/
theorem ItemHole.on_list {r : Reader α} (h : Settled r) {place : Nat} {c : Tree → Tree}
    (hole : ItemHole place c) {depth : Nat} {u : Tree} {as : List α}
    (has : r.list.on (depth + 1) (c u) = .ok as) :
    ∃ bs cs, bs.length = place ∧ ReadsInto r.list (depth + 1) c r depth fun a => bs ++ a :: cs := by
  obtain ⟨before, after, p, last, rfl⟩ := hole
  rw [h.on_list] at has
  obtain ⟨bs, -, cs, hbs, -, hcs, -⟩ := mapM_middle_eq_ok.1 has
  refine ⟨bs, cs, length_of_mapM hbs, fun v a ha => ?_⟩
  rw [h.on_list]
  exact mapM_middle_eq_ok.2 ⟨bs, a, cs, hbs, ha, hcs, rfl⟩

/-! ## Members in the middle -/

/-- A change that commutes with all others can be made behind them. -/
theorem applied_comm {set : σ → σ} {cs : List (String × (σ → σ))}
    (h : ∀ c ∈ cs, ∀ s, c.2 (set s) = set (c.2 s)) (s : σ) :
    applied cs (set s) = set (applied cs s) := by
  induction cs generalizing s with
  | nil => rfl
  | cons c cs ih =>
    show applied cs (c.2 (set s)) = set (applied cs (c.2 s))
    rw [h c List.mem_cons_self, ih fun d hd => h d (List.mem_cons_of_mem _ hd)]

/-- A member changes what all other members build up, if its name is not changed behind it. -/
theorem builds_middle_iff {effect : Effect σ} (hcomm : Commuting effect)
    {before after : List (Quoted × Tree)} {m : Quoted × Tree} {key : String} {set : σ → σ}
    (hm : effect m = .ok (some (key, set))) (hkey : key ∉ changed effect after) {s a : σ} :
    Builds effect (before ++ m :: after) s a ↔
      (∀ n ∈ before ++ after, ∃ c, effect n = .ok c) ∧
        set (applied (changes effect (before ++ after)) s) = a := by
  have hbehind : ∀ c ∈ changes effect after, ∀ s, c.2 (set s) = set (c.2 s) := by
    intro c hc s
    obtain ⟨n, -, hn⟩ := exists_of_mem_changes hc
    have hne : c.1 ≠ key := fun heq => hkey (heq ▸ List.mem_map_of_mem hc)
    exact hcomm n m c.1 key c.2 set hn hm hne s
  have hresult : applied (changes effect (before ++ m :: after)) s =
      set (applied (changes effect (before ++ after)) s) := by
    rw [applied_middle hm, applied_comm hbehind, changes, changes, changes, List.filterMap_append,
      applied, applied, applied, List.foldl_append]
  have haccepted : (∀ n ∈ before ++ m :: after, ∃ c, effect n = .ok c) ↔
      ∀ n ∈ before ++ after, ∃ c, effect n = .ok c := by
    rw [List.forall_mem_append, List.forall_mem_cons, List.forall_mem_append]
    exact and_congr_right fun _ => and_iff_right ⟨_, hm⟩
  rw [← haccepted, ← hresult]
  exact ⟨fun h => ⟨h.accepted, h.result⟩, fun h => ⟨h.1, h.2⟩⟩

/-! ## Tables -/

/-- A table with a hole for the value of a name, which is not written again behind the hole. -/
inductive EntryHole (name : String) : (Tree → Tree) → Prop where
  | mk (before after : List (Label × Tree)) (l : Label) (last : Gap)
      (hkey : l.key.text = .ok name) (hlater : ∀ m ∈ after, m.1.key.text ≠ .ok name) :
      EntryHole name fun u => .object (before ++ (l, u) :: after) last

theorem EntryHole.ne_null {name : String} {c : Tree → Tree} (hole : EntryHole name c) (u : Tree) :
    c u ≠ .null := by
  cases hole
  exact Tree.noConfusion

theorem cores_middle (before after : List (Label × Tree)) (l : Label) (u : Tree) :
    Tree.cores (before ++ (l, u) :: after) =
      Tree.cores before ++ (l.key, u) :: Tree.cores after := by
  rw [Tree.cores, List.map_append, List.map_cons]
  rfl

/-- The name of an entry is the text of its key. -/
theorem text_of_entryEffect {r : Reader α} {depth : Nat} {m : Quoted × Tree} {key : String}
    {set : ByName α → ByName α} (h : entryEffect r depth m = .ok (some (key, set))) :
    m.1.text = .ok key := by
  unfold entryEffect at h
  split at h
  · cases h
  · next hkey =>
    obtain ⟨_, -, heq⟩ := map_eq_ok_iff.1 h
    cases heq
    exact hkey

theorem EntryHole.on_table {r : Reader α} (h : Settled r) {name : String} {c : Tree → Tree}
    (hole : EntryHole name c) {depth : Nat} {u : Tree} {t : ByName α}
    (ht : r.table.on (depth + 1) (c u) = .ok t) :
    (∃ a, r.on depth u = .ok a) ∧
      ∃ s : ByName α, ReadsInto r.table (depth + 1) c r depth fun a => s.insert name a := by
  obtain ⟨before, after, l, last, hkey, hlater⟩ := hole
  have heffect {v : Tree} {a : α} (ha : r.on depth v = .ok a) :
      entryEffect r depth (l.key, v) = .ok (some (name, (·.insert name a))) := by
    rw [entryEffect_eq (m := (l.key, v)) hkey, ha]
    rfl
  have hnot : name ∉ changed (entryEffect r depth) (Tree.cores after) := by
    intro hmem
    obtain ⟨c, hc, rfl⟩ := List.mem_map.1 hmem
    obtain ⟨n, hn, hset⟩ := exists_of_mem_changes hc
    obtain ⟨m, hm, rfl⟩ := List.mem_map.1 hn
    exact hlater m hm (text_of_entryEffect hset)
  rw [h.on_table_eq_ok, cores_middle] at ht
  have hread : ∃ a, r.on depth u = .ok a := by
    obtain ⟨c, hc⟩ := ht.accepted (l.key, u) (List.mem_append_right _ List.mem_cons_self)
    rw [entryEffect_eq (m := (l.key, u)) hkey] at hc
    obtain ⟨a, ha, -⟩ := map_eq_ok_iff.1 hc
    exact ⟨a, ha⟩
  obtain ⟨a, ha⟩ := hread
  have hcomm := commuting_entryEffect r depth
  obtain ⟨haccepted, -⟩ := (builds_middle_iff hcomm (heffect ha) hnot).1 ht
  refine ⟨⟨a, ha⟩, applied (changes (entryEffect r depth) (Tree.cores before ++ Tree.cores after))
    ByName.empty, fun v b hb => ?_⟩
  rw [h.on_table_eq_ok, cores_middle]
  exact (builds_middle_iff hcomm (heffect hb) hnot).2 ⟨haccepted, rfl⟩

/-! ## Records -/

/-- A record with a hole for the value of the field of the given name: behind its key, or, if the
record is written as a list, in the place of the field. -/
inductive FieldHole (names : List String) (name : String) : (Tree → Tree) → Prop where
  | member (before after : List (Label × Tree)) (l : Label) (last : Gap)
      (hkey : l.key.text = .ok name) :
      FieldHole names name fun u => .object (before ++ (l, u) :: after) last
  | item (before after : List (Place × Tree)) (p : Place) (last : Gap)
      (hplace : names[before.length]? = some name) :
      FieldHole names name fun u => .list (before ++ (p, u) :: after) last

theorem FieldHole.ne_null {names : List String} {name : String} {c : Tree → Tree}
    (hole : FieldHole names name c) (u : Tree) : c u ≠ .null := by
  cases hole with
  | member => exact Tree.noConfusion
  | item => exact Tree.noConfusion

section Record

variable {fields : List (Field Reader σ)} {name : String} {field : Field Reader σ}

theorem onItems_append {depth : Nat} {fs gs : List (Field Reader σ)} {ts us : List Tree}
    (h : ts.length = fs.length) (s : σ) :
    onItems depth (fs ++ gs) (ts ++ us) s =
      (onItems depth fs ts s).bind (onItems depth gs us) := by
  induction fs generalizing ts s with
  | nil =>
    obtain rfl := List.length_eq_zero_iff.1 h
    rfl
  | cons f fs ih =>
    cases ts with
    | nil => cases h
    | cons t ts =>
      rw [List.cons_append, List.cons_append, onItems, onItems]
      cases f.read.on depth t with
      | error e => rfl
      | ok set => exact ih (Nat.succ.inj h) (set s)

/-- A change that commutes with those of the fields can be made behind them. -/
theorem onItems_comm {depth : Nat} {set : σ → σ} {fs : List (Field Reader σ)}
    (h : ∀ f ∈ fs, ∀ set', Sets f set' → ∀ s, set' (set s) = set (set' s)) (ts : List Tree)
    (s : σ) : onItems depth fs ts (set s) = (onItems depth fs ts s).map set := by
  induction fs generalizing ts s with
  | nil =>
    cases ts with
    | nil => rfl
    | cons t ts => rfl
  | cons f fs ih =>
    cases ts with
    | nil => rfl
    | cons t ts =>
      rw [onItems, onItems]
      cases hset : f.read.on depth t with
      | error e => rfl
      | ok set' =>
        show onItems depth fs ts (set' (set s)) = (onItems depth fs ts (set' s)).map set
        rw [h f List.mem_cons_self set' ⟨depth, t, hset⟩,
          ih fun g hg => h g (List.mem_cons_of_mem _ hg)]

/-- An item in the place of a field sets this field, whatever the fields behind it are set to. -/
theorem onItems_middle {depth : Nat} {fs gs : List (Field Reader σ)}
    (hapart : ∀ g ∈ gs, SetApart field g) {ts us : List Tree} (h : ts.length = fs.length)
    {u : Tree} {set : σ → σ} (hset : field.read.on depth u = .ok set) (s : σ) :
    onItems depth (fs ++ field :: gs) (ts ++ u :: us) s =
      ((onItems depth fs ts s).bind (onItems depth gs us)).map set := by
  rw [onItems_append h]
  cases onItems depth fs ts s with
  | error e => rfl
  | ok s =>
    show onItems depth (field :: gs) (u :: us) s = (onItems depth gs us s).map set
    rw [onItems, hset]
    refine onItems_comm (fun g hg set' hset' s => ?_) us s
    exact (hapart g hg set set' ⟨depth, u, hset⟩ hset' s).symm

/-- The place of a field is where its name stands. -/
theorem exists_split_of_place (hnames : (fields.map Field.name).Nodup)
    (hfield : (fields.find? fun f => f.name == name) = some field) {place : Nat}
    (hplace : (fields.map Field.name)[place]? = some name) :
    ∃ fs gs, fs.length = place ∧ fields = fs ++ field :: gs := by
  rw [List.getElem?_map] at hplace
  obtain ⟨g, hg, hname⟩ := Option.map_eq_some_iff.1 hplace
  have hbeq : (field.name == name) = true := by simpa using List.find?_some hfield
  obtain rfl : g = field := List.inj_on_of_nodup_map hnames (List.mem_of_getElem? hg)
    (List.mem_of_find?_eq_some hfield)
    (hname.trans (beq_iff_eq.1 hbeq).symm)
  obtain ⟨hlt, heq⟩ := List.getElem?_eq_some_iff.1 hg
  refine ⟨fields.take place, fields.drop (place + 1), List.length_take_of_le hlt.le, ?_⟩
  rw [← heq, List.getElem_cons_drop, List.take_append_drop]

theorem FieldHole.on_member {type : String} {blank : σ}
    (hsettled : ∀ f ∈ fields, Settled f.read) (hapart : fields.Pairwise SetApart)
    (hfield : (fields.find? fun f => f.name == name) = some field) {l : Label}
    (hkey : l.key.text = .ok name) (before after : List (Label × Tree)) (last : Gap) {depth : Nat}
    {u : Tree} {a : σ}
    (ha : (Reader.record type fields blank).on (depth + 1)
      (.object (before ++ (l, u) :: after) last) = .ok a) :
    (∃ set, field.read.on depth u = .ok set) ∧
      ∃ s, ReadsInto (Reader.record type fields blank) (depth + 1)
        (fun v => .object (before ++ (l, v) :: after) last) field.read depth fun set => set s := by
  have heffect {v : Tree} {set : σ → σ} (hset : field.read.on depth v = .ok set) :
      fieldEffect fields depth (l.key, v) = .ok (some (name, set)) := by
    rw [fieldEffect_known (m := (l.key, v)) hkey hfield, hset]
    rfl
  have hcomm := commuting_fieldEffect hapart depth
  rw [on_record_eq_ok hsettled, cores_middle] at ha
  have hread : ∃ set, field.read.on depth u = .ok set := by
    obtain ⟨c, hc⟩ := ha.builds.accepted (l.key, u) (List.mem_append_right _ List.mem_cons_self)
    rw [fieldEffect_known (m := (l.key, u)) hkey hfield] at hc
    obtain ⟨set, hset, -⟩ := map_eq_ok_iff.1 hc
    exact ⟨set, hset⟩
  obtain ⟨set, hset⟩ := hread
  have hdistinct := ha.distinct
  rw [changed_middle (heffect hset)] at hdistinct
  have hnot : name ∉ changed (fieldEffect fields depth) (Tree.cores after) :=
    (List.nodup_cons.1 (List.nodup_append.1 hdistinct).2.1).1
  obtain ⟨haccepted, -⟩ := (builds_middle_iff hcomm (heffect hset) hnot).1 ha.builds
  refine ⟨⟨set, hset⟩, applied (changes (fieldEffect fields depth)
    (Tree.cores before ++ Tree.cores after)) blank, fun v set' hset' => ?_⟩
  rw [on_record_eq_ok hsettled, cores_middle]
  refine ⟨(builds_middle_iff hcomm (heffect hset') hnot).2 ⟨haccepted, rfl⟩, ?_⟩
  rw [changed_replace (heffect hset) (heffect hset')]
  exact ha.distinct

theorem FieldHole.on_item {type : String} {blank : σ}
    (hsettled : ∀ f ∈ fields, Settled f.read) (hapart : fields.Pairwise SetApart)
    (hnames : (fields.map Field.name).Nodup)
    (hfield : (fields.find? fun f => f.name == name) = some field)
    (before after : List (Place × Tree)) (p : Place) (last : Gap)
    (hplace : (fields.map Field.name)[before.length]? = some name) {depth : Nat} {u : Tree} {a : σ}
    (ha : (Reader.record type fields blank).on (depth + 1)
      (.list (before ++ (p, u) :: after) last) = .ok a) :
    (∃ set, field.read.on depth u = .ok set) ∧
      ∃ s, ReadsInto (Reader.record type fields blank) (depth + 1)
        (fun v => .list (before ++ (p, v) :: after) last) field.read depth fun set => set s := by
  obtain ⟨fs, gs, hlength, rfl⟩ := exists_split_of_place hnames hfield hplace
  have hbehind : ∀ g ∈ gs, SetApart field g := (List.pairwise_cons.1
    (List.pairwise_append.1 hapart).2.1).1
  have hlength' : (before.map Prod.snd).length = fs.length := by rw [List.length_map, hlength]
  have hitems (v : Tree) : (before ++ (p, v) :: after).map Prod.snd =
      before.map Prod.snd ++ v :: after.map Prod.snd := by
    rw [List.map_append, List.map_cons]
  rw [on_record_list hsettled, hitems] at ha
  have hread : ∃ set, field.read.on depth u = .ok set := by
    rw [onItems_append hlength'] at ha
    cases hfront : onItems depth fs (before.map Prod.snd) blank with
    | error e =>
      rw [hfront] at ha
      cases ha
    | ok s =>
      cases hset : field.read.on depth u with
      | error e =>
        rw [hfront, Except.bind, onItems, hset] at ha
        cases ha
      | ok set => exact ⟨set, rfl⟩
  obtain ⟨set, hset⟩ := hread
  rw [onItems_middle hbehind hlength' hset] at ha
  obtain ⟨s, hs, -⟩ := map_eq_ok_iff.1 ha
  refine ⟨⟨set, hset⟩, s, fun v set' hset' => ?_⟩
  rw [on_record_list hsettled, hitems, onItems_middle hbehind hlength' hset', hs]
  rfl

/-- A record is read with every value in the hole that is read for the field. -/
theorem FieldHole.on_record {type : String} {blank : σ} (hsettled : ∀ f ∈ fields, Settled f.read)
    (hapart : fields.Pairwise SetApart) (hnames : (fields.map Field.name).Nodup)
    (hfield : (fields.find? fun f => f.name == name) = some field) {c : Tree → Tree}
    (hole : FieldHole (fields.map Field.name) name c) {depth : Nat} {u : Tree} {a : σ}
    (ha : (Reader.record type fields blank).on (depth + 1) (c u) = .ok a) :
    (∃ set, field.read.on depth u = .ok set) ∧
      ∃ s, ReadsInto (Reader.record type fields blank) (depth + 1) c field.read depth
        fun set => set s := by
  cases hole with
  | member before after l last hkey =>
    exact FieldHole.on_member hsettled hapart hfield hkey before after last ha
  | item before after p last hplace =>
    exact FieldHole.on_item hsettled hapart hnames hfield before after p last hplace ha

end Record

end Json
end GlyphLine
