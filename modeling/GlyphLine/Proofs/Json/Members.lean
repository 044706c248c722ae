import GlyphLine.Proofs.ByName
import GlyphLine.Proofs.Json.Accepted
import GlyphLine.Proofs.Json.Settled
import Mathlib.Data.List.Perm.Basic
import Mathlib.Data.List.Nodup
import Mathlib.Data.List.Pairwise

/-!
# What the members of an object build up

A table or a record is built up member by member.  A member is of no account, or it changes what
has been built so far under the name of its key, and which change that is depends on the member
alone.  So the order of the members matters only as far as the changes do not commute, and those
of different fields commute.

A record has no field twice, which is checked while it is read.  A table may have a key twice,
and then the last one counts.

## Main definitions

* `fieldEffect`, `entryEffect`: what a member does to a record and to a table.
* `Builds`: what members build up.
* `RecordEdit`: ways to write the members of a record differently.

## Main statements

* `on_record_eq_ok`, `Settled.on_table_eq_ok`: what records and tables are read as.
* `Builds.perm`: the order of members with different keys does not matter.
* `RecordEdit.fillsRecord`: a record that is **written differently is the same record**.
-/

namespace GlyphLine
namespace Json

variable {α σ : Type}

/-! ## Effects -/

/-- What a member does: nothing, or a change under the name of its key; or a fault, if it is not
accepted. -/
abbrev Effect (σ : Type) : Type := Quoted × Tree → Except Fault (Option (String × (σ → σ)))

/-- The changes that accepted members make, in their order. -/
def changes (effect : Effect σ) (ms : List (Quoted × Tree)) : List (String × (σ → σ)) :=
  ms.filterMap fun m => (effect m).toOption.join

/-- The names under which members make changes. -/
def changed (effect : Effect σ) (ms : List (Quoted × Tree)) : List String :=
  (changes effect ms).map Prod.fst

/-- The changes one after the other. -/
def applied (cs : List (String × (σ → σ))) (s : σ) : σ := cs.foldl (fun s c => c.2 s) s

/-- All members are accepted, and from `s` on they build up `a`. -/
structure Builds (effect : Effect σ) (ms : List (Quoted × Tree)) (s a : σ) : Prop where
  accepted : ∀ m ∈ ms, ∃ c, effect m = .ok c
  result : applied (changes effect ms) s = a

section Cons

variable {effect : Effect σ} {m : Quoted × Tree} {ms : List (Quoted × Tree)}

theorem changes_cons_none (h : effect m = .ok none) :
    changes effect (m :: ms) = changes effect ms :=
  List.filterMap_cons_none (by rw [h]; rfl)

theorem changes_cons_some {key : String} {set : σ → σ} (h : effect m = .ok (some (key, set))) :
    changes effect (m :: ms) = (key, set) :: changes effect ms :=
  List.filterMap_cons_some (by rw [h]; rfl)

theorem changed_cons_none (h : effect m = .ok none) :
    changed effect (m :: ms) = changed effect ms := by
  rw [changed, changes_cons_none h, changed]

theorem changed_cons_some {key : String} {set : σ → σ} (h : effect m = .ok (some (key, set))) :
    changed effect (m :: ms) = key :: changed effect ms := by
  rw [changed, changes_cons_some h, List.map_cons, changed]

/-- A change comes from a member that makes it. -/
theorem exists_of_mem_changes {c : String × (σ → σ)} (h : c ∈ changes effect ms) :
    ∃ m ∈ ms, effect m = .ok (some c) := by
  obtain ⟨m, hm, hc⟩ := List.mem_filterMap.1 h
  refine ⟨m, hm, ?_⟩
  cases he : effect m with
  | error f =>
    rw [he] at hc
    cases hc
  | ok o =>
    rw [he] at hc
    exact congrArg Except.ok hc

theorem builds_nil {s a : σ} : Builds effect [] s a ↔ s = a :=
  ⟨fun h => h.result, fun h => ⟨fun _ hm => absurd hm List.not_mem_nil, h⟩⟩

theorem builds_cons_none (h : effect m = .ok none) {s a : σ} :
    Builds effect (m :: ms) s a ↔ Builds effect ms s a := by
  constructor
  · rintro ⟨hok, hres⟩
    exact ⟨fun n hn => hok n (List.mem_cons_of_mem _ hn), by rwa [changes_cons_none h] at hres⟩
  · rintro ⟨hok, hres⟩
    refine ⟨fun n hn => ?_, by rwa [changes_cons_none h]⟩
    rcases List.mem_cons.1 hn with rfl | hn
    · exact ⟨_, h⟩
    · exact hok n hn

theorem builds_cons_some {key : String} {set : σ → σ} (h : effect m = .ok (some (key, set)))
    {s a : σ} : Builds effect (m :: ms) s a ↔ Builds effect ms (set s) a := by
  constructor
  · rintro ⟨hok, hres⟩
    exact ⟨fun n hn => hok n (List.mem_cons_of_mem _ hn), by rwa [changes_cons_some h] at hres⟩
  · rintro ⟨hok, hres⟩
    refine ⟨fun n hn => ?_, by rwa [changes_cons_some h]⟩
    rcases List.mem_cons.1 hn with rfl | hn
    · exact ⟨_, h⟩
    · exact hok n hn

theorem not_builds_cons {f : Fault} (h : effect m = .error f) {s a : σ} :
    ¬ Builds effect (m :: ms) s a := by
  rintro ⟨hok, -⟩
  obtain ⟨c, hc⟩ := hok m List.mem_cons_self
  rw [h] at hc
  cases hc

end Cons

/-! ## Tables -/

/-- What a member does to a table whose values are for `r`: it writes an entry. -/
def entryEffect (r : Reader α) (depth : Nat) : Effect (ByName α) := fun m =>
  match m.1.text with
  | .error f => .error f
  | .ok key => (r.on depth m.2).map fun a => some (key, (·.insert key a))

theorem entryEffect_eq {r : Reader α} {depth : Nat} {m : Quoted × Tree} {key : String}
    (h : m.1.text = .ok key) :
    entryEffect r depth m = (r.on depth m.2).map fun a => some (key, (·.insert key a)) := by
  rw [entryEffect, h]

/-- A member changes a table by its effect. -/
theorem onMember_tableNext (r : Reader α) (depth : Nat) (table : ByName α) (m : Quoted × Tree) :
    onMember (tableNext r depth) table m =
      (entryEffect r depth m).map fun c => c.elim table fun c => c.2 table := by
  rw [onMember, entryEffect]
  cases m.1.text with
  | error f => rfl
  | ok key =>
    dsimp only
    rw [tableNext]
    cases r.on depth m.2 with
    | error f => rfl
    | ok a => rfl

/-- What an object is read as, as a table: all members are accepted, and build it up. -/
theorem Settled.on_table_eq_ok {r : Reader α} (h : Settled r) {depth : Nat}
    {ms : List (Label × Tree)} {last : Gap} {a : ByName α} :
    r.table.on (depth + 1) (.object ms last) = .ok a ↔
      Builds (entryEffect r depth) (Tree.cores ms) ByName.empty a := by
  rw [h.on_table]
  generalize Tree.cores ms = cs
  generalize ByName.empty = s
  induction cs generalizing s with
  | nil => exact ⟨fun hs => builds_nil.2 (Except.ok.inj hs), fun hs => congrArg _ (builds_nil.1 hs)⟩
  | cons m cs ih =>
    rw [List.foldlM_cons, onMember_tableNext]
    rcases heffect : entryEffect r depth m with f | _ | ⟨key, set⟩
    · exact iff_of_false (fun hs => by cases hs) (not_builds_cons heffect)
    · rw [builds_cons_none heffect]
      exact ih s
    · rw [builds_cons_some heffect]
      exact ih (set s)

/-! ## Records -/

/-- What a member does to a record: a member with a known key sets its field. -/
def fieldEffect (fields : List (Field Reader σ)) (depth : Nat) : Effect σ := fun m =>
  match m.1.text with
  | .error f => .error f
  | .ok key =>
    match fields.find? fun f => f.name == key with
    | none => .ok none
    | some field => (field.read.on depth m.2).map fun set => some (key, set)

theorem fieldEffect_unknown {fields : List (Field Reader σ)} {m : Quoted × Tree} {key : String}
    (hkey : m.1.text = .ok key) (hfield : (fields.find? fun f => f.name == key) = none)
    (depth : Nat) : fieldEffect fields depth m = .ok none := by
  rw [fieldEffect, hkey]
  dsimp only
  rw [hfield]

theorem fieldEffect_known {fields : List (Field Reader σ)} {m : Quoted × Tree} {key : String}
    {field : Field Reader σ} (hkey : m.1.text = .ok key)
    (hfield : (fields.find? fun f => f.name == key) = some field) (depth : Nat) :
    fieldEffect fields depth m = (field.read.on depth m.2).map fun set => some (key, set) := by
  rw [fieldEffect, hkey]
  dsimp only
  rw [hfield]

/-- Members of a record that are all accepted, have no field twice, and build up the record. -/
structure FillsRecord (fields : List (Field Reader σ)) (depth : Nat) (ms : List (Quoted × Tree))
    (blank a : σ) : Prop where
  builds : Builds (fieldEffect fields depth) ms blank a
  distinct : (changed (fieldEffect fields depth) ms).Nodup

theorem fillsRecord_cons_none {fields : List (Field Reader σ)} {depth : Nat}
    {m : Quoted × Tree} {cs : List (Quoted × Tree)} (h : fieldEffect fields depth m = .ok none)
    {s a : σ} : FillsRecord fields depth (m :: cs) s a ↔ FillsRecord fields depth cs s a := by
  constructor
  · rintro ⟨hbuilds, hdistinct⟩
    rw [changed_cons_none h] at hdistinct
    exact ⟨(builds_cons_none h).1 hbuilds, hdistinct⟩
  · rintro ⟨hbuilds, hdistinct⟩
    refine ⟨(builds_cons_none h).2 hbuilds, ?_⟩
    rw [changed_cons_none h]
    exact hdistinct

theorem fillsRecord_cons_some {fields : List (Field Reader σ)} {depth : Nat}
    {m : Quoted × Tree} {cs : List (Quoted × Tree)} {key : String} {set : σ → σ}
    (h : fieldEffect fields depth m = .ok (some (key, set))) {s a : σ} :
    FillsRecord fields depth (m :: cs) s a ↔
      FillsRecord fields depth cs (set s) a ∧ key ∉ changed (fieldEffect fields depth) cs := by
  constructor
  · rintro ⟨hbuilds, hdistinct⟩
    rw [changed_cons_some h] at hdistinct
    exact ⟨⟨(builds_cons_some h).1 hbuilds, hdistinct.of_cons⟩, (List.nodup_cons.1 hdistinct).1⟩
  · rintro ⟨⟨hbuilds, hdistinct⟩, hkey⟩
    refine ⟨(builds_cons_some h).2 hbuilds, ?_⟩
    rw [changed_cons_some h]
    exact List.nodup_cons.2 ⟨hkey, hdistinct⟩

section Step

variable {fields : List (Field Reader σ)} {depth : Nat} {m : Quoted × Tree}

/-- A member without effect changes nothing. -/
theorem onMember_fieldNext_none (h : fieldEffect fields depth m = .ok none)
    (state : σ × List String) : onMember (fieldNext depth fields) state m = .ok state := by
  unfold fieldEffect at h
  split at h
  · cases h
  · next key hkey =>
    split at h
    · next hfield =>
      rw [onMember, hkey]
      exact fieldNext_unknown hfield ..
    · obtain ⟨_, -, hres⟩ := map_eq_ok_iff.1 h
      cases hres

/-- A member of a known key sets its field, unless the field has been got already. -/
theorem onMember_fieldNext_some {key : String} {set : σ → σ}
    (h : fieldEffect fields depth m = .ok (some (key, set))) (s : σ) (got : List String) :
    onMember (fieldNext depth fields) (s, got) m =
      if got.contains key then .error (.duplicateField key) else .ok (set s, key :: got) := by
  unfold fieldEffect at h
  split at h
  · cases h
  · next hkey =>
    split at h
    · cases h
    · next field hfield =>
      obtain ⟨_, hvalue, hres⟩ := map_eq_ok_iff.1 h
      cases hres
      rw [onMember, hkey]
      refine (fieldNext_known hfield depth (s, got) m.2).trans ?_
      rw [hvalue]
      rfl

/-- A member that is not accepted is a fault, if not its own then that of a field that has been
got already. -/
theorem onMember_fieldNext_ne_ok {f : Fault} (h : fieldEffect fields depth m = .error f)
    (state state' : σ × List String) : onMember (fieldNext depth fields) state m ≠ .ok state' := by
  intro hs
  unfold fieldEffect at h
  split at h
  · next hkey =>
    rw [onMember, hkey] at hs
    cases hs
  · next hkey =>
    split at h
    · cases h
    · next field hfield =>
      rw [onMember, hkey] at hs
      have hknown := (fieldNext_known hfield depth state m.2).symm.trans hs
      -- that the field has been got is noticed before its value is read
      split at hknown
      · cases hknown
      · obtain ⟨set, hvalue, -⟩ := map_eq_ok_iff.1 hknown
        rw [hvalue] at h
        cases h

end Step

/-- The fields that have been got are remembered, and may not be got again. -/
theorem foldlM_fieldNext_eq_ok {fields : List (Field Reader σ)} {depth : Nat}
    {cs : List (Quoted × Tree)} {s a : σ} {got : List String} :
    (cs.foldlM (onMember (fieldNext depth fields)) (s, got)).map Prod.fst = .ok a ↔
      FillsRecord fields depth cs s a ∧
        List.Disjoint (changed (fieldEffect fields depth) cs) got := by
  induction cs generalizing s got with
  | nil =>
    constructor
    · intro hs
      exact ⟨⟨builds_nil.2 (Except.ok.inj hs), List.nodup_nil⟩, List.disjoint_nil_left got⟩
    · rintro ⟨hs, -⟩
      exact congrArg Except.ok (builds_nil.1 hs.builds)
  | cons m cs ih =>
    rw [List.foldlM_cons]
    rcases heffect : fieldEffect fields depth m with f | _ | ⟨key, set⟩
    · refine iff_of_false (fun hs => ?_) fun hs => not_builds_cons heffect hs.1.builds
      cases hstep : onMember (fieldNext depth fields) (s, got) m with
      | error f =>
        rw [hstep] at hs
        cases hs
      | ok state => exact onMember_fieldNext_ne_ok heffect _ _ hstep
    · rw [onMember_fieldNext_none heffect, fillsRecord_cons_none heffect, changed_cons_none heffect]
      exact ih
    · rw [onMember_fieldNext_some heffect, fillsRecord_cons_some heffect,
        changed_cons_some heffect, List.disjoint_cons_left]
      by_cases hgot : key ∈ got
      · rw [if_pos (List.contains_iff_mem.2 hgot)]
        exact iff_of_false (fun hs => by cases hs) fun hs => hs.2.1 hgot
      · rw [if_neg fun hs => hgot (List.contains_iff_mem.1 hs)]
        refine (@ih (set s) (key :: got)).trans ?_
        rw [List.disjoint_cons_right, and_assoc, and_iff_right hgot]

/-- What an object is read as, as a record. -/
theorem on_record_eq_ok {type : String} {fields : List (Field Reader σ)} {blank : σ}
    (h : ∀ f ∈ fields, Settled f.read) {depth : Nat} {ms : List (Label × Tree)} {last : Gap}
    {a : σ} :
    (Reader.record type fields blank).on (depth + 1) (.object ms last) = .ok a ↔
      FillsRecord fields depth (Tree.cores ms) blank a := by
  rw [on_record h, foldlM_fieldNext_eq_ok]
  exact and_iff_left (List.disjoint_nil_right _)

/-! ## The order of members -/

/-- Changes under different names can be made in either order. -/
def Commuting (effect : Effect σ) : Prop :=
  ∀ m m' key key' set set', effect m = .ok (some (key, set)) →
    effect m' = .ok (some (key', set')) → key ≠ key' → ∀ s, set (set' s) = set' (set s)

theorem changes_perm {effect : Effect σ} {ms ms' : List (Quoted × Tree)} (h : ms.Perm ms') :
    (changes effect ms).Perm (changes effect ms') :=
  h.filterMap _

theorem changed_perm {effect : Effect σ} {ms ms' : List (Quoted × Tree)} (h : ms.Perm ms') :
    (changed effect ms).Perm (changed effect ms') :=
  (changes_perm h).map _

/-- Members that make changes under different names build up the same in any order. -/
theorem Builds.perm {effect : Effect σ} (hcomm : Commuting effect)
    {ms ms' : List (Quoted × Tree)} {s a : σ} (h : Builds effect ms s a) (hp : ms.Perm ms')
    (hdistinct : (changed effect ms).Nodup) : Builds effect ms' s a := by
  refine ⟨fun m hm => h.accepted m (hp.mem_iff.2 hm), ?_⟩
  rw [← h.result]
  refine ((changes_perm hp).foldl_eq' (fun c hc c' hc' s => ?_) s).symm
  by_cases heq : c.1 = c'.1
  · rw [List.inj_on_of_nodup_map hdistinct hc hc' heq]
  · obtain ⟨m, -, hm⟩ := exists_of_mem_changes hc
    obtain ⟨m', -, hm'⟩ := exists_of_mem_changes hc'
    exact (hcomm m m' _ _ _ _ hm hm' heq s).symm

/-- Of an object that is a table with different keys, the order of the members does not matter. -/
theorem commuting_entryEffect (r : Reader α) (depth : Nat) : Commuting (entryEffect r depth) := by
  have entry {m : Quoted × Tree} {key : String} {set : ByName α → ByName α}
      (h : entryEffect r depth m = .ok (some (key, set))) : ∃ a, set = (·.insert key a) := by
    unfold entryEffect at h
    split at h
    · cases h
    · obtain ⟨a, -, heq⟩ := map_eq_ok_iff.1 h
      cases heq
      exact ⟨a, rfl⟩
  intro m m' key key' set set' hm hm' hne t
  obtain ⟨a, rfl⟩ := entry hm
  obtain ⟨a', rfl⟩ := entry hm'
  exact ByName.insert_comm hne a a' t

/-- A field can set a record in this way. -/
def Sets (f : Field Reader σ) (set : σ → σ) : Prop := ∃ depth t, f.read.on depth t = .ok set

/-- Two fields that can be set in either order. -/
def SetApart (f g : Field Reader σ) : Prop :=
  ∀ set set', Sets f set → Sets g set' → ∀ s, set (set' s) = set' (set s)

instance : Std.Symm (SetApart (σ := σ)) :=
  ⟨fun _ _ h set set' hset hset' s => (h set' set hset' hset s).symm⟩

/-- A change of a record sets the field of that name. -/
theorem exists_field_of_fieldEffect {fields : List (Field Reader σ)} {depth : Nat}
    {m : Quoted × Tree} {key : String} {set : σ → σ}
    (h : fieldEffect fields depth m = .ok (some (key, set))) :
    m.1.text = .ok key ∧ ∃ f ∈ fields, f.name = key ∧ Sets f set := by
  unfold fieldEffect at h
  split at h
  · cases h
  · next hkey =>
    split at h
    · cases h
    · next field hfield =>
      obtain ⟨set, hset, heq⟩ := map_eq_ok_iff.1 h
      cases heq
      have hname : (field.name == key) = true := by simpa using List.find?_some hfield
      exact ⟨hkey, field, List.mem_of_find?_eq_some hfield, beq_iff_eq.1 hname, depth, m.2, hset⟩

theorem commuting_fieldEffect {fields : List (Field Reader σ)} (h : fields.Pairwise SetApart)
    (depth : Nat) : Commuting (fieldEffect fields depth) := by
  intro m m' key key' set set' hm hm' hne
  obtain ⟨-, f, hf, rfl, hset⟩ := exists_field_of_fieldEffect hm
  obtain ⟨-, g, hg, rfl, hset'⟩ := exists_field_of_fieldEffect hm'
  exact h.forall hf hg (fun heq => hne (congrArg Field.name heq)) set set' hset hset'

theorem FillsRecord.perm {fields : List (Field Reader σ)} {depth : Nat}
    (hcomm : Commuting (fieldEffect fields depth)) {ms ms' : List (Quoted × Tree)} {s a : σ}
    (h : FillsRecord fields depth ms s a) (hp : ms.Perm ms') : FillsRecord fields depth ms' s a :=
  ⟨h.builds.perm hcomm hp h.distinct, (changed_perm hp).nodup_iff.1 h.distinct⟩

/-! ## Other members in a place -/

theorem applied_middle {effect : Effect σ} {before after : List (Quoted × Tree)}
    {m : Quoted × Tree} {key : String} {set : σ → σ} (h : effect m = .ok (some (key, set)))
    (s : σ) : applied (changes effect (before ++ m :: after)) s =
      applied (changes effect after) (set (applied (changes effect before) s)) := by
  rw [changes, List.filterMap_append, ← changes, ← changes, changes_cons_some h, applied,
    List.foldl_append]
  rfl

/-- A member in the place of another with the same key, the change of which is another one up to
`R`, leads to the same up to `R`. -/
theorem Builds.replace {effect : Effect σ} {R : σ → σ → Prop}
    (hkeep : ∀ m key set, effect m = .ok (some (key, set)) → ∀ s s', R s s' → R (set s) (set s'))
    {before after : List (Quoted × Tree)} {m m' : Quoted × Tree} {key : String} {set set' : σ → σ}
    (hm : effect m = .ok (some (key, set))) (hm' : effect m' = .ok (some (key, set')))
    (hset : ∀ s, R (set s) (set' s)) {s a : σ} (h : Builds effect (before ++ m :: after) s a) :
    ∃ a', Builds effect (before ++ m' :: after) s a' ∧ R a a' := by
  have behind (cs : List (Quoted × Tree)) (s s' : σ) (hs : R s s') :
      R (applied (changes effect cs) s) (applied (changes effect cs) s') := by
    have hkeep' : ∀ c ∈ changes effect cs, ∀ s s', R s s' → R (c.2 s) (c.2 s') := by
      intro c hc
      obtain ⟨n, -, hn⟩ := exists_of_mem_changes hc
      exact hkeep n c.1 c.2 hn
    generalize changes effect cs = l at hkeep'
    induction l generalizing s s' with
    | nil => exact hs
    | cons c l ih =>
      exact ih (c.2 s) (c.2 s') (hkeep' c List.mem_cons_self s s' hs)
        fun d hd => hkeep' d (List.mem_cons_of_mem _ hd)
  refine ⟨_, ⟨fun n hn => ?_, rfl⟩, ?_⟩
  · rcases List.mem_append.1 hn with hn | hn
    · exact h.accepted n (List.mem_append_left _ hn)
    · rcases List.mem_cons.1 hn with rfl | hn
      · exact ⟨_, hm'⟩
      · exact h.accepted n (List.mem_append_right _ (List.mem_cons_of_mem _ hn))
  · rw [← h.result, applied_middle hm, applied_middle hm']
    exact behind after _ _ (hset _)

theorem changed_middle {effect : Effect σ} {before after : List (Quoted × Tree)}
    {m : Quoted × Tree} {key : String} {set : σ → σ} (h : effect m = .ok (some (key, set))) :
    changed effect (before ++ m :: after) =
      changed effect before ++ key :: changed effect after := by
  rw [changed, changes, List.filterMap_append, List.map_append, ← changes, ← changes, ← changed,
    ← changed, changed_cons_some h]

theorem changed_replace {effect : Effect σ} {before after : List (Quoted × Tree)}
    {m m' : Quoted × Tree} {key : String} {set set' : σ → σ}
    (hm : effect m = .ok (some (key, set))) (hm' : effect m' = .ok (some (key, set'))) :
    changed effect (before ++ m' :: after) = changed effect (before ++ m :: after) := by
  rw [changed_middle hm, changed_middle hm']

/-- Keys that are written differently are different names of entries. -/
theorem nodup_changed_entryEffect {r : Reader α} {depth : Nat} {ms : List (Quoted × Tree)}
    (hok : ∀ m ∈ ms, ∃ c, entryEffect r depth m = .ok c)
    (h : (ms.map fun m => m.1.text).Nodup) : (changed (entryEffect r depth) ms).Nodup := by
  have htexts : (changed (entryEffect r depth) ms).map Except.ok = ms.map fun m => m.1.text := by
    clear h
    induction ms with
    | nil => rfl
    | cons m ms ih =>
      obtain ⟨c, hc⟩ := hok m List.mem_cons_self
      have hm : ∃ key set, m.1.text = .ok key ∧ entryEffect r depth m = .ok (some (key, set)) := by
        cases hkey : m.1.text with
        | error f =>
          rw [entryEffect, hkey] at hc
          cases hc
        | ok key =>
          rw [entryEffect_eq hkey] at hc ⊢
          obtain ⟨a, ha, -⟩ := map_eq_ok_iff.1 hc
          exact ⟨key, _, rfl, by rw [ha]; rfl⟩
      obtain ⟨key, set, hkey, heffect⟩ := hm
      rw [changed_cons_some heffect, List.map_cons, List.map_cons, hkey,
        ih fun n hn => hok n (List.mem_cons_of_mem _ hn)]
  exact List.Nodup.of_map _ (htexts ▸ h)

/-- A value in the place of another that is the same value up to `f` leads to a table with the
same values up to `f`. -/
theorem Builds.replace_entry {γ : Type} {r : Reader α} {depth : Nat} {f : String → α → γ}
    {before after : List (Quoted × Tree)} {q : Quoted} {t t' : Tree} {a : ByName α}
    (ht : ∀ v, r.on depth t = .ok v → ∃ v', r.on depth t' = .ok v' ∧ ∀ key, f key v = f key v')
    (h : Builds (entryEffect r depth) (before ++ (q, t) :: after) ByName.empty a) :
    ∃ a', Builds (entryEffect r depth) (before ++ (q, t') :: after) ByName.empty a' ∧
      a.map f = a'.map f := by
  obtain ⟨c, hc⟩ := h.accepted (q, t) (List.mem_append_right _ List.mem_cons_self)
  cases hkey : q.text with
  | error e =>
    rw [entryEffect, hkey] at hc
    cases hc
  | ok key =>
    have heffect (t : Tree) : entryEffect r depth (q, t) =
        (r.on depth t).map fun v => some (key, (·.insert key v)) := entryEffect_eq hkey
    rw [heffect] at hc
    obtain ⟨v, hv, -⟩ := map_eq_ok_iff.1 hc
    obtain ⟨v', hv', hsame⟩ := ht v hv
    refine Builds.replace (R := fun s s' => s.map f = s'.map f) (fun m name set hm s s' hs => ?_)
      (by rw [heffect, hv]; rfl) (by rw [heffect, hv']; rfl) (fun s => ?_) h
    · unfold entryEffect at hm
      split at hm
      · cases hm
      · obtain ⟨w, -, heq⟩ := map_eq_ok_iff.1 hm
        cases heq
        rw [ByName.map_insert, ByName.map_insert, hs]
    · rw [ByName.map_insert, ByName.map_insert, hsame key]

/-- A value in the place of another that sets its field to the same up to `R` leads to the same
record up to `R`. -/
theorem FillsRecord.replace {fields : List (Field Reader σ)} {depth : Nat} {R : σ → σ → Prop}
    (hkeep : ∀ f ∈ fields, ∀ set, Sets f set → ∀ s s', R s s' → R (set s) (set s'))
    {before after : List (Quoted × Tree)} {q : Quoted} {t t' : Tree} {key : String}
    {field : Field Reader σ} (hkey : q.text = .ok key)
    (hfield : (fields.find? fun f => f.name == key) = some field)
    (ht : ∀ set, field.read.on depth t = .ok set →
      ∃ set', field.read.on depth t' = .ok set' ∧ ∀ s, R (set s) (set' s)) {s a : σ}
    (h : FillsRecord fields depth (before ++ (q, t) :: after) s a) :
    ∃ a', FillsRecord fields depth (before ++ (q, t') :: after) s a' ∧ R a a' := by
  have heffect (t : Tree) := fieldEffect_known (m := (q, t)) hkey hfield depth
  obtain ⟨c, hc⟩ := h.builds.accepted (q, t) (List.mem_append_right _ List.mem_cons_self)
  rw [heffect] at hc
  obtain ⟨set, hset, -⟩ := map_eq_ok_iff.1 hc
  obtain ⟨set', hset', hsame⟩ := ht set hset
  have hm : fieldEffect fields depth (q, t) = .ok (some (key, set)) := by
    rw [heffect, hset]
    rfl
  have hm' : fieldEffect fields depth (q, t') = .ok (some (key, set')) := by
    rw [heffect, hset']
    rfl
  obtain ⟨a', ha', hR⟩ := h.builds.replace (R := R) (fun m name set hm s s' hs => by
    obtain ⟨-, f, hf, -, hset⟩ := exists_field_of_fieldEffect hm
    exact hkeep f hf set hset s s' hs) hm hm' hsame
  exact ⟨a', ⟨ha', by rw [changed_replace hm hm']; exact h.distinct⟩, hR⟩

/-! ## Records that are written differently -/

/-- Ways to write the members of a record with the given field names differently: a member whose
key is no field name is put anywhere, the members are put in another order, or a field that is
missing is written as null. -/
inductive RecordEdit (names : List String) :
    List (Quoted × Tree) → List (Quoted × Tree) → Prop where
  | insert {before after : List (Quoted × Tree)} {q : Quoted} {key : String} (t : Tree)
      (hkey : q.text = .ok key) (hunknown : key ∉ names) :
      RecordEdit names (before ++ after) (before ++ (q, t) :: after)
  | reorder {ms ms' : List (Quoted × Tree)} (h : ms.Perm ms') : RecordEdit names ms ms'
  | null {before after : List (Quoted × Tree)} {q : Quoted} {key : String}
      (hkey : q.text = .ok key) (hknown : key ∈ names)
      (habsent : ∀ m ∈ before ++ after, m.1.text ≠ .ok key) :
      RecordEdit names (before ++ after) (before ++ (q, .null) :: after)

theorem find?_eq_none_of_not_mem {fields : List (Field Reader σ)} {key : String}
    (h : key ∉ fields.map Field.name) : (fields.find? fun f => f.name == key) = none := by
  refine List.find?_eq_none.2 fun f hf hkey => h ?_
  exact List.mem_map.2 ⟨f, hf, beq_iff_eq.1 hkey⟩

theorem exists_find?_of_mem {fields : List (Field Reader σ)} {key : String}
    (h : key ∈ fields.map Field.name) :
    ∃ f ∈ fields, (fields.find? fun f => f.name == key) = some f := by
  obtain ⟨f, hf, rfl⟩ := List.mem_map.1 h
  cases hfind : fields.find? fun g => g.name == f.name with
  | none => exact absurd (beq_self_eq_true f.name) (List.find?_eq_none.1 hfind f hf)
  | some g => exact ⟨g, List.mem_of_find?_eq_some hfind, rfl⟩

/-- Null leaves every field of a blank record as it is. -/
def NullBlank (fields : List (Field Reader σ)) (blank : σ) : Prop :=
  ∀ f ∈ fields, ∀ depth, ∃ set, f.read.on depth .null = .ok set ∧ set blank = blank

/-- A record that is written differently is the same record. -/
theorem RecordEdit.fillsRecord {fields : List (Field Reader σ)} {blank : σ}
    (hcomm : fields.Pairwise SetApart) (hnull : NullBlank fields blank)
    {ms ms' : List (Quoted × Tree)} (h : RecordEdit (fields.map Field.name) ms ms') {depth : Nat}
    {a : σ} (hms : FillsRecord fields depth ms blank a) :
    FillsRecord fields depth ms' blank a := by
  have hperm {cs cs' : List (Quoted × Tree)} (hp : cs.Perm cs')
      (hcs : FillsRecord fields depth cs blank a) : FillsRecord fields depth cs' blank a :=
    hcs.perm (commuting_fieldEffect hcomm depth) hp
  cases h with
  | reorder hp => exact hperm hp hms
  | insert t hkey hunknown =>
    have heffect := fieldEffect_unknown (m := (_, t)) hkey (find?_eq_none_of_not_mem hunknown) depth
    exact hperm List.perm_middle.symm ((fillsRecord_cons_none heffect).2 hms)
  | @null before after q key hkey hknown habsent =>
    obtain ⟨field, hmem, hfield⟩ := exists_find?_of_mem hknown
    obtain ⟨set, hset, hblank⟩ := hnull field hmem depth
    have heffect : fieldEffect fields depth (q, .null) = .ok (some (key, set)) := by
      rw [fieldEffect_known (m := (q, .null)) hkey hfield, hset]
      rfl
    refine hperm List.perm_middle.symm ((fillsRecord_cons_some heffect).2 ⟨by rwa [hblank], ?_⟩)
    intro hchanged
    obtain ⟨c, hc, rfl⟩ := List.mem_map.1 hchanged
    obtain ⟨m, hm, hc⟩ := exists_of_mem_changes hc
    exact habsent m hm (exists_field_of_fieldEffect hc).1

end Json
end GlyphLine
