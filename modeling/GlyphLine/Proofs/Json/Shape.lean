import GlyphLine.Json.Shape
import GlyphLine.Proofs.Json.Accepted

/-!
# Values taken apart by shape

A record that has been taken from a value has whatever property the blank record has and
every part keeps, whether the value is an object or a list.

## Main statements

* `list_eq_ok`: a list of values, each of which is of its shape.
* `forall_mem_of_list`: what every item of a list of a shape has.
* `invariant_of_record`: what every record of a shape has.
-/

namespace GlyphLine
namespace Json

open Shape

theorem string_eq_ok (s : String) : Shape.string (.string s) = .ok s := rfl

theorem bool_eq_ok (b : Bool) : Shape.bool (.bool b) = .ok b := rfl

/-! ## Lists -/

theorem mapM_map_eq_ok {α : Type} {read : Json → Except Fault α} {write : α → Json} {as : List α}
    (h : ∀ a ∈ as, read (write a) = .ok a) : (as.map write).mapM read = .ok as := by
  induction as with
  | nil => rfl
  | cons a as ih =>
    rw [List.map_cons, List.mapM_cons, h a List.mem_cons_self,
      ih fun b hb => h b (List.mem_cons_of_mem _ hb)]
    rfl

theorem forall_mem_of_mapM {α : Type} {read : Json → Except Fault α} {P : α → Prop}
    {vs : List Json} (h : ∀ v ∈ vs, ∀ a, read v = .ok a → P a) {as : List α}
    (hvs : vs.mapM read = .ok as) : ∀ a ∈ as, P a := by
  induction vs generalizing as with
  | nil =>
    cases hvs
    exact fun a ha => absurd ha List.not_mem_nil
  | cons w vs ih =>
    rw [List.mapM_cons] at hvs
    cases hw : read w with
    | error f =>
      rw [hw] at hvs
      cases hvs
    | ok b =>
      cases hrest : vs.mapM read with
      | error f =>
        rw [hw, hrest] at hvs
        cases hvs
      | ok bs =>
        rw [hw, hrest] at hvs
        cases hvs
        intro a ha
        rcases List.mem_cons.1 ha with rfl | ha
        · exact h w List.mem_cons_self a hw
        · exact ih (fun v hv => h v (List.mem_cons_of_mem _ hv)) hrest a ha

/-- A list of written things is read back if each of them is. -/
theorem list_eq_ok {α : Type} {shape : Shape α} {write : α → Json} {as : List α}
    (h : ∀ a ∈ as, shape (write a) = .ok a) : Shape.list shape (.array (as.map write)) = .ok as :=
  mapM_map_eq_ok h

/-- If every value of a list gives something that has a property, all that the list gives
has it. -/
theorem forall_mem_of_list {α : Type} {shape : Shape α} {Q : Json → Prop} {P : α → Prop}
    (h : ∀ v a, Q v → shape v = .ok a → P a) {v : Json} {as : List α}
    (hitems : ∀ vs, v = .array vs → ∀ w ∈ vs, Q w) (hv : Shape.list shape v = .ok as) :
    ∀ a ∈ as, P a := by
  unfold Shape.list at hv
  split at hv
  · next vs => exact forall_mem_of_mapM (fun w hm a ha => h w a (hitems vs rfl w hm) ha) hv
  · cases hv

/-! ## Records -/

variable {σ : Type}

/-- A member sets the part that it is for. -/
theorem setMembers_of {α : Type} {parts : List (Part σ)} {name : String} {shape : Shape α}
    {set : α → σ → σ}
    (hp : parts.find? (fun p => p.name == name) = some (Part.of name shape set)) {v : Json} {a : α}
    (ha : shape v = .ok a) (ms : List (String × Json)) (state : σ) :
    setMembers parts ((name, v) :: ms) state = setMembers parts ms (set a state) := by
  have hset : (Part.of name shape set).set v state = .ok (set a state) :=
    map_eq_ok_iff.2 ⟨a, ha, rfl⟩
  rw [setMembers, hp]
  dsimp only
  rw [hset]

/-- No part is missing if each one that needs a member has one. -/
theorem missingPart_eq_none {parts : List (Part σ)} {ms : List (String × Json)}
    (h : ∀ p ∈ parts, p.needsMember = true → p.name ∈ ms.map Prod.fst) :
    missingPart parts ms = none := by
  rw [missingPart, Option.map_eq_none_iff, List.find?_eq_none]
  intro p hp hmissing
  rw [Bool.and_eq_true] at hmissing
  obtain ⟨m, hm, hname⟩ := List.mem_map.1 (h p hp hmissing.1)
  have hnone := List.lookup_eq_none_iff.1 (Option.isNone_iff_eq_none.1 hmissing.2) m hm
  rw [← hname, bne_self_eq_false] at hnone
  exact Bool.false_ne_true hnone

/-- A record is taken from an object whose members set its parts and are all there. -/
theorem record_object {type : String} {parts : List (Part σ)} {blank state : σ}
    {ms : List (String × Json)} (hset : setMembers parts ms blank = .ok state)
    (hall : ∀ p ∈ parts, p.needsMember = true → p.name ∈ ms.map Prod.fst) :
    Shape.record type parts blank (.object ms) = .ok state := by
  rw [Shape.record, hset, missingPart_eq_none hall]

/-! ## What records of a shape have -/

variable {Q : Json → Prop} {I : σ → Prop}

/-- A part keeps a property of records when it is set from values of some kind. -/
def Part.Keeps (Q : Json → Prop) (I : σ → Prop) (p : Part σ) : Prop :=
  ∀ v state state', Q v → I state → p.set v state = .ok state' → I state'

theorem keeps_of {α : Type} {name : String} {shape : Shape α} {set : α → σ → σ}
    (h : ∀ v a state, Q v → shape v = .ok a → I state → I (set a state)) :
    (Part.of name shape set).Keeps Q I := by
  intro v state state' hq hi hset
  obtain ⟨a, ha, rfl⟩ := map_eq_ok_iff.1 hset
  exact h v a state hq ha hi

theorem keeps_optional {α : Type} {name : String} {shape : Shape α} {set : Option α → σ → σ}
    (h : ∀ o state, I state → I (set o state)) :
    (Part.optional name shape set).Keeps Q I := by
  intro v state state' _ hi hset
  obtain ⟨a, _, rfl⟩ := map_eq_ok_iff.1 hset
  exact h a state hi

theorem invariant_of_setMembers {parts : List (Part σ)} (hparts : ∀ p ∈ parts, p.Keeps Q I)
    {ms : List (String × Json)} (hq : ∀ m ∈ ms, Q m.2) {state state' : σ} (hi : I state)
    (h : setMembers parts ms state = .ok state') : I state' := by
  induction ms generalizing state with
  | nil =>
    cases h
    exact hi
  | cons m ms ih =>
    obtain ⟨key, v⟩ := m
    have hrest : ∀ m ∈ ms, Q m.2 := fun m hm => hq m (List.mem_cons_of_mem _ hm)
    rw [setMembers] at h
    split at h
    · exact ih hrest hi h
    · next p hp =>
      split at h
      · cases h
      · next hset =>
        refine ih hrest ?_ h
        exact hparts p (List.mem_of_find?_eq_some hp) v _ _ (hq _ List.mem_cons_self) hi hset

theorem invariant_of_setItems {length : Nat} {expected : String} {parts : List (Part σ)}
    (hparts : ∀ p ∈ parts, p.Keeps Q I) {vs : List Json} (hq : ∀ v ∈ vs, Q v)
    {state state' : σ} (hi : I state)
    (h : setItems length expected parts vs state = .ok state') : I state' := by
  induction parts generalizing vs state with
  | nil =>
    cases vs with
    | nil =>
      cases h
      exact hi
    | cons v vs => cases h
  | cons p parts ih =>
    have hrest : ∀ p ∈ parts, p.Keeps Q I := fun p hp => hparts p (List.mem_cons_of_mem _ hp)
    cases vs with
    | nil =>
      rw [setItems] at h
      split at h
      · cases h
      · exact ih hrest hq hi h
    | cons v vs =>
      rw [setItems] at h
      split at h
      · cases h
      · next hset =>
        refine ih hrest (fun w hm => hq w (List.mem_cons_of_mem _ hm)) ?_ h
        exact hparts p List.mem_cons_self v _ _ (hq v List.mem_cons_self) hi hset

/-- A record that is taken from a value has what the blank record has and all parts keep. -/
theorem invariant_of_record {type : String} {parts : List (Part σ)} {blank : σ}
    (hparts : ∀ p ∈ parts, p.Keeps Q I) (hblank : I blank) {v : Json} {state : σ}
    (hitems : ∀ vs, v = .array vs → ∀ w ∈ vs, Q w)
    (hmembers : ∀ ms, v = .object ms → ∀ m ∈ ms, Q m.2)
    (h : Shape.record type parts blank v = .ok state) : I state := by
  unfold Shape.record at h
  split at h
  · next ms =>
    split at h
    · cases h
    · next hset =>
      split at h
      · cases h
      · cases h
        exact invariant_of_setMembers hparts (hmembers ms rfl) hblank hset
  · next vs => exact invariant_of_setItems hparts (hitems vs rfl) hblank h
  · cases h

end Json
end GlyphLine
