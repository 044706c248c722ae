import GlyphLine.Json.Basic
import Mathlib.Data.List.Basic

/-!
# Places in a value

A place in a value is reached by steps, each of which leads to an item of an array or to a member
of an object.  A step says at which position the item or the member stands and, for a member, the
key that it has there; so a place is one value's place, also where an object has two members with
one key.

What stands at a place is known from its *surface*, in which everything further inside is left out:
a scalar is its own surface, of an array the surface has the length, and of an object the keys.

* `Json.at?`: the value at a place.
* `Json.surface`: the surface of a value.
* `Json.isSome_step?_congr`: the surface says which steps there are.
* `Json.ext_surface`: **a value is known from the surfaces at its places**.
-/

namespace GlyphLine
namespace Json

/-! ## Steps -/

/-- A step into a value: to the item of an array at a position, or to the member of an object at a
position, which has a key. -/
inductive Step where
  | item (n : Nat)
  | member (n : Nat) (key : String)

/-- The key to which a step leads. -/
def Step.key? : Step → Option String
  | .item _ => none
  | .member _ key => some key

/-- The value of a member, if it has the given key. -/
def ofMember? (key : String) (m : String × Json) : Option Json :=
  if m.1 = key then some m.2 else none

/-- The value to which a step leads. -/
def step? : Step → Json → Option Json
  | .item n, .array vs => vs[n]?
  | .member n key, .object ms => ms[n]?.bind (ofMember? key)
  | _, _ => none

/-- The value at a place. -/
def at? : List Step → Json → Option Json
  | [], v => some v
  | s :: p, v => (v.step? s).bind (at? p)

theorem at?_cons (s : Step) (p : List Step) (v : Json) :
    v.at? (s :: p) = (v.step? s).bind (at? p) := rfl

/-- A place behind a place. -/
theorem at?_append (p q : List Step) (v : Json) :
    v.at? (p ++ q) = (v.at? p).bind (at? q) := by
  induction p generalizing v with
  | nil => rfl
  | cons s p ih =>
    rw [List.cons_append, at?_cons, at?_cons, Option.bind_assoc]
    exact congrArg (Option.bind _) (funext ih)

/-- The place behind a place to which one more step leads. -/
theorem at?_concat (p : List Step) (s : Step) (v : Json) :
    v.at? (p ++ [s]) = (v.at? p).bind (step? s) := by
  rw [at?_append]
  refine congrArg (Option.bind _) (funext fun w => ?_)
  exact Option.bind_fun_some (w.step? s)

/-! ## Surfaces -/

/-- The surface of a value: null stands for everything inside. -/
def surface : Json → Json
  | .array vs => .array (vs.map fun _ => .null)
  | .object ms => .object (ms.map fun m => (m.1, .null))
  | v => v

theorem map_null_eq_iff {vs ws : List Json} :
    (vs.map fun _ => Json.null) = (ws.map fun _ => Json.null) ↔ vs.length = ws.length := by
  rw [List.map_const', List.map_const', List.replicate_inj]
  simp

theorem map_key_eq_iff {ms ns : List (String × Json)} :
    (ms.map fun m => (m.1, Json.null)) = (ns.map fun m => (m.1, Json.null)) ↔
      ms.map Prod.fst = ns.map Prod.fst := by
  constructor
  · intro h
    have := congrArg (List.map Prod.fst) h
    rwa [List.map_map, List.map_map] at this
  · intro h
    have := congrArg (List.map fun key => (key, Json.null)) h
    rwa [List.map_map, List.map_map] at this

/-- What has the surface of an array is an array, of the same length. -/
theorem surface_array_eq {vs : List Json} {w : Json} (h : surface (.array vs) = surface w) :
    ∃ ws, w = .array ws ∧ vs.length = ws.length := by
  cases w with
  | array ws => exact ⟨ws, rfl, map_null_eq_iff.mp (Json.array.inj h)⟩
  | _ => cases h

/-- What has the surface of an object is an object, with the same keys. -/
theorem surface_object_eq {ms : List (String × Json)} {w : Json}
    (h : surface (.object ms) = surface w) :
    ∃ ns, w = .object ns ∧ ms.map Prod.fst = ns.map Prod.fst := by
  cases w with
  | object ns => exact ⟨ns, rfl, map_key_eq_iff.mp (Json.object.inj h)⟩
  | _ => cases h

theorem isSome_ofMember? {key : String} {m : Option (String × Json)} :
    (m.bind (ofMember? key)).isSome = (m.map Prod.fst).any (· == key) := by
  cases m with
  | none => rfl
  | some m =>
    show (ofMember? key m).isSome = (m.1 == key)
    rw [ofMember?]
    by_cases hkey : m.1 = key <;> simp [hkey]

/-- Values with the same surface have the same steps. -/
theorem isSome_step?_congr {v w : Json} (h : surface v = surface w) (s : Step) :
    (v.step? s).isSome = (w.step? s).isSome := by
  cases v with
  | array vs =>
    obtain ⟨ws, rfl, hlength⟩ := surface_array_eq h
    cases s with
    | item n =>
      show vs[n]?.isSome = ws[n]?.isSome
      rw [Bool.eq_iff_iff]
      simp [hlength]
    | member n key => rfl
  | object ms =>
    obtain ⟨ns, rfl, hkeys⟩ := surface_object_eq h
    cases s with
    | item n => rfl
    | member n key =>
      simp only [step?]
      rw [isSome_ofMember?, isSome_ofMember?, ← List.getElem?_map, ← List.getElem?_map, hkeys]
  | _ =>
    -- a scalar is its own surface
    cases w <;> cases h
    rfl

/-! ## Values from their surfaces -/

/-- What holds of a list or an object if it holds of what stands inside holds of all values. -/
@[elab_as_elim]
theorem induct {P : Json → Prop} (null : P .null) (bool : ∀ b, P (.bool b))
    (number : ∀ n, P (.number n)) (string : ∀ s, P (.string s))
    (array : ∀ vs, (∀ v ∈ vs, P v) → P (.array vs))
    (object : ∀ ms, (∀ m ∈ ms, P m.2) → P (.object ms)) (v : Json) : P v :=
  @Json.rec P (fun vs => ∀ v ∈ vs, P v) (fun ms => ∀ m ∈ ms, P m.2) (fun m => P m.2) null bool
    number string (fun vs h => array vs h) (fun ms h => object ms h)
    (fun _ h => absurd h List.not_mem_nil)
    (fun _ _ hv hvs _ h => (List.mem_cons.1 h).elim (fun heq => heq ▸ hv) (hvs _))
    (fun _ h => absurd h List.not_mem_nil)
    (fun _ _ hm hms _ h => (List.mem_cons.1 h).elim (fun heq => heq ▸ hm) (hms _))
    (fun _ _ h => h) v

/-- **A value is known from the surfaces at its places.** -/
theorem ext_surface {v w : Json} (h : ∀ p, (v.at? p).map surface = (w.at? p).map surface) :
    v = w := by
  induction v using Json.induct generalizing w with
  | array vs ih =>
    obtain ⟨ws, rfl, hlength⟩ := surface_array_eq (Option.some.inj (h []))
    refine congrArg Json.array (List.ext_getElem hlength fun n hv hw => ?_)
    refine ih _ (List.getElem_mem hv) fun p => ?_
    have hstep := h (.item n :: p)
    simpa only [at?_cons, step?, List.getElem?_eq_getElem hv, List.getElem?_eq_getElem hw,
      Option.bind_some] using hstep
  | object ms ih =>
    obtain ⟨ns, rfl, hkeys⟩ := surface_object_eq (Option.some.inj (h []))
    have hlength : ms.length = ns.length := by simpa using congrArg List.length hkeys
    refine congrArg Json.object (List.ext_getElem hlength fun n hm hn => ?_)
    have hkey : ns[n].1 = ms[n].1 := by
      have := congrArg (·[n]?) hkeys
      simpa [hm, hn] using this.symm
    refine Prod.ext hkey.symm (ih _ (List.getElem_mem hm) fun p => ?_)
    have hstep := h (.member n ms[n].1 :: p)
    simpa only [at?_cons, step?, List.getElem?_eq_getElem hm, List.getElem?_eq_getElem hn,
      Option.bind_some, ofMember?, hkey, if_true] using hstep
  | _ =>
    have hroot := Option.some.inj (h [])
    cases w <;> cases hroot
    rfl

end Json
end GlyphLine
