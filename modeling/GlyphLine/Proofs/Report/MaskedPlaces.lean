import GlyphLine.Proofs.Explain.Registered
import GlyphLine.Proofs.Json.Places

/-!
# What masking changes, place by place

Masking is made for reports, but any value can be masked, and it may hold anything: times inside
the tool of a report, values inside of findings that look like reports themselves, or a time that is
an object with times in it.  Two rules meet there.  A time is masked wherever it stands, and
whatever it was; the version of a tool is masked only if the value as a whole is a report.

So the masked places of a value are known beforehand: the places of its times, and that of its
version if it is a report.  What stands inside of a masked place is gone.  At all other places, the
*untouched* ones, everything but what stands further inside is as it was.  Which places these are
depends on the surface of the value only, and so masking gives a normal form: values that agree at
their untouched places become one value, and no others do.

## Main definitions

* `IsTime`, `IsReport`, `Untouched`: the steps to times, reports, and the untouched places.

## Main statements

* `at?_maskTimes`, `surface_at?_maskTool`: what the two rules do at a place.
* `surface_at?_mask`, `at?_mask_time`, `at?_mask_version`: what stands at the places of a value
  that is masked.
* `masked_places`: **what masking changes, and when two values are masked alike**.
-/

namespace GlyphLine
namespace Report

open Json (Step surface)

/-! ## Places of times and versions -/

/-- A step leads to a time. -/
def IsTime (s : Step) : Prop := s.key? = some "started_at" ∨ s.key? = some "finished_at"

instance (s : Step) : Decidable (IsTime s) := inferInstanceAs (Decidable (_ ∨ _))

/-- An object with the members of a report. -/
def IsReport (v : Json) : Prop :=
  ∃ ms, v = .object ms ∧ ∀ key ∈ ["schema", "tool", "verdict", "findings"], key ∈ ms.map Prod.fst

/-- The steps to the version of a tool. -/
def versionPlace (i j : Nat) : List Step := [.member i "tool", .member j "version"]

/-- A place that is neither masked nor inside of a masked one: no time is on the way to it nor, in
a report, the version of the tool. -/
structure Untouched (v : Json) (p : List Step) : Prop where
  timeless : ∀ s ∈ p, ¬ IsTime s
  unversioned : IsReport v → ∀ i j, ¬ versionPlace i j <+: p

theorem isTime_member_iff {n : Nat} {key : String} :
    IsTime (.member n key) ↔ isTimeKey key = true := by
  rw [IsTime, Step.key?, Option.some_inj, Option.some_inj, isTimeKey, Bool.or_eq_true, beq_iff_eq,
    beq_iff_eq]

theorem not_isTime_item (n : Nat) : ¬ IsTime (.item n) := by
  rintro (h | h) <;> cases h

/-- Whether a value is a report can be seen on its surface. -/
theorem isReport_of_surface {v w : Json} (h : surface v = surface w) (hv : IsReport v) :
    IsReport w := by
  obtain ⟨ms, rfl, hkeys⟩ := hv
  obtain ⟨ns, rfl, hsame⟩ := Json.surface_object_eq h
  exact ⟨ns, rfl, hsame ▸ hkeys⟩

theorem Untouched.of_surface {v w : Json} {p : List Step} (h : surface v = surface w)
    (hp : Untouched v p) : Untouched w p :=
  ⟨hp.timeless, fun hw => hp.unversioned (isReport_of_surface h.symm hw)⟩

theorem untouched_nil (v : Json) : Untouched v [] :=
  ⟨fun _ hs => absurd hs List.not_mem_nil,
    fun _ _ _ hprefix => absurd (List.prefix_nil.mp hprefix) (List.cons_ne_nil _ _)⟩

/-- A masked place is the first touched one on the way to every touched place. -/
theorem exists_masked_of_not_untouched {v : Json} {p : List Step} (h : ¬ Untouched v p) :
    (∃ q s r, p = (q ++ [s]) ++ r ∧ Untouched v q ∧ IsTime s) ∨
      ∃ i j r, p = versionPlace i j ++ r ∧ IsReport v := by
  induction p using List.reverseRecOn with
  | nil => exact absurd (untouched_nil v) h
  | append_singleton p s ih =>
    by_cases hp : Untouched v p
    · by_cases hs : IsTime s
      · exact .inl ⟨p, s, [], (List.append_nil _).symm, hp, hs⟩
      · -- the last step is no time, so the version is what it leads to
        by_cases hv : IsReport v ∧ ∃ i j, versionPlace i j <+: p ++ [s]
        · obtain ⟨hv, i, j, r, hr⟩ := hv
          exact .inr ⟨i, j, r, hr.symm, hv⟩
        · refine absurd ⟨fun t ht => ?_, fun hreport i j hprefix => hv ⟨hreport, i, j, hprefix⟩⟩ h
          rcases List.mem_append.mp ht with ht | ht
          · exact hp.timeless t ht
          · exact List.mem_singleton.mp ht ▸ hs
    · rcases ih hp with ⟨q, t, r, rfl, hq, ht⟩ | ⟨i, j, r, rfl, hv⟩
      · exact .inl ⟨q, t, r ++ [s], by rw [List.append_assoc], hq, ht⟩
      · exact .inr ⟨i, j, r ++ [s], by rw [List.append_assoc], hv⟩

/-! ## Members that are changed by their keys -/

/-- A member whose value is changed is found under the same key. -/
theorem bind_ofMember?_map (f : String → Json → Json) (key : String)
    (m : Option (String × Json)) :
    (m.map fun m => (m.1, f m.1 m.2)).bind (Json.ofMember? key) =
      (m.bind (Json.ofMember? key)).map (f key) := by
  cases m with
  | none => rfl
  | some m =>
    show Json.ofMember? key (m.1, f m.1 m.2) = (Json.ofMember? key m).map (f key)
    rw [Json.ofMember?, Json.ofMember?]
    by_cases hkey : m.1 = key
    · rw [if_pos hkey, if_pos hkey, hkey]
      rfl
    · rw [if_neg hkey, if_neg hkey]
      rfl

theorem step?_map (f : String → Json → Json) (ms : List (String × Json)) (n : Nat)
    (key : String) :
    (Json.object (ms.map fun m => (m.1, f m.1 m.2))).step? (.member n key) =
      ((Json.object ms).step? (.member n key)).map (f key) := by
  rw [Json.step?, Json.step?, List.getElem?_map]
  exact bind_ofMember?_map f key ms[n]?

theorem surface_map (f : String → Json → Json) (ms : List (String × Json)) :
    surface (.object (ms.map fun m => (m.1, f m.1 m.2))) = surface (.object ms) := by
  rw [surface, surface, List.map_map]
  rfl

/-! ## Times -/

theorem maskMembers_eq_map (ms : List (String × Json)) :
    maskMembers ms =
      ms.map fun m => (m.1, if isTimeKey m.1 then .string timeMask else maskTimes m.2) := by
  induction ms with
  | nil => rfl
  | cons m ms ih => rw [maskMembers, ih, List.map_cons]

theorem surface_maskTimes (v : Json) : surface (maskTimes v) = surface v := by
  cases v with
  | array vs =>
    rw [maskTimes, maskItems_eq_map, surface, surface, List.map_map]
    rfl
  | object ms =>
    rw [maskTimes, maskMembers_eq_map]
    exact surface_map (fun key w => if isTimeKey key then .string timeMask else maskTimes w) ms
  | _ => rfl

/-- A step leads to a masked time, or to a value with its times masked. -/
theorem step?_maskTimes (s : Step) (v : Json) :
    (maskTimes v).step? s =
      (v.step? s).map fun w => if IsTime s then .string timeMask else maskTimes w := by
  cases v with
  | array vs =>
    cases s with
    | item n =>
      rw [maskTimes, maskItems_eq_map, Json.step?, Json.step?, List.getElem?_map]
      refine congrArg (Option.map · _) (funext fun w => ?_)
      rw [if_neg (not_isTime_item n)]
    | member n key => rfl
  | object ms =>
    cases s with
    | item n => rfl
    | member n key =>
      rw [maskTimes, maskMembers_eq_map,
        step?_map (fun key w => if isTimeKey key then .string timeMask else maskTimes w)]
      refine congrArg (Option.map · _) (funext fun w => ?_)
      by_cases hkey : isTimeKey key = true
      · rw [if_pos hkey, if_pos (isTime_member_iff.mpr hkey)]
      · rw [if_neg hkey, if_neg (mt isTime_member_iff.mp hkey)]
  | _ => cases s <;> rfl

/-- A place without times on the way leads to a value with its times masked. -/
theorem at?_maskTimes {p : List Step} (h : ∀ s ∈ p, ¬ IsTime s) (v : Json) :
    (maskTimes v).at? p = (v.at? p).map maskTimes := by
  induction p generalizing v with
  | nil => rfl
  | cons s p ih =>
    rw [Json.at?_cons, Json.at?_cons, step?_maskTimes, Option.bind_map, Option.map_bind]
    refine congrArg (Option.bind _) (funext fun w => ?_)
    rw [Function.comp_apply, if_neg (h s List.mem_cons_self)]
    exact ih (fun t ht => h t (List.mem_cons_of_mem s ht)) w

/-! ## Versions -/

/-- A value with the members of one key changed. -/
def changeKey (key : String) (f : Json → Json) : Json → Json
  | .object ms => .object (ms.map fun m => (m.1, if m.1 = key then f m.2 else m.2))
  | v => v

theorem surface_changeKey (key : String) (f : Json → Json) (v : Json) :
    surface (changeKey key f v) = surface v := by
  cases v with
  | object ms => exact surface_map (fun k w => if k = key then f w else w) ms
  | _ => rfl

/-- A step leads to a changed value under the key, and else to the value that was there. -/
theorem step?_changeKey (key : String) (f : Json → Json) (s : Step) (v : Json) :
    (changeKey key f v).step? s =
      (v.step? s).map fun w => if s.key? = some key then f w else w := by
  cases s with
  | item n =>
    have hsame : (changeKey key f v).step? (.item n) = v.step? (.item n) := by cases v <;> rfl
    rw [hsame]
    exact Option.map_id'.symm
  | member n k =>
    cases v with
    | object ms =>
      rw [changeKey, step?_map (fun k w => if k = key then f w else w)]
      simp only [Step.key?, Option.some_inj]
    | _ => rfl

theorem map_if_key (key : String) (f : Json → Json) (ms : List (String × Json)) :
    (Json.object (ms.map fun m => if m.1 == key then (m.1, f m.2) else m)) =
      changeKey key f (.object ms) := by
  refine congrArg Json.object (List.map_congr_left fun m _ => ?_)
  by_cases hkey : m.1 = key
  · rw [if_pos (beq_iff_eq.mpr hkey), if_pos hkey]
  · rw [if_neg (mt beq_iff_eq.mp hkey), if_neg hkey]

theorem maskVersion_eq (v : Json) :
    maskVersion v = changeKey "version" (fun _ => .string versionMask) v := by
  cases v with
  | object ms => exact map_if_key "version" (fun _ => .string versionMask) ms
  | _ => rfl

theorem hasKey_iff {ms : List (String × Json)} {key : String} :
    hasKey ms key = true ↔ key ∈ ms.map Prod.fst := by
  rw [hasKey]
  induction ms with
  | nil => simp
  | cons m ms ih =>
    rw [List.lookup_cons, List.map_cons, List.mem_cons, ← ih]
    by_cases hkey : key = m.1
    · simp [hkey]
    · simp [hkey, beq_eq_false_iff_ne.mpr hkey]

/-- A report has the version of its tool masked. -/
theorem maskTool_of_isReport {v : Json} (h : IsReport v) :
    maskTool v = changeKey "tool" maskVersion v := by
  obtain ⟨ms, rfl, hkeys⟩ := h
  have hall : reportKeys.all (hasKey ms) = true :=
    List.all_eq_true.mpr fun key hkey => hasKey_iff.mpr (hkeys key hkey)
  rw [maskTool, if_pos hall, map_if_key]

/-- What is no report stays as it is. -/
theorem maskTool_of_not_isReport {v : Json} (h : ¬ IsReport v) : maskTool v = v := by
  cases v with
  | object ms =>
    refine if_neg fun hall => h ⟨ms, rfl, fun key hkey => ?_⟩
    exact hasKey_iff.mp (List.all_eq_true.mp hall key hkey)
  | _ => rfl

theorem surface_maskTool (v : Json) : surface (maskTool v) = surface v := by
  by_cases h : IsReport v
  · rw [maskTool_of_isReport h, surface_changeKey]
  · rw [maskTool_of_not_isReport h]

/-- Behind the version, and nowhere else, a tool is changed. -/
theorem surface_at?_maskVersion {p : List Step} (h : ∀ j, ¬ [.member j "version"] <+: p)
    (v : Json) : ((maskVersion v).at? p).map surface = (v.at? p).map surface := by
  rw [maskVersion_eq]
  cases p with
  | nil => exact congrArg some (surface_changeKey ..)
  | cons s p =>
    rw [Json.at?_cons, Json.at?_cons, step?_changeKey, Option.bind_map]
    refine congrArg (Option.map surface) (congrArg (Option.bind _) (funext fun w => ?_))
    rw [Function.comp_apply, if_neg]
    intro hkey
    cases s with
    | item n => cases hkey
    | member j key =>
      cases hkey
      exact h j ⟨p, rfl⟩

/-- Behind the version of the tool, and nowhere else, a report is changed. -/
theorem surface_at?_maskTool {v : Json} {p : List Step} (h : Untouched v p) :
    ((maskTool v).at? p).map surface = (v.at? p).map surface := by
  by_cases hv : IsReport v
  · rw [maskTool_of_isReport hv]
    cases p with
    | nil => exact congrArg some (surface_changeKey ..)
    | cons s p =>
      rw [Json.at?_cons, Json.at?_cons, step?_changeKey, Option.bind_map, Option.map_bind,
        Option.map_bind]
      refine congrArg (Option.bind _) (funext fun w => ?_)
      rw [Function.comp_apply, Function.comp_apply, Function.comp_apply]
      by_cases hkey : s.key? = some "tool"
      · rw [if_pos hkey]
        refine surface_at?_maskVersion (fun j hprefix => ?_) w
        cases s with
        | item n => cases hkey
        | member i key =>
          cases hkey
          exact h.unversioned hv i j (List.prefix_cons_inj _ |>.mpr hprefix)
      · rw [if_neg hkey]
  · rw [maskTool_of_not_isReport hv]

/-- In a report the version of the tool is masked. -/
theorem at?_maskTool_version {v : Json} (h : IsReport v) (i j : Nat) :
    (maskTool v).at? (versionPlace i j) =
      (v.at? (versionPlace i j)).map fun _ => .string versionMask := by
  have htool : (maskTool v).step? (.member i "tool") =
      (v.step? (.member i "tool")).map maskVersion := by
    rw [maskTool_of_isReport h, step?_changeKey]
    rfl
  have hversion (w : Json) : (maskVersion w).step? (.member j "version") =
      (w.step? (.member j "version")).map fun _ => .string versionMask := by
    rw [maskVersion_eq, step?_changeKey]
    rfl
  have hplace : versionPlace i j = [.member i "tool"] ++ [.member j "version"] := rfl
  rw [hplace, Json.at?_concat, Json.at?_concat, Json.at?_cons, Json.at?_cons, htool]
  cases v.step? (.member i "tool") with
  | none => rfl
  | some w => exact hversion w

/-! ## Masking -/

theorem surface_mask (v : Json) : surface (mask v) = surface v := by
  rw [mask, surface_maskTimes, surface_maskTool]

/-- At an untouched place a value keeps its surface. -/
theorem surface_at?_mask {v : Json} {p : List Step} (h : Untouched v p) :
    ((mask v).at? p).map surface = (v.at? p).map surface := by
  rw [mask, at?_maskTimes h.timeless, Option.map_map, ← surface_at?_maskTool h]
  exact congrArg (Option.map · _) (funext surface_maskTimes)

/-- Values with the same surface at a place have the same steps there. -/
theorem isSome_at?_concat_congr {v w : Json} {p : List Step}
    (h : (v.at? p).map surface = (w.at? p).map surface) (s : Step) :
    (v.at? (p ++ [s])).isSome = (w.at? (p ++ [s])).isSome := by
  rw [Json.at?_concat, Json.at?_concat]
  cases hv : v.at? p with
  | none =>
    rw [hv] at h
    rw [Option.map_eq_none_iff.mp h.symm]
  | some a =>
    rw [hv] at h
    obtain ⟨b, hb, hsurface⟩ := Option.map_eq_some_iff.mp h.symm
    rw [hb]
    exact Json.isSome_step?_congr hsurface.symm s

/-- What is put at two places is the same if there are such places in both or in neither. -/
theorem map_const_congr {a b : Option Json} (h : a.isSome = b.isSome) (c : Json) :
    (a.map fun _ => c) = b.map fun _ => c := by
  cases a with
  | none =>
    cases b with
    | none => rfl
    | some w => cases h
  | some v =>
    cases b with
    | none => cases h
    | some w => rfl

/-- A time that is in no masked place is masked. -/
theorem at?_mask_time {v : Json} {p : List Step} {s : Step} (h : Untouched v p) (hs : IsTime s) :
    (mask v).at? (p ++ [s]) = (v.at? (p ++ [s])).map fun _ => .string timeMask := by
  have hstep : (mask v).at? (p ++ [s]) =
      ((maskTool v).at? (p ++ [s])).map fun _ => .string timeMask := by
    rw [mask, Json.at?_concat, Json.at?_concat, at?_maskTimes h.timeless, Option.bind_map,
      Option.map_bind]
    refine congrArg (Option.bind _) (funext fun w => ?_)
    rw [Function.comp_apply, Function.comp_apply, step?_maskTimes]
    exact congrArg (Option.map · _) (funext fun _ => if_pos hs)
  rw [hstep]
  exact map_const_congr (isSome_at?_concat_congr (surface_at?_maskTool h) s) _

theorem timeless_versionPlace (i j : Nat) : ∀ s ∈ versionPlace i j, ¬ IsTime s := by
  intro s hs
  rcases List.mem_pair.mp hs with rfl | rfl
  · rw [isTime_member_iff]
    decide
  · rw [isTime_member_iff]
    decide

/-- The version of a report is masked. -/
theorem at?_mask_version {v : Json} (h : IsReport v) (i j : Nat) :
    (mask v).at? (versionPlace i j) =
      (v.at? (versionPlace i j)).map fun _ => .string versionMask := by
  rw [mask, at?_maskTimes (timeless_versionPlace i j), at?_maskTool_version h, Option.map_map]
  rfl

/-- The way to a version is untouched. -/
theorem untouched_tool (v : Json) (i : Nat) : Untouched v [.member i "tool"] := by
  refine ⟨fun s hs => timeless_versionPlace i 0 s (List.mem_singleton.mp hs ▸ List.mem_cons_self),
    fun _ i j hprefix => ?_⟩
  have hlength : 2 ≤ 1 := hprefix.length_le
  exact absurd hlength (by decide)

/-- Values that agree at their untouched places are masked alike. -/
theorem mask_eq_mask {v w : Json}
    (h : ∀ p, Untouched v p → (v.at? p).map surface = (w.at? p).map surface) :
    mask v = mask w := by
  have hroot : surface v = surface w := Option.some.inj (h [] (untouched_nil v))
  refine Json.ext_surface fun p => ?_
  by_cases hp : Untouched v p
  · rw [surface_at?_mask hp, surface_at?_mask (hp.of_surface hroot), h p hp]
  · -- at the masked place on the way both values have the same text, or nothing
    rcases exists_masked_of_not_untouched hp with ⟨q, s, r, rfl, hq, hs⟩ | ⟨i, j, r, rfl, hv⟩
    · rw [Json.at?_append (q ++ [s]), Json.at?_append (q ++ [s]), at?_mask_time hq hs,
        at?_mask_time (hq.of_surface hroot) hs,
        map_const_congr (isSome_at?_concat_congr (h q hq) s)]
    · have hsome : (v.at? (versionPlace i j)).isSome = (w.at? (versionPlace i j)).isSome :=
        isSome_at?_concat_congr (h _ (untouched_tool v i)) (.member j "version")
      rw [Json.at?_append, Json.at?_append, at?_mask_version hv,
        at?_mask_version (isReport_of_surface hroot hv), map_const_congr hsome]

theorem mask_eq_mask_iff {v w : Json} :
    mask v = mask w ↔ ∀ p, Untouched v p → (v.at? p).map surface = (w.at? p).map surface := by
  refine ⟨fun h p hp => ?_, mask_eq_mask⟩
  have hroot : surface v = surface w := by rw [← surface_mask v, h, surface_mask w]
  rw [← surface_at?_mask hp, h, surface_at?_mask (hp.of_surface hroot)]

/-- **What masking changes, and when two values are masked alike.**  At every untouched place a
value keeps its surface: its kind, and the scalar, the number of items or the keys that it has.
Every time that is not in a masked place becomes the text that stands for times, whatever it was,
and so does the version of the tool become that for versions if the value is a report.  Masking
again changes nothing, and two values are masked alike if and only if they agree at the untouched
places. -/
theorem masked_places (v : Json) :
    (∀ p, Untouched v p → ((mask v).at? p).map surface = (v.at? p).map surface) ∧
    (∀ p s, Untouched v p → IsTime s →
      (mask v).at? (p ++ [s]) = (v.at? (p ++ [s])).map fun _ => .string timeMask) ∧
    (IsReport v → ∀ i j, (mask v).at? (versionPlace i j) =
      (v.at? (versionPlace i j)).map fun _ => .string versionMask) ∧
    mask (mask v) = mask v ∧
    ∀ w, mask v = mask w ↔ ∀ p, Untouched v p → (v.at? p).map surface = (w.at? p).map surface := by
  refine ⟨fun p => surface_at?_mask, fun p s => at?_mask_time, at?_mask_version, ?_,
    fun w => mask_eq_mask_iff⟩
  refine mask_eq_mask fun p hp => surface_at?_mask ?_
  exact hp.of_surface (surface_mask v)

end Report
end GlyphLine
