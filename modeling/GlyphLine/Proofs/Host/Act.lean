import GlyphLine.Host.Act
import GlyphLine.Host.Machine
import GlyphLine.Proofs.Host.Volume

/-!
# Acts on machines

What an act does is said by its result and the machine that it leaves.  Each act has one
lemma that says both; what is built from acts is read off these, and no lemma looks into
an act again.

## Main definitions

* `Act.on`: the result of an act and the machine that it leaves.
* `Machine.Framed`: the machines that differ in their volumes only, and in these by
  directories and the files at some places.

## Main statements

* `framed_createDirectories`: what making directories changes.
* `framed_write`, `read_of_write_ok`: what writing changes, and what can be read then.
-/

namespace GlyphLine

/-- The result of an act on a machine, and the machine that it leaves. -/
def Act.on {α : Type} (a : Act (StateM Machine) α) (s : Machine) : Except Failure α × Machine :=
  (ExceptT.run a).run s

namespace Act

variable {α β : Type} (s : Machine)

@[simp] theorem on_pure (a : α) : (pure a : Act (StateM Machine) α).on s = (.ok a, s) := rfl

theorem on_bind_ok {a : Act (StateM Machine) α} {f : α → Act (StateM Machine) β} {x : α}
    {t : Machine} (h : a.on s = (.ok x, t)) : (a >>= f).on s = (f x).on t := by
  show (ExceptT.bindCont f (a.on s).1).run (a.on s).2 = _
  rw [h]
  rfl

theorem on_bind_error {a : Act (StateM Machine) α} {f : α → Act (StateM Machine) β}
    {e : Failure} {t : Machine} (h : a.on s = (.error e, t)) :
    (a >>= f).on s = (.error e, t) := by
  show (ExceptT.bindCont f (a.on s).1).run (a.on s).2 = _
  rw [h]
  rfl

theorem on_lift (a : StateM Machine α) :
    (liftM a : Act (StateM Machine) α).on s = (.ok (a.run s).1, (a.run s).2) := rfl

theorem on_during_ok {a : StateM Machine (Except SystemError α)} {x : α} {t : Machine}
    (h : a.run s = (.ok x, t)) (message : String) : (during message a).on s = (.ok x, t) := by
  have hlift : (liftM a : Act (StateM Machine) (Except SystemError α)).on s =
      (.ok (.ok x), t) := by
    rw [on_lift, h]
  exact on_bind_ok s hlift

theorem on_during_error {a : StateM Machine (Except SystemError α)} {e : SystemError}
    {t : Machine} (h : a.run s = (.error e, t)) (message : String) :
    (during message a).on s = (.error ⟨message, [e.message]⟩, t) := by
  have hlift : (liftM a : Act (StateM Machine) (Except SystemError α)).on s =
      (.ok (.error e), t) := by
    rw [on_lift, h]
  exact on_bind_ok s hlift

/-- Messages do not change what a machine is left as. -/
theorem on_during_snd (a : StateM Machine (Except SystemError α)) (message : String) :
    ((during message a).on s).2 = (a.run s).2 := by
  cases h : a.run s with
  | mk r t =>
    cases r with
    | ok x => rw [on_during_ok s h]
    | error e => rw [on_during_error s h]

theorem run_eq_of_on_during {a : StateM Machine (Except SystemError α)} {message : String}
    {x : α} {t : Machine} (h : (during message a).on s = (.ok x, t)) : a.run s = (.ok x, t) := by
  cases hr : a.run s with
  | mk r u =>
    cases r with
    | ok y =>
      rw [on_during_ok s hr] at h
      rw [Except.ok.inj (Prod.mk.inj h).1, (Prod.mk.inj h).2]
    | error e =>
      rw [on_during_error s hr] at h
      cases h

/-- An act with a result has had one in each of its steps. -/
theorem exists_of_on_bind {a : Act (StateM Machine) α} {f : α → Act (StateM Machine) β} {y : β}
    {u : Machine} (h : (a >>= f).on s = (.ok y, u)) :
    ∃ x t, a.on s = (.ok x, t) ∧ (f x).on t = (.ok y, u) := by
  cases ha : a.on s with
  | mk r t =>
    cases r with
    | ok x =>
      rw [on_bind_ok s ha] at h
      exact ⟨x, t, rfl, h⟩
    | error e =>
      rw [on_bind_error s ha] at h
      cases h

/-- Failures that are told otherwise change nothing else. -/
theorem on_adapt (a : Act (StateM Machine) α) (f : Failure → Failure) :
    Act.on (a.adapt f) s = ((a.on s).1.mapError f, (a.on s).2) := by
  rfl

theorem on_print (text : String) :
    (print text : Act (StateM Machine) Unit).on s =
      (.ok (), { s with printed := s.printed ++ text }) := rfl

theorem on_ofExcept_ok {ε : Type} (failure : ε → Failure) (a : α) :
    (ofExcept failure (.ok a) : Act (StateM Machine) α).on s = (.ok a, s) := rfl

theorem on_ofExcept_error {ε : Type} (failure : ε → Failure) (e : ε) :
    (ofExcept failure (.error e) : Act (StateM Machine) α).on s = (.error (failure e), s) := rfl

theorem on_read_ok {path : String} {bytes : List UInt8} (h : s.read path = .ok bytes)
    (message : String) :
    (during message (Host.read path) : Act (StateM Machine) (List UInt8)).on s =
      (.ok bytes, s) := by
  refine on_during_ok s ?_ message
  show (s.read path, s) = _
  rw [h]

theorem on_read_error {path : String} {e : SystemError} (h : s.read path = .error e)
    (message : String) :
    (during message (Host.read path) : Act (StateM Machine) (List UInt8)).on s =
      (.error ⟨message, [e.message]⟩, s) := by
  refine on_during_error s ?_ message
  show (s.read path, s) = _
  rw [h]

/-- The text of a file that can be read and is one. -/
theorem on_readText_ok {path : String} {bytes : List UInt8} {text : String}
    (hread : s.read path = .ok bytes) (htext : Text.decode? bytes = some text)
    (message : String) :
    (readText message path : Act (StateM Machine) String).on s = (.ok text, s) := by
  rw [readText, on_bind_ok s (on_read_ok s hread message), htext]
  rfl

/-- A file that cannot be read, or is no text, is a failure that changes nothing. -/
theorem on_readText_error {path : String}
    (h : ∀ bytes, s.read path = .ok bytes → Text.decode? bytes = none) (message : String) :
    ∃ e, (readText message path : Act (StateM Machine) String).on s = (.error e, s) := by
  cases hread : s.read path with
  | error e => exact ⟨_, by rw [readText, on_bind_error s (on_read_error s hread message)]⟩
  | ok bytes =>
    refine ⟨⟨message, [notText]⟩, ?_⟩
    rw [readText, on_bind_ok s (on_read_ok s hread message), h bytes hread]
    rfl

end Act

/-! ## Changes of the volume -/

namespace Machine

/-- Nothing but the volume has changed, and in it only directories have come and the files
at `places` have changed. -/
structure Framed (places : List Place) (s t : Machine) : Prop where
  same : t = { s with volume := t.volume }
  frame : Volume.Frame places s.volume t.volume

theorem Framed.refl (places : List Place) (s : Machine) : Framed places s s :=
  ⟨rfl, .refl places s.volume⟩

theorem Framed.trans {ps qs : List Place} {s t u : Machine} (h : Framed ps s t)
    (h' : Framed qs t u) : Framed (ps ++ qs) s u := by
  refine ⟨?_, h.frame.trans h'.frame⟩
  rw [h'.same, h.same]

theorem Framed.mono {ps qs : List Place} {s t : Machine} (h : Framed ps s t)
    (hsub : ∀ q ∈ ps, q ∈ qs) : Framed qs s t :=
  ⟨h.same, h.frame.mono hsub⟩

theorem Framed.here_eq {ps : List Place} {s t : Machine} (h : Framed ps s t) :
    t.here = s.here := by
  rw [h.same]

theorem framed_during {α : Type} {places : List Place} {s : Machine}
    {a : StateM Machine (Except SystemError α)} (h : Framed places s (a.run s).2)
    (message : String) : Framed places s ((Act.during message a).on s).2 := by
  rw [Act.on_during_snd]
  exact h

/-- A second step changes what it changes beside what the first one has changed. -/
theorem framed_bind {α β : Type} {ps qs : List Place} {s : Machine} {a : Act (StateM Machine) α}
    {f : α → Act (StateM Machine) β} (h : Framed ps s (a.on s).2)
    (hf : ∀ x t, a.on s = (.ok x, t) → Framed qs t ((f x).on t).2) :
    Framed (ps ++ qs) s ((a >>= f).on s).2 := by
  cases ha : a.on s with
  | mk r t =>
    rw [ha] at h
    cases r with
    | ok x =>
      rw [Act.on_bind_ok s ha]
      exact h.trans (hf x t ha)
    | error e =>
      rw [Act.on_bind_error s ha]
      exact h.mono fun q hq => List.mem_append_left _ hq

theorem framed_change {places : List Place} {s : Machine} {r : Except SystemError Volume}
    (h : ∀ v, r = .ok v → Volume.Frame places s.volume v) :
    Framed places s ((change r).run s).2 := by
  cases r with
  | error e => exact .refl places s
  | ok v => exact ⟨rfl, h v rfl⟩

theorem framed_createDirectory (s : Machine) (path : String) :
    Framed [] s ((createDirectory path).run s).2 := by
  refine framed_change fun v hv => ?_
  rw [unlessDenied] at hv
  split at hv
  · cases hv
  · exact Volume.frame_createDirectory hv

theorem run_bind {α β : Type} (a : StateM Machine α) (f : α → StateM Machine β) (s : Machine) :
    (a >>= f).run s = (f (a.run s).1).run (a.run s).2 := rfl

/-- Looking whether there is a directory changes nothing. -/
theorem framed_createOne {s t : Machine} (h : Framed [] s t) (path : String)
    (result : Except SystemError Unit) :
    Framed [] s ((Act.createOne path result : StateM Machine _).run t).2 := by
  cases result with
  | ok _ => exact h
  | error _ => exact h

theorem framed_createWithin (depth : Nat) (path : String) (s : Machine) :
    Framed [] s ((Act.createWithin depth path : StateM Machine _).run s).2 := by
  induction depth generalizing path s with
  | zero =>
    unfold Act.createWithin
    split
    · exact .refl [] s
    · have hmade : Framed [] s ((Host.createDirectory path : StateM Machine _).run s).2 :=
        framed_createDirectory s path
      rw [run_bind]
      split
      · exact hmade
      · exact framed_createOne hmade path _
  | succ depth ih =>
    unfold Act.createWithin
    split
    · exact .refl [] s
    · have hmade : Framed [] s ((Host.createDirectory path : StateM Machine _).run s).2 :=
        framed_createDirectory s path
      rw [run_bind]
      split
      · split
        · next d parent hdepth _ =>
          -- the directories above are made first, and then this one once more
          obtain rfl : depth = d := Nat.succ.inj hdepth
          have habove := hmade.trans (ih parent _)
          rw [run_bind]
          split
          · rw [run_bind]
            refine framed_createOne ?_ path _
            exact habove.trans (framed_createDirectory _ path)
          · exact habove
        · exact hmade
      · exact framed_createOne hmade path _

/-- Making a directory with those that it stands in adds directories only. -/
theorem framed_createDirectories (path : String) (s : Machine) :
    Framed [] s ((Act.createDirectories path : StateM Machine _).run s).2 :=
  framed_createWithin path.length path s

/-- Writing changes the file only, also when it is denied. -/
theorem framed_write (path : String) (content : List UInt8) (s : Machine) :
    Framed [Volume.placeOf s.here path] s ((write path content).run s).2 := by
  show Framed _ s (write path content s).2
  unfold write
  split
  · exact framed_change fun v hv => Volume.frame_write hv
  · exact .refl _ s
  · exact framed_change fun v hv => Volume.frame_write hv

/-- What has been written can be read. -/
theorem read_of_write_ok {path : String} {content : List UInt8} {s t : Machine}
    (h : (write path content).run s = (.ok (), t)) :
    t.volume.read t.here path = .ok content := by
  replace h : write path content s = (.ok (), t) := h
  unfold write at h
  split at h
  · cases hv : s.volume.write s.here path content with
    | error e =>
      rw [hv] at h
      cases h
    | ok v =>
      rw [hv] at h
      cases h
      exact Volume.read_of_write hv
  · cases h
  · cases h

end Machine
end GlyphLine
