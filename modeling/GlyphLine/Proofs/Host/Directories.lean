import GlyphLine.Proofs.Host.Act
import GlyphLine.Proofs.Host.Path

/-!
# When directories can be made

A directory is made together with those that it stands in: if it cannot be made because one of
them is missing, the one above is made first, in the same way, and then it is tried once more.
This goes well if nothing is denied, the path does not lead up, and no file stands in the way.

## Why the steps suffice

A path without two points leads down from where it begins, by one name for each of its steps
(`reach_eq`).  To walk it, everything above its last step has to be a directory; if something is
missing there, the walk says so, and the path above has one step less.  The depth up to which
directories are made is the number of characters of the path, which is never less than its steps.

## Main statements

* `Made`: a change after which the steps of a path are directories.
* `walk_cases`: a walk with no file in the way succeeds, or something is missing.
* `createDirectories_ok`: **directories are made if nothing forbids it**.
-/

namespace GlyphLine
namespace Volume

open GlyphLine.Path (isStep steps Ends)

variable {v w : Volume} {here : Place} {names : List String}

/-! ## Walking down -/

/-- The names that lead nowhere. -/
theorem stays_iff {name : String} : (name = "" || name = ".") = true ↔ ¬ isStep name = true := by
  simp [isStep, imp_iff_not_or]

/-- Names that do not lead up lead down by their steps. -/
theorem reach_eq (hup : ".." ∉ names) : reach here names = here ++ names.filter isStep := by
  induction names generalizing here with
  | nil => exact (List.append_nil here).symm
  | cons name names ih =>
    rw [List.mem_cons, not_or] at hup
    rw [reach]
    split
    · next hstay => rw [List.filter_cons_of_neg (stays_iff.mp hstay), ih hup.2]
    · next hstep =>
      rw [stays_iff, Decidable.not_not] at hstep
      rw [if_neg (Ne.symm hup.1), ih hup.2, List.filter_cons_of_pos hstep,
        List.append_cons here name (names.filter isStep)]

theorem walk_cons_of_stay {name : String} (h : ¬ isStep name = true)
    (hhere : v.find? here = some .directory) : v.walk here (name :: names) = v.walk here names := by
  rw [walk, hhere]
  exact if_pos (stays_iff.mpr h)

theorem walk_cons_of_step {name : String} (h : isStep name = true) (hup : ".." ≠ name)
    (hhere : v.find? here = some .directory) :
    v.walk here (name :: names) = v.walk (here ++ [name]) names := by
  rw [walk, hhere]
  exact (if_neg fun hstay => stays_iff.mp hstay h).trans (if_neg hup.symm)

/-- A walk through directories goes to its end. -/
theorem walk_of_directories (hup : ".." ∉ names)
    (h : ∀ pre, pre <+: names.filter isStep → v.find? (here ++ pre) = some .directory) :
    v.walk here names = .ok (here ++ names.filter isStep) := by
  induction names generalizing here with
  | nil => rw [walk, List.filter_nil, List.append_nil]
  | cons name names ih =>
    rw [List.mem_cons, not_or] at hup
    have hhere : v.find? here = some .directory := List.append_nil here ▸ h [] List.nil_prefix
    by_cases hstep : isStep name = true
    · rw [List.filter_cons_of_pos hstep] at h ⊢
      rw [walk_cons_of_step hstep hup.1 hhere,
        List.append_cons here name (names.filter isStep)]
      refine ih hup.2 fun pre hpre => ?_
      rw [← List.append_cons]
      exact h (name :: pre) (List.cons_prefix_cons.mpr ⟨rfl, hpre⟩)
    · rw [List.filter_cons_of_neg hstep] at h ⊢
      rw [walk_cons_of_stay hstep hhere, ih hup.2 h]

theorem ends_of_cons {name : String} (h : Ends (name :: names)) :
    Ends names ∧ (isStep name = true → names = [] ∨ names.filter isStep ≠ []) := by
  rcases h with h | ⟨front, last, h, hlast⟩
  · rw [List.filter_eq_nil_iff, List.forall_mem_cons] at h
    exact ⟨.inl (List.filter_eq_nil_iff.mpr h.2), fun hstep => absurd hstep h.1⟩
  · cases front with
    | nil =>
      obtain ⟨-, rfl⟩ := List.cons.inj h
      exact ⟨.inl rfl, fun _ => .inl rfl⟩
    | cons first front =>
      obtain ⟨-, rfl⟩ := List.cons.inj h
      have hmem : last ∈ (front ++ [last]).filter isStep :=
        List.mem_filter.mpr ⟨List.mem_append_right _ List.mem_cons_self, hlast⟩
      exact ⟨.inr ⟨front, last, rfl, hlast⟩, fun _ => .inr (List.ne_nil_of_mem hmem)⟩

/-- What stands above the last of some steps is all of one kind. -/
def Above (v : Volume) (kind : Option Entry → Prop) (here : Place) (names : List String) : Prop :=
  ∀ pre, pre <+: names → pre ≠ names → kind (v.find? (here ++ pre))

/-- What is no file. -/
def NoFile (e : Option Entry) : Prop := ∀ c, e ≠ some (.file c)

theorem noFile_directory : NoFile (some .directory) := fun _ h => by cases h

variable {kind kind' : Option Entry → Prop}

theorem Above.imp (h : v.Above kind here names) (hkind : ∀ e, kind e → kind' e) :
    v.Above kind' here names := fun pre hpre hne => hkind _ (h pre hpre hne)

theorem above_nil : v.Above kind here [] := fun _ hpre hne => absurd (List.prefix_nil.mp hpre) hne

theorem above_cons_iff {name : String} : v.Above kind here (name :: names) ↔
    kind (v.find? here) ∧ v.Above kind (here ++ [name]) names := by
  constructor
  · intro h
    refine ⟨List.append_nil here ▸ h [] List.nil_prefix (List.cons_ne_nil _ _).symm, ?_⟩
    intro pre hpre hne
    rw [← List.append_cons here name]
    exact h (name :: pre) (List.cons_prefix_cons.mpr ⟨rfl, hpre⟩) (mt (List.cons.inj · |>.2) hne)
  · rintro ⟨hhere, habove⟩ pre hpre hne
    rcases List.prefix_cons_iff.mp hpre with rfl | ⟨pre, rfl, htail⟩
    · rwa [List.append_nil]
    · rw [List.append_cons here name pre]
      exact habove pre htail (mt (congrArg (name :: ·)) hne)

/-- A walk that ends with a step, and has no file in its way, goes to its end through
directories, or something on its way is missing. -/
theorem walk_cases (hup : ".." ∉ names) (hends : Ends names)
    (hhere : v.find? here = some .directory)
    (hclear : v.Above NoFile here (names.filter isStep)) :
    (v.walk here names = .ok (here ++ names.filter isStep) ∧
      v.Above (· = some .directory) here (names.filter isStep)) ∨
    (v.walk here names = .error .notFound ∧ ¬ v.Above (· ≠ none) here (names.filter isStep)) := by
  induction names generalizing here with
  | nil => exact .inl ⟨by rw [walk, List.filter_nil, List.append_nil], above_nil⟩
  | cons name names ih =>
    rw [List.mem_cons, not_or] at hup
    obtain ⟨hends, hmore⟩ := ends_of_cons hends
    by_cases hstep : isStep name = true
    · rw [List.filter_cons_of_pos hstep, above_cons_iff] at hclear ⊢
      rw [walk_cons_of_step hstep hup.1 hhere, above_cons_iff,
        List.append_cons here name (names.filter isStep)]
      rcases hmore hstep with rfl | hne
      · exact .inl ⟨by rw [walk, List.filter_nil, List.append_nil], hhere, above_nil⟩
      · cases hnext : v.find? (here ++ [name]) with
        | none =>
          refine .inr ⟨?_, fun hall => ?_⟩
          · cases names with
            | nil => exact absurd rfl hne
            | cons => rw [walk, hnext]
          · have hfound := hall.2 [] List.nil_prefix hne.symm
            rw [List.append_nil] at hfound
            exact hfound hnext
        | some e =>
          cases e with
          | file c =>
            have hfile := hclear.2 [] List.nil_prefix hne.symm
            rw [List.append_nil] at hfile
            exact absurd hnext (hfile c)
          | directory =>
            refine (ih hup.2 hends hnext hclear.2).imp ?_ ?_
            · exact fun h => ⟨h.1, hhere, h.2⟩
            · exact fun h => ⟨h.1, fun hall => h.2 hall.2⟩
    · rw [List.filter_cons_of_neg hstep] at hclear ⊢
      rw [walk_cons_of_stay hstep hhere]
      exact ih hup.2 hends hhere hclear

/-! ## Paths -/

section Paths

variable {path : String}

theorem placeOf_eq (hup : ".." ∉ namesOf path) :
    placeOf here path = start here path ++ steps path.toList :=
  reach_eq hup

/-- Slashes at the end of a path are no steps, and no path that ends with a step has any. -/
theorem trimmedNames_spec (hends : Ends (namesOf path)) :
    (trimmedNames path).filter isStep = steps path.toList ∧ Ends (trimmedNames path) := by
  obtain ⟨ns, hns, hempty⟩ := exists_namesOf_eq path
  have hno : ∀ n ∈ ns, ¬ isStep n = true := fun n hn => by
    rw [String.isEmpty_iff.mp (hempty n hn)]
    decide
  have hfilter : (trimmedNames path).filter isStep = steps path.toList := by
    show _ = (namesOf path).filter isStep
    rw [hns, List.filter_append, List.filter_eq_nil_iff.mpr hno, List.append_nil]
  refine ⟨hfilter, ?_⟩
  rcases hends with hnil | ⟨front, last, hlast, hstep⟩
  · exact .inl (hfilter.trans hnil)
  · have hnone : ns = [] := by
      rcases List.eq_nil_or_concat ns with hnil | ⟨ms, m, rfl⟩
      · exact hnil
      · rw [List.concat_eq_append] at hns hno
        rw [hns, ← List.append_assoc] at hlast
        obtain ⟨-, rfl⟩ := List.append_singleton_inj.mp hlast
        exact absurd hstep (hno m (List.mem_append_right _ List.mem_cons_self))
    rw [hnone, List.append_nil] at hns
    exact .inr ⟨front, last, hns ▸ hlast, hstep⟩

/-- A path that ends with a step leads to its place, or something on its way is missing. -/
theorem resolveNew_cases (hne : path.isEmpty = false) (hup : ".." ∉ namesOf path)
    (hends : Ends (namesOf path)) (hstart : v.find? (start here path) = some .directory)
    (hclear : v.Above NoFile (start here path) (steps path.toList)) :
    (v.resolveNew here path = .ok (start here path ++ steps path.toList) ∧
      v.Above (· = some .directory) (start here path) (steps path.toList)) ∨
    (v.resolveNew here path = .error .notFound ∧
      ¬ v.Above (· ≠ none) (start here path) (steps path.toList)) := by
  obtain ⟨hfilter, htrimmed⟩ := trimmedNames_spec hends
  have hup' : ".." ∉ trimmedNames path := fun hmem => by
    obtain ⟨ns, hns, -⟩ := exists_namesOf_eq path
    exact hup (hns ▸ List.mem_append_left _ hmem)
  rw [← hfilter] at hclear ⊢
  rw [resolveNew, hne, if_neg Bool.false_ne_true]
  exact walk_cases hup' htrimmed hstart hclear

end Paths

/-! ## Directories that are made -/

/-- After a change the steps from a place are directories, and nothing else has changed. -/
structure Made (v w : Volume) (here : Place) (names : List String) : Prop where
  made : ∀ pre, pre <+: names → w.find? (here ++ pre) = some .directory
  kept : ∀ p, (∀ pre, pre <+: names → p ≠ here ++ pre) → w.find? p = v.find? p

/-- Where all steps are directories, nothing has to change. -/
theorem made_self (habove : v.Above (· = some .directory) here names)
    (hlast : v.find? (here ++ names) = some .directory) : Made v v here names where
  made pre hpre := by
    by_cases hne : pre = names
    · rw [hne, hlast]
    · exact habove pre hpre hne
  kept _ _ := rfl

/-- If only the last step is missing, it is put in its place. -/
theorem made_put (habove : v.Above (· = some .directory) here names)
    (hlast : v.find? (here ++ names) = none) :
    Made v (v.put (here ++ names) .directory) here names where
  made pre hpre := by
    by_cases hne : pre = names
    · have hroot : here ++ names ≠ [] := by
        intro hnil
        rw [hnil, find?, if_pos rfl] at hlast
        cases hlast
      rw [hne, find?_put_self v _ hroot]
    · rw [find?_put_of_ne v _ (mt List.append_cancel_left hne)]
      exact habove pre hpre hne
  kept p hp := find?_put_of_ne v _ (hp names List.prefix_rfl)

/-- Once steps are made, they stand above every further one. -/
theorem Made.above (h : Made v w here names) (name : String) :
    w.Above (· = some .directory) here (names ++ [name]) := fun pre hpre hne =>
  h.made pre ((List.prefix_concat_iff.mp hpre).resolve_left hne)

/-- A further step is as it was. -/
theorem Made.find?_concat (h : Made v w here names) (name : String) :
    w.find? (here ++ (names ++ [name])) = v.find? (here ++ (names ++ [name])) := by
  refine h.kept _ fun pre hpre heq => ?_
  have hlength := hpre.length_le
  rw [← List.append_cancel_left heq, List.length_append, List.length_singleton] at hlength
  omega

/-- One more step, after those above it. -/
theorem Made.concat {u : Volume} {name : String} (h : Made u v here names)
    (h' : Made v w here (names ++ [name])) : Made u w here (names ++ [name]) where
  made := h'.made
  kept p hp := (h'.kept p hp).trans
    (h.kept p fun pre hpre => hp pre (hpre.trans (List.prefix_append names [name])))

section Paths

variable {path : String}

/-- A directory is made, or is there already, or one above it is missing. -/
theorem createDirectory_cases (hne : path.isEmpty = false) (hup : ".." ∉ namesOf path)
    (hends : Ends (namesOf path)) (hstart : v.find? (start here path) = some .directory)
    (hclear : ∀ pre, pre <+: steps path.toList → NoFile (v.find? (start here path ++ pre))) :
    (∃ w, v.createDirectory here path = .ok w ∧
      Made v w (start here path) (steps path.toList)) ∨
    (v.createDirectory here path = .error .alreadyExists ∧
      Made v v (start here path) (steps path.toList)) ∨
    (v.createDirectory here path = .error .notFound ∧
      ¬ v.Above (· ≠ none) (start here path) (steps path.toList)) := by
  rcases resolveNew_cases hne hup hends hstart fun pre hpre _ => hclear pre hpre with
    ⟨hres, habove⟩ | ⟨hres, hmissing⟩
  · have hcreate : v.createDirectory here path =
        if (v.find? (start here path ++ steps path.toList)).isSome then .error .alreadyExists
        else .ok (v.put (start here path ++ steps path.toList) .directory) := by
      rw [createDirectory, hres]
      rfl
    cases hfind : v.find? (start here path ++ steps path.toList) with
    | none =>
      rw [hfind] at hcreate
      exact .inl ⟨_, hcreate, made_put habove hfind⟩
    | some e =>
      rw [hfind] at hcreate
      cases e with
      | file c => exact absurd hfind (hclear _ List.prefix_rfl c)
      | directory => exact .inr (.inl ⟨hcreate, made_self habove hfind⟩)
  · refine .inr (.inr ⟨?_, hmissing⟩)
    rw [createDirectory, hres]
    rfl

/-- Where all steps are directories, the path is that of one. -/
theorem kind?_eq_directory (hne : path.isEmpty = false) (hup : ".." ∉ namesOf path)
    (h : ∀ pre, pre <+: steps path.toList → v.find? (start here path ++ pre) = some .directory) :
    v.kind? here path = some .directory := by
  have hwalk : v.walk (start here path) (namesOf path) =
      .ok (start here path ++ steps path.toList) := walk_of_directories hup h
  rw [kind?, resolve, hne, if_neg Bool.false_ne_true, hwalk]
  dsimp only
  rw [h _ List.prefix_rfl]
  rfl

/-- A path that ends with a name does not end with a slash. -/
theorem isDirectoryPath_eq_false {front : List String} {name : String}
    (hnames : namesOf path = front ++ [name]) (hname : name ≠ "") :
    isDirectoryPath path = false := by
  rw [isDirectoryPath, decide_eq_false_iff_not, List.getLast?_eq_some_iff]
  rintro ⟨cs, hcs⟩
  have hempty : namesOf path = Path.names cs ++ [""] := by
    show Path.names path.toList = _
    rw [hcs, Path.names_append]
    rfl
  exact hname (List.append_singleton_inj.mp (hnames.symm.trans hempty)).2

/-- A file is written in a directory, unless there is one in its place. -/
theorem write_of_above {front : List String} {name : String} (hup : ".." ∉ namesOf path)
    (hnames : namesOf path = front ++ [name]) (hempty : name ≠ "") (hstep : isStep name = true)
    (hstart : v.find? (start here path) = some .directory)
    (habove : v.Above (· = some .directory) (start here path) (steps path.toList))
    (hfree : v.find? (placeOf here path) ≠ some .directory) (content : List UInt8) :
    v.write here path content = .ok (v.put (placeOf here path) (.file content)) := by
  have hne : path.isEmpty = false := by
    refine Bool.eq_false_iff.mpr fun hpath => hempty ?_
    obtain rfl := String.isEmpty_iff.mp hpath
    exact (List.append_singleton_inj.mp (hnames.symm.trans (List.nil_append [""]).symm)).2
  have hres : v.resolveNew here path = .ok (placeOf here path) := by
    rw [placeOf_eq hup]
    have hclear := habove.imp fun _ h => h ▸ noFile_directory
    have hfound := habove.imp fun _ h => h ▸ Option.some_ne_none Entry.directory
    rcases resolveNew_cases hne hup (.inr ⟨front, name, hnames, hstep⟩) hstart hclear with
      ⟨hres, -⟩ | ⟨-, hmissing⟩
    · exact hres
    · exact absurd hfound hmissing
  have htarget : v.target here path = .ok (placeOf here path) := by
    rw [target, hres, isDirectoryPath_eq_false hnames hempty]
    dsimp only [bind, Except.bind]
    rw [if_neg Bool.false_ne_true]
    split
    · next hdir => exact absurd hdir hfree
    · rfl
  rw [write, htarget]
  rfl

end Paths

end Volume

/-! ## Machines -/

namespace Machine

open GlyphLine.Path (isStep steps Ends Parent)
open Volume (Made NoFile namesOf start)

variable {s : Machine} {path : String}

theorem run_createDirectory_ok {w : Volume}
    (hallowed : s.denials.lookup (.createDirectory path) = none)
    (h : s.volume.createDirectory s.here path = .ok w) :
    (Host.createDirectory path : StateM Machine _).run s = (.ok (), { s with volume := w }) := by
  show change (s.unlessDenied _ _) s = _
  rw [unlessDenied, hallowed, h]
  rfl

theorem run_createDirectory_error {e : SystemError}
    (hallowed : s.denials.lookup (.createDirectory path) = none)
    (h : s.volume.createDirectory s.here path = .error e) :
    (Host.createDirectory path : StateM Machine _).run s = (.error e, s) := by
  show change (s.unlessDenied _ _) s = _
  rw [unlessDenied, hallowed, h]
  rfl

/-- A directory that is there will do, whatever has come of making it. -/
theorem run_createOne (hne : path.isEmpty = false) (hup : ".." ∉ namesOf path)
    (h : ∀ pre, pre <+: steps path.toList →
      s.volume.find? (start s.here path ++ pre) = some .directory)
    (result : Except SystemError Unit) :
    (Act.createOne path result : StateM Machine _).run s = (.ok (), s) := by
  cases result with
  | ok _ => rfl
  | error e =>
    have hkind : s.volume.kind? s.here path = some .directory :=
      Volume.kind?_eq_directory hne hup h
    show ((if s.volume.kind? s.here path == some .directory then Except.ok () else .error e), s) = _
    rw [hkind]
    rfl

theorem run_write_ok {content : List UInt8} {w : Volume}
    (hallowed : s.denials.lookup (.write path) = none)
    (h : s.volume.write s.here path content = .ok w) :
    (Host.write path content : StateM Machine _).run s = (.ok (), { s with volume := w }) := by
  show write path content s = _
  rw [write, hallowed, h]
  rfl

theorem run_createWithin_of_ne {depth : Nat} {t : Machine} {result : Except SystemError Unit}
    (hne : path.isEmpty = false) (hresult : result ≠ .error .notFound)
    (h : (Host.createDirectory path : StateM Machine _).run s = (result, t)) :
    (Act.createWithin depth path : StateM Machine _).run s =
      (Act.createOne path result : StateM Machine _).run t := by
  unfold Act.createWithin
  rw [hne, if_neg Bool.false_ne_true, run_bind, h]
  split
  · next hmissing => exact absurd hmissing hresult
  · rfl

theorem run_createWithin_of_missing {depth : Nat} {parent : String} {t u : Machine}
    {result : Except SystemError Unit} (hne : path.isEmpty = false)
    (h : (Host.createDirectory path : StateM Machine _).run s = (.error .notFound, s))
    (hparent : Path.parent? path = some parent)
    (habove : (Act.createWithin depth parent : StateM Machine _).run s = (.ok (), t))
    (hagain : (Host.createDirectory path : StateM Machine _).run t = (result, u)) :
    (Act.createWithin (depth + 1) path : StateM Machine _).run s =
      (Act.createOne path result : StateM Machine _).run u := by
  unfold Act.createWithin
  rw [hne, if_neg Bool.false_ne_true, run_bind, h]
  dsimp only
  rw [hparent]
  dsimp only
  rw [run_bind, habove]
  dsimp only
  rw [run_bind, hagain]

/-- Directories can be made under a path: nothing is denied, the path leads down and ends with a
step, and from where it begins no file stands in the way. -/
structure CanMake (s : Machine) (path : String) : Prop where
  allowed : ∀ q, s.denials.lookup (.createDirectory q) = none
  down : ".." ∉ namesOf path
  ends : Ends (namesOf path)
  begins : s.volume.find? (start s.here path) = some .directory
  clear : ∀ pre, pre <+: steps path.toList → NoFile (s.volume.find? (start s.here path ++ pre))

theorem start_parent {parent : String} (h : Parent path parent) (here : Place) :
    start here parent = start here path := by
  rw [start, start, h.start]

/-- What is above a path can be made if no file stands there. -/
theorem canMake_parent {parent : String}
    (hallowed : ∀ q, s.denials.lookup (.createDirectory q) = none)
    (hdown : ".." ∉ namesOf path) (hbegins : s.volume.find? (start s.here path) = some .directory)
    (hclear : s.volume.Above NoFile (start s.here path) (steps path.toList))
    (hparent : Parent path parent) : CanMake s parent := by
  obtain ⟨name, -, hsteps⟩ := hparent.step
  have hsub : steps parent.toList <+: steps path.toList := hsteps ▸ List.prefix_append _ _
  refine ⟨hallowed, fun hmem => ?_, hparent.ends, ?_, fun pre hpre => ?_⟩
  · have hstep : ".." ∈ steps parent.toList := List.mem_filter.mpr ⟨hmem, by decide⟩
    exact hdown (List.mem_filter.mp (hsub.subset hstep)).1
  · rw [start_parent hparent]
    exact hbegins
  · rw [start_parent hparent]
    refine hclear pre (hpre.trans hsub) fun heq => ?_
    have hlength := hpre.length_le
    rw [heq, hsteps, List.length_append, List.length_singleton] at hlength
    omega

/-- A directory is made at once, unless one above it is missing. -/
theorem createWithin_cases (depth : Nat) (h : CanMake s path) :
    (∃ w,
      (Act.createWithin depth path : StateM Machine _).run s = (.ok (), { s with volume := w }) ∧
      Made s.volume w (start s.here path) (steps path.toList)) ∨
    (path.isEmpty = false ∧ s.volume.createDirectory s.here path = .error .notFound ∧
      ¬ s.volume.Above (· ≠ none) (start s.here path) (steps path.toList)) := by
  by_cases hempty : path.isEmpty = true
  · have hrun : (Act.createWithin depth path : StateM Machine _).run s = (.ok (), s) := by
      unfold Act.createWithin
      rw [hempty, if_pos rfl]
      rfl
    obtain rfl : path = "" := String.isEmpty_iff.mp hempty
    have hnone : steps "".toList = [] := Path.steps_nil
    refine .inl ⟨s.volume, hrun, ?_⟩
    rw [hnone]
    exact Volume.made_self Volume.above_nil ((List.append_nil _).symm ▸ h.begins)
  have hne : path.isEmpty = false := by simpa using hempty
  rcases Volume.createDirectory_cases hne h.down h.ends h.begins h.clear with
    ⟨w, hcreate, hmade⟩ | ⟨hcreate, hmade⟩ | ⟨hcreate, hmissing⟩
  · refine .inl ⟨w, ?_, hmade⟩
    rw [run_createWithin_of_ne hne (by decide) (run_createDirectory_ok (h.allowed path) hcreate)]
    exact run_createOne hne h.down hmade.made _
  · refine .inl ⟨s.volume, ?_, hmade⟩
    rw [run_createWithin_of_ne hne (by decide) (run_createDirectory_error (h.allowed path) hcreate)]
    exact run_createOne hne h.down hmade.made _
  · exact .inr ⟨hne, hcreate, hmissing⟩

/-- Once everything above a directory is made, the directory is. -/
theorem createOne_above {w : Volume} {names : List String} {name : String}
    (hne : path.isEmpty = false) (h : CanMake s path) (hsteps : steps path.toList = names ++ [name])
    (hmade : Made s.volume w (start s.here path) names) :
    ∃ result u, (Host.createDirectory path : StateM Machine _).run { s with volume := w } =
        (result, { s with volume := u }) ∧
      (Act.createOne path result : StateM Machine _).run { s with volume := u } =
        (.ok (), { s with volume := u }) ∧
      Made s.volume u (start s.here path) (steps path.toList) := by
  have hbegins : w.find? (start s.here path) = some .directory :=
    List.append_nil (start s.here path) ▸ hmade.made [] List.nil_prefix
  have habove : w.Above (· = some .directory) (start s.here path) (steps path.toList) :=
    hsteps ▸ hmade.above name
  have hclear : ∀ pre, pre <+: steps path.toList → NoFile (w.find? (start s.here path ++ pre)) := by
    intro pre hpre
    by_cases hlast : pre = steps path.toList
    · rw [hlast, hsteps, hmade.find?_concat, ← hsteps]
      exact h.clear _ List.prefix_rfl
    · rw [habove pre hpre hlast]
      exact Volume.noFile_directory
  rcases Volume.createDirectory_cases hne h.down h.ends hbegins hclear with
    ⟨u, hcreate, hmade'⟩ | ⟨hcreate, hmade'⟩ | ⟨-, hmissing⟩
  · exact ⟨_, u, run_createDirectory_ok (h.allowed path) hcreate,
      run_createOne hne h.down hmade'.made _, hsteps ▸ hmade.concat (hsteps ▸ hmade')⟩
  · exact ⟨_, w, run_createDirectory_error (h.allowed path) hcreate,
      run_createOne hne h.down hmade'.made _, hsteps ▸ hmade.concat (hsteps ▸ hmade')⟩
  · exact absurd (habove.imp fun _ hdir => hdir ▸ Option.some_ne_none Entry.directory) hmissing

/-- Directories are made, up to a depth that is not less than the steps of the path. -/
theorem createWithin_ok {depth : Nat} (h : CanMake s path)
    (hdepth : (steps path.toList).length ≤ depth) :
    ∃ w, (Act.createWithin depth path : StateM Machine _).run s = (.ok (), { s with volume := w }) ∧
      Made s.volume w (start s.here path) (steps path.toList) := by
  induction depth generalizing path with
  | zero =>
    rcases createWithin_cases 0 h with hmade | ⟨-, -, hmissing⟩
    · exact hmade
    · rw [List.length_eq_zero_iff.mp (Nat.le_zero.mp hdepth)] at hmissing
      exact absurd Volume.above_nil hmissing
  | succ depth ih =>
    rcases createWithin_cases (depth + 1) h with hmade | ⟨hne, hcreate, hmissing⟩
    · exact hmade
    have hsome : steps path.toList ≠ [] := fun hnil => hmissing (hnil ▸ Volume.above_nil)
    cases hparent : Path.parent? path with
    | none => exact absurd (Path.parent?_eq_none hparent) hsome
    | some parent =>
      rcases Path.parent?_eq_some hparent with hp | ⟨hnil, -⟩
      · obtain ⟨name, -, hsteps⟩ := hp.step
        have hshorter : (steps parent.toList).length ≤ depth := by
          rw [hsteps, List.length_append, List.length_singleton] at hdepth
          exact Nat.le_of_succ_le_succ hdepth
        have hclear : s.volume.Above NoFile (start s.here path) (steps path.toList) :=
          fun pre hpre _ => h.clear pre hpre
        obtain ⟨w, habove, hmade⟩ :=
          ih (canMake_parent h.allowed h.down h.begins hclear hp) hshorter
        rw [start_parent hp] at hmade
        obtain ⟨result, u, hagain, hone, hmade'⟩ := createOne_above hne h hsteps hmade
        refine ⟨u, ?_, hmade'⟩
        rw [run_createWithin_of_missing hne (run_createDirectory_error (h.allowed path) hcreate)
          hparent habove hagain, hone]
      · exact absurd hnil hsome

/-- **Directories are made if nothing forbids it.**  All steps of the path are directories then,
and nothing else has changed. -/
theorem createDirectories_ok (h : CanMake s path) :
    ∃ w, (Act.createDirectories path : StateM Machine _).run s = (.ok (), { s with volume := w }) ∧
      Made s.volume w (start s.here path) (steps path.toList) :=
  createWithin_ok h (String.length_toList ▸ Path.length_steps_le path.toList)

end Machine
end GlyphLine
