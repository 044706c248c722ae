import GlyphLine.Host.Volume
import GlyphLine.Proofs.Text.Pieces

/-!
# What a change leaves of a volume

A path leads to the same place in every volume in which it leads anywhere: the names of
the path and the place where it begins decide it, and the volume only whether one gets
there.  A change that keeps all directories therefore keeps where paths lead.

A *frame* says what such a change does to the files: outside some places each file stays
as it is, and none is added.

## Main definitions

* `placeOf`: the place that a path leads to.
* `Frame`: the changes that keep all directories, and all files outside some places.

## Main statements

* `resolve_eq_placeOf`, `resolve_mono`: where a path leads.
* `frame_createDirectory`, `frame_write`: what the two changes keep.
* `read_of_write`: a written file is read back.
* `read_of_frame`: and still after a change elsewhere.
-/

namespace GlyphLine
namespace Volume

/-! ## Places -/

/-- The place that names lead to from a place where every step is possible. -/
def reach (here : Place) : List String → Place
  | [] => here
  | name :: names =>
    if name = "" || name = "." then reach here names
    else if name = ".." then reach here.dropLast names
    else reach (here ++ [name]) names

/-- The place that a path leads to. -/
def placeOf (here : Place) (path : String) : Place := reach (start here path) (namesOf path)

theorem walk_eq_reach {v : Volume} {here : Place} {names : List String} {p : Place}
    (h : v.walk here names = .ok p) : p = reach here names := by
  induction names generalizing here with
  | nil =>
    rw [walk] at h
    rw [reach]
    exact (Except.ok.inj h).symm
  | cons name names ih =>
    rw [walk] at h
    rw [reach]
    split at h
    · cases h
    · cases h
    · split at h
      · next hsame =>
        rw [if_pos hsame]
        exact ih h
      · next hsame =>
        rw [if_neg hsame]
        split at h
        · next hup =>
          rw [if_pos hup]
          exact ih h
        · next hup =>
          rw [if_neg hup]
          exact ih h

theorem reach_append (here : Place) (ms ns : List String) :
    reach here (ms ++ ns) = reach (reach here ms) ns := by
  induction ms generalizing here with
  | nil => rfl
  | cons m ms ih =>
    rw [List.cons_append, reach, reach]
    split
    · exact ih here
    · split
      · exact ih _
      · exact ih _

/-- Empty names lead nowhere else. -/
theorem reach_of_isEmpty {ns : List String} (h : ∀ n ∈ ns, n.isEmpty = true) (here : Place) :
    reach here ns = here := by
  induction ns with
  | nil => rfl
  | cons n ns ih =>
    have hn : n = "" := String.isEmpty_iff.1 (h n List.mem_cons_self)
    rw [reach, hn, if_pos (by decide)]
    exact ih fun m hm => h m (List.mem_cons_of_mem _ hm)

/-- The names of a path without the empty ones at its end. -/
def trimmedNames (path : String) : List String :=
  ((namesOf path).reverse.dropWhile String.isEmpty).reverse

theorem exists_namesOf_eq (path : String) :
    ∃ ns, namesOf path = trimmedNames path ++ ns ∧ ∀ n ∈ ns, n.isEmpty = true := by
  refine ⟨((namesOf path).reverse.takeWhile String.isEmpty).reverse, ?_, fun n hn => ?_⟩
  · rw [trimmedNames, ← List.reverse_append, List.takeWhile_append_dropWhile,
      List.reverse_reverse]
  · have hmem := List.mem_reverse.1 hn
    exact List.all_eq_true.1 (List.all_takeWhile) n hmem

theorem resolve_eq_placeOf {v : Volume} {here : Place} {path : String} {p : Place}
    (h : v.resolve here path = .ok p) : p = placeOf here path := by
  rw [resolve] at h
  split at h
  · cases h
  · exact walk_eq_reach h

theorem resolveNew_eq_placeOf {v : Volume} {here : Place} {path : String} {p : Place}
    (h : v.resolveNew here path = .ok p) : p = placeOf here path := by
  rw [resolveNew] at h
  split at h
  · cases h
  · obtain ⟨ns, hns, hempty⟩ := exists_namesOf_eq path
    rw [placeOf, hns, reach_append, reach_of_isEmpty hempty]
    exact walk_eq_reach h

/-! ## Frames -/

/-- All directories stay, and outside `places` no file changes, comes or goes. -/
structure Frame (places : List Place) (v w : Volume) : Prop where
  directories : ∀ q, v.find? q = some .directory → w.find? q = some .directory
  files : ∀ q, q ∉ places → ∀ c, w.find? q = some (.file c) ↔ v.find? q = some (.file c)

theorem Frame.refl (places : List Place) (v : Volume) : Frame places v v :=
  ⟨fun _ h => h, fun _ _ _ => Iff.rfl⟩

theorem Frame.trans {ps qs : List Place} {u v w : Volume} (h : Frame ps u v)
    (h' : Frame qs v w) : Frame (ps ++ qs) u w := by
  refine ⟨fun q hq => h'.directories q (h.directories q hq), fun q hq c => ?_⟩
  rw [List.mem_append, not_or] at hq
  exact (h'.files q hq.2 c).trans (h.files q hq.1 c)

theorem Frame.mono {ps qs : List Place} {v w : Volume} (h : Frame ps v w)
    (hsub : ∀ q ∈ ps, q ∈ qs) : Frame qs v w :=
  ⟨h.directories, fun q hq => h.files q fun hp => hq (hsub q hp)⟩

/-- Where directories stay, paths lead to the same places. -/
theorem walk_mono {v w : Volume}
    (h : ∀ q, v.find? q = some .directory → w.find? q = some .directory) {here : Place}
    {names : List String} {p : Place} (hp : v.walk here names = .ok p) :
    w.walk here names = .ok p := by
  induction names generalizing here with
  | nil =>
    rw [walk] at hp ⊢
    exact hp
  | cons name names ih =>
    rw [walk] at hp ⊢
    split at hp
    · cases hp
    · cases hp
    · next hdir =>
      rw [h here hdir]
      dsimp only
      split at hp
      · next hsame =>
        rw [if_pos hsame]
        exact ih hp
      · next hsame =>
        rw [if_neg hsame]
        split at hp
        · next hup =>
          rw [if_pos hup]
          exact ih hp
        · next hup =>
          rw [if_neg hup]
          exact ih hp

theorem resolve_mono {v w : Volume}
    (h : ∀ q, v.find? q = some .directory → w.find? q = some .directory) {here : Place}
    {path : String} {p : Place} (hp : v.resolve here path = .ok p) :
    w.resolve here path = .ok p := by
  rw [resolve] at hp ⊢
  split at hp
  · cases hp
  · next hne =>
    rw [if_neg hne]
    exact walk_mono h hp

theorem read_eq_ok_iff {v : Volume} {here : Place} {path : String} {content : List UInt8} :
    v.read here path = .ok content ↔
      ∃ p, v.resolve here path = .ok p ∧ v.find? p = some (.file content) := by
  unfold read
  cases v.resolve here path with
  | error e =>
    constructor
    · intro h
      cases h
    · rintro ⟨p, h, -⟩
      cases h
  | ok p =>
    dsimp only [bind, Except.bind]
    constructor
    · intro h
      split at h
      · cases h
      · cases h
      · next hfind =>
        cases h
        exact ⟨p, rfl, hfind⟩
    · rintro ⟨q, hq, hfind⟩
      cases hq
      rw [hfind]

/-- A file stays readable after a change elsewhere. -/
theorem read_of_frame {places : List Place} {v w : Volume} (h : Frame places v w)
    {here : Place} {path : String} {content : List UInt8} (hp : placeOf here path ∉ places)
    (hread : v.read here path = .ok content) : w.read here path = .ok content := by
  obtain ⟨p, hres, hfind⟩ := read_eq_ok_iff.1 hread
  have hplace := resolve_eq_placeOf hres
  refine read_eq_ok_iff.2 ⟨p, resolve_mono h.directories hres, ?_⟩
  rw [h.files p (hplace ▸ hp)]
  exact hfind

/-! ## Changes -/

/-- A directory that is made adds nothing else. -/
theorem frame_createDirectory {v w : Volume} {here : Place} {path : String}
    (h : v.createDirectory here path = .ok w) : Frame [] v w := by
  unfold createDirectory at h
  cases hp : v.resolveNew here path with
  | error e =>
    rw [hp] at h
    cases h
  | ok p =>
    rw [hp] at h
    replace h : (if (v.find? p).isSome then Except.error SystemError.alreadyExists
      else .ok (v.put p .directory)) = .ok w := h
    split at h
    · cases h
    · next hnone =>
      cases h
      have hfind : v.find? p = none := by simpa using hnone
      have hroot : p ≠ [] := by
        rintro rfl
        rw [find?, if_pos rfl] at hfind
        cases hfind
      refine ⟨fun q hq => ?_, fun q _ c => ?_⟩
      · have hne : q ≠ p := by
          rintro rfl
          rw [hfind] at hq
          cases hq
        rw [find?_put_of_ne v _ hne]
        exact hq
      · by_cases hne : q = p
        · subst hne
          rw [find?_put_self v _ hroot, hfind]
          constructor
          · intro h
            cases h
          · intro h
            cases h
        · rw [find?_put_of_ne v _ hne]

/-- What a written volume is: the file stands where its path leads, and there was no
directory. -/
theorem write_eq_ok {v w : Volume} {here : Place} {path : String} {content : List UInt8}
    (h : v.write here path content = .ok w) :
    v.resolveNew here path = .ok (placeOf here path) ∧ isDirectoryPath path = false ∧
      v.find? (placeOf here path) ≠ some .directory ∧
      w = v.put (placeOf here path) (.file content) := by
  unfold write target at h
  cases hp : v.resolveNew here path with
  | error e =>
    rw [hp] at h
    cases h
  | ok p =>
    have hplace := resolveNew_eq_placeOf hp
    subst hplace
    rw [hp] at h
    dsimp only [bind, Except.bind] at h
    split at h
    · cases h
    · next hslash =>
      split at h
      · cases h
      · next hdir =>
        cases h
        refine ⟨rfl, by simpa using hslash, fun hfind => ?_, rfl⟩
        exact hdir hfind

theorem frame_write {v w : Volume} {here : Place} {path : String} {content : List UInt8}
    (h : v.write here path content = .ok w) : Frame [placeOf here path] v w := by
  obtain ⟨-, -, hdir, rfl⟩ := write_eq_ok h
  refine ⟨fun q hq => ?_, fun q hq c => ?_⟩
  · have hne : q ≠ placeOf here path := by
      rintro rfl
      exact hdir hq
    rw [find?_put_of_ne v _ hne]
    exact hq
  · rw [find?_put_of_ne v _ (by simpa using hq)]

/-! ## What has been written is there -/

/-- A path without a slash at its end has no empty name there. -/
theorem trimmedNames_eq_namesOf {path : String} (hne : path.isEmpty = false)
    (hslash : isDirectoryPath path = false) : trimmedNames path = namesOf path := by
  have hchars : path.toList ≠ [] := by
    intro hnil
    rw [String.toList_eq_nil_iff.1 hnil] at hne
    exact Bool.false_ne_true hne.symm
  have hlast : ∀ c ∈ path.toList.getLast?, (c == '/') = false := by
    intro c hc
    rw [isDirectoryPath, hc] at hslash
    simpa using hslash
  obtain ⟨ps, p, hps, hp⟩ := Text.exists_pieces_eq_concat hchars hlast
  have hnames : (namesOf path).reverse = String.ofList p :: (ps.map String.ofList).reverse := by
    rw [namesOf, hps, List.map_append, List.reverse_append]
    rfl
  have hkeep : (String.ofList p).isEmpty = false := by
    rw [Bool.eq_false_iff, Ne, String.isEmpty_iff, ← String.ofList_nil]
    exact fun hempty => hp (String.ofList_inj.1 hempty)
  rw [trimmedNames, hnames, List.dropWhile_cons_of_neg (by simp [hkeep]), ← hnames,
    List.reverse_reverse]

/-- A file that has been written is read back. -/
theorem read_of_write {v w : Volume} {here : Place} {path : String} {content : List UInt8}
    (h : v.write here path content = .ok w) : w.read here path = .ok content := by
  have hframe := frame_write h
  obtain ⟨hres, hslash, hdir, hput⟩ := write_eq_ok h
  have hroot : placeOf here path ≠ [] := by
    intro hnil
    rw [hnil, find?, if_pos rfl] at hdir
    exact hdir rfl
  rw [resolveNew] at hres
  split at hres
  · cases hres
  · next hne =>
    have hnames := trimmedNames_eq_namesOf (by simpa using hne) hslash
    refine read_eq_ok_iff.2 ⟨placeOf here path, ?_, ?_⟩
    · rw [resolve, if_neg hne, ← hnames]
      exact walk_mono hframe.directories hres
    · rw [hput]
      exact find?_put_self v _ hroot

end Volume
end GlyphLine
