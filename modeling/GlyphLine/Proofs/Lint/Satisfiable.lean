import GlyphLine.Proofs.Lint.Findings
import GlyphLine.Proofs.Token.Draft

/-!
# Which load classes can be kept

A load of a policy can be kept if some text that names it first passes.  Whether it can is
decided by the policy alone, and by very little of it: by the characters of the names that
a text would have to write.  A pass beside an official claim asks for more, since then a
pass may be required, which a freeze forbids, and a tier, which needs all evidence.

## The two directions

What has to be written has to consist of token characters, for a malformed token is a
violation itself.  So every name that some clause forces into the text has to be writable
(`keepable_of_pass`, `officialKeepable_of_pass`).

For the converse a text is drafted.  It declares the least pressure, all probes and all
evidence, and names the policy and the run where these are writable.  Nothing in it
depends on veto signals, since it names none (`not_violated_draftOf`).

* `Keepable`, `OfficialKeepable`: what the policy has to be like.
* `load_satisfiable_iff`: the two directions together.
-/

namespace GlyphLine
namespace Lint

open Token (HasTokenChars)

/-! ## What the policy has to be like -/

/-- The names that a text under a load has to write are writable. -/
structure Keepable (p : Policy) (load : String) (c : LoadClass) : Prop where
  name : HasTokenChars load
  probes : ∀ name ∈ c.probes, HasTokenChars name
  id : load ∈ ["prod", "public", "pay"] → HasTokenChars p.id

/-- The requirements of an official claim do not contradict the load, and the names that
they force into a text are writable. -/
structure OfficialKeepable (p : Policy) (c : LoadClass) : Prop where
  pressure : ¬ (p.official.pass = true ∧ c.minPressure = .p3)
  id : p.official.readyTier ≠ none → HasTokenChars p.id
  run : ∀ x, p.official.runMustBe = some x →
    (p.official.run = true ∨ p.official.readyTier ≠ none) → HasTokenChars x

/-! ## What a text that passes has written -/

section Necessity

variable {t : TokenSet} {p : Policy} {load : String} {c : LoadClass}

/-- In a text without malformed tokens every value is writable. -/
theorem hasTokenChars_of_mem (hno : ¬ Violated (Facts.of t) p .charset) (k : Token.Kind)
    {v : String} (h : k.start ++ v ∈ t.ordered) : HasTokenChars v := by
  refine (Token.isWellFormed_append_iff k.isWellFormed_start).mp ?_
  by_contra hbad
  exact hno ⟨_, mem_tokens_of.mpr h, Bool.eq_false_iff.mpr hbad⟩

variable (hno : ∀ d, ¬ Violated (Facts.of t) p d)
include hno

/-- A policy that is named is the one in use, and its identity is written. -/
theorem hasTokenChars_id (hload : (Facts.of t).HasLoad p load c)
    (hnamed : t.hasStart "~ICEMAP:" = true) : HasTokenChars p.id := by
  obtain ⟨v, hv⟩ := TokenSet.hasStart_iff.mp hnamed
  cases hfirst : t.firstValue "~ICEMAP:" with
  | none => exact absurd hv (TokenSet.firstValue_eq_none_iff.mp hfirst v)
  | some id =>
    have hid : id = p.id := by
      by_contra hne
      exact hno .misnamed ⟨load, c, id, hload, hfirst, hne⟩
    exact hid ▸ hasTokenChars_of_mem (hno .charset) .icemap (TokenSet.mem_of_firstValue hfirst)

theorem keepable_of_pass (hfirst : t.firstValue "~LOAD:" = some load) :
    ∃ c, p.load? load = some c ∧ Keepable p load c := by
  cases hc : p.load? load with
  | none => exact absurd ⟨load, hfirst, hc⟩ (hno .unknownLoad)
  | some c =>
    have hload : (Facts.of t).HasLoad p load c := ⟨hfirst, hc⟩
    refine ⟨c, rfl, ?_, fun name hname => ?_, fun hsensitive => hasTokenChars_id hno hload ?_⟩
    · exact hasTokenChars_of_mem (hno .charset) .load (TokenSet.mem_of_firstValue hfirst)
    · refine hasTokenChars_of_mem (hno .charset) .probe (mem_tokens_of.mp ?_)
      by_contra hmissing
      exact hno .probes ⟨load, c, hload, name, hname, hmissing⟩
    · rw [TokenSet.hasStart_iff]
      by_contra hnone
      exact hno .unnamed ⟨load, c, hload, hsensitive,
        TokenSet.firstValue_eq_none_iff.mpr (not_exists.mp hnone)⟩

/-- A claim of readiness comes with all identities. -/
theorem hasStart_of_ready (hready : t.hasStart "~READY:" = true) {s : String}
    (hs : s ∈ ["~ENV:", "~RUN:", "~TRACE:", "~ICEMAP:"]) : t.hasStart s = true := by
  rw [← hasStart_of] at hready ⊢
  by_contra hmissing
  exact hno .evidence ⟨hready, .inr ⟨s, hs, hmissing⟩⟩

theorem officialKeepable_of_pass (hload : (Facts.of t).HasLoad p load c)
    (hclaim : "~DEMO:official" ∈ t.ordered) : OfficialKeepable p c := by
  have hmet : ∀ r, ¬ Unmet (Facts.of t) p.official r :=
    fun r hr => hno (.unmet r) ⟨mem_tokens_of.mpr hclaim, hr⟩
  have hready : p.official.readyTier ≠ none → t.hasStart "~READY:" = true := by
    intro htier
    obtain ⟨tier, htier⟩ := Option.ne_none_iff_exists'.mp htier
    refine hasStart_of_readyTier (r := tier) (hasTier_of.mp ?_)
    by_contra hnot
    exact hmet .readyTier ⟨tier, htier, hnot⟩
  refine ⟨?_, fun htier => ?_, fun x hx hforced => ?_⟩
  · -- the pressure has to reach the freeze, beside the required pass
    rintro ⟨hpass, hmin⟩
    have hpassed : "~PASS" ∈ (Facts.of t).tokens := by
      by_contra hnot
      exact hmet .pass ⟨hpass, hnot⟩
    cases hpressure : t.pressure with
    | none =>
      refine hno .noPressure ⟨load, c, hload, fun q hq => ?_⟩
      exact TokenSet.pressure_eq_none_iff.mp hpressure q (mem_tokens_of.mp hq)
    | some q =>
      have hmax : q = .p3 := by
        by_contra hne
        refine hno .lowPressure ⟨load, c, q, hload, hasPressure_of.mpr hpressure, ?_⟩
        rw [hmin]
        cases q <;> first | decide | exact absurd rfl hne
      have hp3 := TokenSet.pressure_eq_p3_iff.mp (hmax ▸ hpressure)
      exact hno .freeze ⟨hpassed, mem_tokens_of.mpr hp3⟩
  · exact hasTokenChars_id hno hload (hasStart_of_ready hno (hready htier) (by decide))
  · have hrun : ∃ run, t.firstValue "~RUN:" = some run := by
      rw [← Option.ne_none_iff_exists']
      intro hnone
      rcases hforced with hrequired | htier
      · exact hmet .run ⟨hrequired, hnone⟩
      · obtain ⟨v, hv⟩ := TokenSet.hasStart_iff.mp
          (hasStart_of_ready hno (hready htier) (s := "~RUN:") (by decide))
        exact TokenSet.firstValue_eq_none_iff.mp hnone v hv
    obtain ⟨run, hrun⟩ := hrun
    have hsame : run = x := by
      by_contra hne
      exact hmet .runMustBe ⟨x, run, hx, hrun, hne⟩
    exact hsame ▸ hasTokenChars_of_mem (hno .charset) .run (TokenSet.mem_of_firstValue hrun)

end Necessity

/-! ## A text that passes -/

/-- The run that a text names: the expected one, if there is one. -/
def expectedRun (o : Official) : String := o.runMustBe.getD ""

/-- The kinds that a text can always have, since no clause forbids them. -/
def harmlessKinds : List Token.Kind :=
  [.env, .trace, .commit, .hash, .json, .arch, .mani, .shot, .report, .icePlus, .rgcaPlus,
    .zdPlus, .zdmPlus, .thaletPlus, .bridgespecPlus, .tbPlus]

/-- What an official claim is made of, beside what is harmless. -/
def officialEntries (o : Official) : List (Token.Kind × String) :=
  (.official, "") :: (if o.pass then [(.pass, "")] else []) ++
    o.readyTier.toList.map fun r => (.tier r, "")

/-- A draft of a text under a load, with or without an official claim. -/
def draftOf (p : Policy) (load : String) (c : LoadClass) (claim : Bool) :
    List (Token.Kind × String) :=
  (.load, load) :: (.pressure c.minPressure, "") :: c.probes.map (fun name => (.probe, name)) ++
    (if HasTokenChars p.id then [(.icemap, p.id)] else []) ++
    (if HasTokenChars (expectedRun p.official) then [(.run, expectedRun p.official)] else []) ++
    harmlessKinds.map (fun k => (k, "")) ++ (if claim then officialEntries p.official else [])

section Draft

variable {p : Policy} {load : String} {c : LoadClass} {claim : Bool} {v : String}

theorem load_mem_draftOf : (Token.Kind.load, v) ∈ draftOf p load c claim ↔ v = load := by
  simp [draftOf, officialEntries, harmlessKinds]

theorem pressure_mem_draftOf {q : Pressure} :
    (Token.Kind.pressure q, v) ∈ draftOf p load c claim ↔ q = c.minPressure ∧ v = "" := by
  simp [draftOf, officialEntries, harmlessKinds]

theorem probe_mem_draftOf : (Token.Kind.probe, v) ∈ draftOf p load c claim ↔ v ∈ c.probes := by
  simp [draftOf, officialEntries, harmlessKinds]

theorem icemap_mem_draftOf :
    (Token.Kind.icemap, v) ∈ draftOf p load c claim ↔ HasTokenChars p.id ∧ v = p.id := by
  simp [draftOf, officialEntries, harmlessKinds]

theorem run_mem_draftOf :
    (Token.Kind.run, v) ∈ draftOf p load c claim ↔
      HasTokenChars (expectedRun p.official) ∧ v = expectedRun p.official := by
  simp [draftOf, officialEntries, harmlessKinds]

theorem pass_mem_draftOf :
    (Token.Kind.pass, v) ∈ draftOf p load c claim ↔
      claim = true ∧ p.official.pass = true ∧ v = "" := by
  simp [draftOf, officialEntries, harmlessKinds]

theorem tier_mem_draftOf {r : ReadyTier} :
    (Token.Kind.tier r, v) ∈ draftOf p load c claim ↔
      claim = true ∧ p.official.readyTier = some r ∧ v = "" := by
  simp [draftOf, officialEntries, harmlessKinds]

theorem official_mem_draftOf :
    (Token.Kind.official, v) ∈ draftOf p load c claim ↔ claim = true ∧ v = "" := by
  simp [draftOf, officialEntries, harmlessKinds]

theorem harmless_mem_draftOf {k : Token.Kind} (hk : k ∈ harmlessKinds) :
    (k, "") ∈ draftOf p load c claim := by
  simp [draftOf, hk]

/-- The values of a draft are writable if the names that a load forces into it are. -/
theorem hasTokenChars_draftOf (h : Keepable p load c) (claim : Bool) :
    ∀ e ∈ draftOf p load c claim, HasTokenChars e.2 := by
  have hempty : HasTokenChars "" := by decide
  rintro ⟨k, v⟩ he
  cases k with
  | load => exact load_mem_draftOf.mp he ▸ h.name
  | probe => exact h.probes v (probe_mem_draftOf.mp he)
  | icemap =>
    obtain ⟨hid, rfl⟩ := icemap_mem_draftOf.mp he
    exact hid
  | run =>
    obtain ⟨hrun, rfl⟩ := run_mem_draftOf.mp he
    exact hrun
  | pressure q => exact (pressure_mem_draftOf.mp he).2 ▸ hempty
  | tier r => exact (tier_mem_draftOf.mp he).2.2 ▸ hempty
  | official => exact (official_mem_draftOf.mp he).2 ▸ hempty
  | pass => exact (pass_mem_draftOf.mp he).2.2 ▸ hempty
  | _ =>
    have hv : v = "" := by simpa [draftOf, officialEntries, harmlessKinds] using he
    exact hv ▸ hempty

end Draft

/-! ### The facts about the text -/

section FirstValues

variable (t : TokenSet)

theorem load_of : (Facts.of t).load = t.firstValue Token.Kind.load.start := rfl

theorem named_of : (Facts.of t).named = t.firstValue Token.Kind.icemap.start := rfl

theorem run_of : (Facts.of t).run = t.firstValue Token.Kind.run.start := rfl

end FirstValues

section Sufficiency

variable {p : Policy} {load : String} {c : LoadClass} {claim : Bool}

/-- The facts about the text of a draft. -/
def draftFacts (p : Policy) (load : String) (c : LoadClass) (claim : Bool) : Facts :=
  Facts.of (.ofText (Token.draft (draftOf p load c claim)))

variable (h : Keepable p load c)
include h

theorem mem_draftFacts_iff {k : Token.Kind} {v : String} :
    k.start ++ v ∈ (draftFacts p load c claim).tokens ↔ (k, v) ∈ draftOf p load c claim :=
  mem_tokens_of.trans (Token.mem_draft_iff (hasTokenChars_draftOf h claim))

theorem start_mem_draftFacts_iff (k : Token.Kind) :
    k.start ∈ (draftFacts p load c claim).tokens ↔ (k, "") ∈ draftOf p load c claim :=
  mem_tokens_of.trans (Token.start_mem_draft_iff (hasTokenChars_draftOf h claim) k)

theorem harmless_mem_draftFacts {k : Token.Kind} (hk : k ∈ harmlessKinds) :
    k.start ∈ (draftFacts p load c claim).tokens :=
  (start_mem_draftFacts_iff h k).mpr (harmless_mem_draftOf hk)

/-- What could stand against a pass is not in the text. -/
theorem not_mem_draftFacts {s v : String} (hs : s ∈ ["~ICE-", "~ZDM-", "~SIG:"]) :
    s ++ v ∉ (draftFacts p load c claim).tokens := by
  have hapart : ∀ s ∈ ["~ICE-", "~ZDM-", "~SIG:"], ∀ k ∈ Token.Kind.all,
      Token.overlap s k.start = false := by decide
  exact mt mem_tokens_of.mp
    (Token.not_mem_draft (hasTokenChars_draftOf h claim) fun k => hapart s hs k k.mem_all)

theorem load_draftFacts : (draftFacts p load c claim).load = some load := by
  have hfirst := Token.firstValue_draft (hasTokenChars_draftOf h claim) (k := .load)
    (v := load) fun hv hw => (load_mem_draftOf.mp hv).trans (load_mem_draftOf.mp hw).symm
  rw [draftFacts, load_of, hfirst, load_mem_draftOf]

theorem named_draftFacts {id : String} :
    (draftFacts p load c claim).named = some id ↔ HasTokenChars p.id ∧ id = p.id := by
  have hfirst := Token.firstValue_draft (hasTokenChars_draftOf h claim) (k := .icemap)
    (v := id) fun hv hw =>
      (icemap_mem_draftOf.mp hv).2.trans (icemap_mem_draftOf.mp hw).2.symm
  rw [draftFacts, named_of, hfirst, icemap_mem_draftOf]

theorem run_draftFacts {run : String} :
    (draftFacts p load c claim).run = some run ↔
      HasTokenChars (expectedRun p.official) ∧ run = expectedRun p.official := by
  have hfirst := Token.firstValue_draft (hasTokenChars_draftOf h claim) (k := .run)
    (v := run) fun hv hw => (run_mem_draftOf.mp hv).2.trans (run_mem_draftOf.mp hw).2.symm
  rw [draftFacts, run_of, hfirst, run_mem_draftOf]

/-- A tier is claimed if it is required, and no other one is. -/
theorem tier_mem_draftFacts_iff {r : ReadyTier} :
    r.token ∈ (draftFacts p load c claim).tokens ↔
      claim = true ∧ p.official.readyTier = some r :=
  (start_mem_draftFacts_iff h (.tier r)).trans
    (tier_mem_draftOf.trans (and_congr_right fun _ => and_iff_left rfl))

theorem hasTier_draftFacts {r : ReadyTier} (hclaim : claim = true)
    (hr : p.official.readyTier = some r) : (draftFacts p load c claim).HasTier r := by
  have hmem : ∀ s : ReadyTier, s.token ∈ (draftFacts p load c claim).tokens ↔ r = s := by
    intro s
    rw [tier_mem_draftFacts_iff h, hr, Option.some_inj]
    exact and_iff_right hclaim
  have hcore := hmem .core
  have hui := hmem .ui
  have hdemo := hmem .demo
  cases r <;> simp_all [Facts.HasTier, ReadyTier.token]

/-- Readiness is claimed only if a tier is required. -/
theorem ready_draftFacts (hready : (draftFacts p load c claim).HasStart "~READY:") :
    claim = true ∧ p.official.readyTier ≠ none := by
  obtain ⟨v, hv⟩ := TokenSet.hasStart_iff.mp (hasStart_of.mp hready)
  rw [Token.ordered_draft (hasTokenChars_draftOf h claim), List.mem_map] at hv
  obtain ⟨⟨k, w⟩, he, hspell⟩ := hv
  have hoverlap : Token.overlap k.start "~READY:" = true := Token.overlap_of_append_eq hspell
  obtain ⟨r, rfl⟩ : ∃ r, k = .tier r := by
    have hall : ∀ k ∈ Token.Kind.all, Token.overlap k.start "~READY:" = true →
        k ∈ ReadyTier.byPriority.map Token.Kind.tier := by decide
    obtain ⟨r, -, hr⟩ := List.mem_map.mp (hall k k.mem_all hoverlap)
    exact ⟨r, hr.symm⟩
  obtain ⟨hclaim, hr, -⟩ := tier_mem_draftOf.mp he
  exact ⟨hclaim, by rw [hr]; simp⟩

/-! ### No clause is violated -/

theorem hasStart_draftFacts {k : Token.Kind} {v s : String} (hs : Text.startsWith s k.start = true)
    (hmem : (k, v) ∈ draftOf p load c claim) : (draftFacts p load c claim).HasStart s := by
  refine ⟨k.start ++ v, (mem_draftFacts_iff h).mpr hmem, Text.startsWith_iff.mpr ?_⟩
  obtain ⟨r, hr⟩ := Text.startsWith_iff.mp hs
  exact ⟨r ++ v, by rw [hr, String.append_assoc]⟩

omit h in
theorem hasTokenChars_expectedRun (ho : OfficialKeepable p c)
    (hforced : p.official.run = true ∨ p.official.readyTier ≠ none) :
    HasTokenChars (expectedRun p.official) := by
  rw [expectedRun]
  cases hrun : p.official.runMustBe with
  | none => decide
  | some x => exact ho.run x hrun hforced

/-- All evidence is there, the policy and the run at least if a tier is required. -/
theorem evidence_draftFacts (ho : claim = true → OfficialKeepable p c) :
    ¬ Violated (draftFacts p load c claim) p .evidence := by
  rintro ⟨hready, ⟨b, hb, hmissing⟩ | ⟨s, hs, hmissing⟩⟩
  · refine hmissing (.inl ?_)
    have hbase : ∀ b ∈ ["~COMMIT", "~HASH", "~JSON", "~ARCH", "~MANI"],
        b ∈ harmlessKinds.map Token.Kind.start := by decide
    obtain ⟨k, hk, rfl⟩ := List.mem_map.mp (hbase b hb)
    exact harmless_mem_draftFacts h hk
  · obtain ⟨hclaim, htier⟩ := ready_draftFacts h hready
    have hrun := hasTokenChars_expectedRun (ho hclaim) (.inr htier)
    have hid := (ho hclaim).id htier
    refine hmissing ?_
    rcases (by simpa using hs : s = "~ENV:" ∨ s = "~RUN:" ∨ s = "~TRACE:" ∨ s = "~ICEMAP:") with
      rfl | rfl | rfl | rfl
    · exact hasStart_draftFacts h (k := .env) (by decide) (harmless_mem_draftOf (by decide))
    · exact hasStart_draftFacts h (k := .run) (by decide) (run_mem_draftOf.mpr ⟨hrun, rfl⟩)
    · exact hasStart_draftFacts h (k := .trace) (by decide) (harmless_mem_draftOf (by decide))
    · exact hasStart_draftFacts h (k := .icemap) (by decide) (icemap_mem_draftOf.mpr ⟨hid, rfl⟩)

/-- An official claim meets every requirement. -/
theorem not_unmet_draftFacts (hclaim : claim = true) (ho : OfficialKeepable p c)
    (r : Requirement) : ¬ Unmet (draftFacts p load c claim) p.official r := by
  have harmless : ∀ k ∈ harmlessKinds, k.start ∈ (draftFacts p load c claim).tokens :=
    fun k hk => harmless_mem_draftFacts h hk
  intro hunmet
  cases r with
  | pass =>
    exact hunmet.2 ((start_mem_draftFacts_iff h .pass).mpr
      (pass_mem_draftOf.mpr ⟨hclaim, hunmet.1, rfl⟩))
  | env =>
    exact hunmet.2
      (hasStart_draftFacts h (k := .env) (by decide) (harmless_mem_draftOf (by decide)))
  | run =>
    have hrun := hasTokenChars_expectedRun ho (.inl hunmet.1)
    have hsome : (draftFacts p load c claim).run = some (expectedRun p.official) :=
      (run_draftFacts h).mpr ⟨hrun, rfl⟩
    exact absurd (hsome.symm.trans hunmet.2) (by simp)
  | runMustBe =>
    obtain ⟨want, run, hwant, hrun, hne⟩ := hunmet
    rw [run_draftFacts h, expectedRun, hwant] at hrun
    exact hne hrun.2
  | iceMustBe => exact hunmet.2 (harmless .icePlus (by decide))
  | rgcaAllPlus => exact hunmet.2 (.inl (harmless .rgcaPlus (by decide)))
  | zdPlus => exact hunmet.2 (harmless .zdPlus (by decide))
  | zdmPlus => exact hunmet.2 (harmless .zdmPlus (by decide))
  | thaletPlus => exact hunmet.2 (harmless .thaletPlus (by decide))
  | readyTier =>
    obtain ⟨tier, htier, hnot⟩ := hunmet
    exact hnot (hasTier_draftFacts h hclaim htier)
  | bridgespecPlus => exact hunmet.2 (harmless .bridgespecPlus (by decide))
  | tbPlus => exact hunmet.2 (harmless .tbPlus (by decide))

/-- The text of the draft keeps every clause. -/
theorem not_violated_draftOf (hc : p.load? load = some c)
    (ho : claim = true → OfficialKeepable p c) (d : Clause) :
    ¬ Violated (draftFacts p load c claim) p d := by
  have hload : (draftFacts p load c claim).HasLoad p load c := ⟨load_draftFacts h, hc⟩
  have hpressure : c.minPressure.token ∈ (draftFacts p load c claim).tokens :=
    (start_mem_draftFacts_iff h (.pressure c.minPressure)).mpr (pressure_mem_draftOf.mpr ⟨rfl, rfl⟩)
  intro hviolated
  cases d with
  | charset =>
    obtain ⟨u, hu, hbad⟩ := hviolated
    rw [draftFacts, mem_tokens_of, Token.ordered_draft (hasTokenChars_draftOf h claim)] at hu
    obtain ⟨e, he, rfl⟩ := List.mem_map.mp hu
    have hgood := (Token.isWellFormed_append_iff e.1.isWellFormed_start).mpr
      (hasTokenChars_draftOf h claim e he)
    exact absurd (hgood.symm.trans hbad) (by simp)
  | freeze =>
    obtain ⟨hpass, hp3⟩ := hviolated
    obtain ⟨hclaim, hrequired, -⟩ :=
      pass_mem_draftOf.mp ((start_mem_draftFacts_iff h .pass).mp hpass)
    obtain ⟨hmin, -⟩ :=
      pressure_mem_draftOf.mp ((start_mem_draftFacts_iff h (.pressure .p3)).mp hp3)
    exact (ho hclaim).pressure ⟨hrequired, hmin.symm⟩
  | iceFail => exact not_mem_draftFacts h (s := "~ICE-") (v := "") (by decide) hviolated.2
  | zdmMismatch => exact not_mem_draftFacts h (s := "~ZDM-") (v := "") (by decide) hviolated.2
  | evidence => exact evidence_draftFacts h ho hviolated
  | shot => exact hviolated.2.2 (.inl (harmless_mem_draftFacts h (k := .shot) (by decide)))
  | report => exact hviolated.2.2.2 (.inl (harmless_mem_draftFacts h (k := .report) (by decide)))
  | unknownLoad =>
    obtain ⟨l, hl, hnone⟩ := hviolated
    obtain rfl := Option.some_inj.mp (hload.1.symm.trans hl)
    exact absurd (hc.symm.trans hnone) (by simp)
  | noPressure =>
    obtain ⟨l, d, hd, hno⟩ := hviolated
    exact hno c.minPressure hpressure
  | lowPressure =>
    obtain ⟨l, d, q, hd, hq, hlow⟩ := hviolated
    obtain ⟨rfl, rfl⟩ := (hasLoad_iff hload).mp hd
    exact Nat.not_le_of_lt hlow (hq.2 _ hpressure)
  | unnamed =>
    obtain ⟨l, d, hd, hsensitive, hnone⟩ := hviolated
    obtain ⟨rfl, rfl⟩ := (hasLoad_iff hload).mp hd
    have hsome : (draftFacts p l d claim).named = some p.id :=
      (named_draftFacts h).mpr ⟨h.id hsensitive, rfl⟩
    exact absurd (hsome.symm.trans hnone) (by simp)
  | misnamed =>
    obtain ⟨l, d, id, hd, hid, hne⟩ := hviolated
    exact hne ((named_draftFacts h).mp hid).2
  | probes =>
    obtain ⟨l, d, hd, name, hname, hmissing⟩ := hviolated
    obtain ⟨rfl, rfl⟩ := (hasLoad_iff hload).mp hd
    exact hmissing ((mem_draftFacts_iff h (k := .probe)).mpr (probe_mem_draftOf.mpr hname))
  | veto =>
    obtain ⟨l, d, hd, hpass, name, hname, hsignal⟩ := hviolated
    exact not_mem_draftFacts h (by decide) hsignal
  | unmet r =>
    obtain ⟨hofficial, hunmet⟩ := hviolated
    have hclaim := (official_mem_draftOf.mp ((start_mem_draftFacts_iff h .official).mp hofficial)).1
    exact not_unmet_draftFacts h hclaim (ho hclaim) r hunmet

/-- The text of the draft passes, and names the load first. -/
theorem exists_text (claim required : Bool) (hc : p.load? load = some c)
    (ho : claim = true → OfficialKeepable p c) :
    ∃ text, (TokenSet.ofText text).firstValue "~LOAD:" = some load ∧
      (lint text p required).verdict = .pass ∧
      (claim = true → "~DEMO:official" ∈ Token.extract text) := by
  have hfirst : (draftFacts p load c claim).load = some load := load_draftFacts h
  rw [draftFacts, load_of] at hfirst
  have hadopted : isUnadopted (.ofText (Token.draft (draftOf p load c claim))) required = false :=
    isUnadopted_eq_false_of_mem (TokenSet.mem_of_firstValue hfirst)
  refine ⟨Token.draft (draftOf p load c claim), hfirst, ?_, fun hclaim => ?_⟩
  · exact verdict_eq_pass_iff.mpr ⟨hadopted, not_violated_draftOf h hc ho⟩
  · have hmem := (start_mem_draftFacts_iff h .official).mpr (official_mem_draftOf.mpr ⟨hclaim, rfl⟩)
    rw [draftFacts, mem_tokens_of] at hmem
    exact hmem

end Sufficiency

/-- A load can be kept by some text if it is one of the policy, and its name, its probes and,
under a sensitive load, the identity of the policy are writable.  It can be kept beside an
official claim if in addition no pass is required in a freeze, and what the requirements
force a text to name is writable. -/
theorem load_satisfiable_iff (p : Policy) (load : String) (required : Bool) :
    ((∃ text, (TokenSet.ofText text).firstValue "~LOAD:" = some load ∧
        (lint text p required).verdict = .pass) ↔
      ∃ c, p.load? load = some c ∧ Keepable p load c) ∧
    ((∃ text, (TokenSet.ofText text).firstValue "~LOAD:" = some load ∧
        (lint text p required).verdict = .pass ∧ "~DEMO:official" ∈ Token.extract text) ↔
      ∃ c, p.load? load = some c ∧ Keepable p load c ∧ OfficialKeepable p c) := by
  refine ⟨⟨?_, ?_⟩, ⟨?_, ?_⟩⟩
  · rintro ⟨text, hfirst, hpass⟩
    exact keepable_of_pass (verdict_eq_pass_iff.mp hpass).2 hfirst
  · rintro ⟨c, hc, hkeepable⟩
    obtain ⟨text, hfirst, hpass, -⟩ := exists_text hkeepable false required hc nofun
    exact ⟨text, hfirst, hpass⟩
  · rintro ⟨text, hfirst, hpass, hclaim⟩
    have hno := (verdict_eq_pass_iff.mp hpass).2
    obtain ⟨c, hc, hkeepable⟩ := keepable_of_pass hno hfirst
    exact ⟨c, hc, hkeepable, officialKeepable_of_pass hno ⟨hfirst, hc⟩ hclaim⟩
  · rintro ⟨c, hc, hkeepable, hofficial⟩
    obtain ⟨text, hfirst, hpass, hclaim⟩ :=
      exists_text hkeepable true required hc fun _ => hofficial
    exact ⟨text, hfirst, hpass, hclaim rfl⟩

end Lint
end GlyphLine
