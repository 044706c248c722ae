/-!
# Checks, codes and requirements

What is wrong with a text is named by a check and a code: the check says which group of
rules has been applied, and the code which of them is not kept.  The requirements for an
official claim share one code and are told apart by their keys.
-/

namespace GlyphLine
namespace Lint

/-- The five checks, in the order in which they are made. -/
inductive Check where
  | tokenCharset
  | illegalCombo
  | readyEvidence
  | icemap
  | officialClaim
  deriving DecidableEq, Repr

namespace Check

/-- All checks, in order. -/
def all : List Check := [.tokenCharset, .illegalCombo, .readyEvidence, .icemap, .officialClaim]

/-- The identifier of a check. -/
def id : Check → String
  | .tokenCharset => "glyph.token_charset"
  | .illegalCombo => "glyph.illegal_combo"
  | .readyEvidence => "glyph.ready_evidence"
  | .icemap => "glyph.icemap"
  | .officialClaim => "glyph.official_claim"

/-- The name of a check in a log. -/
def logName : Check → String
  | .tokenCharset => "token_charset"
  | .illegalCombo => "illegal_combos"
  | .readyEvidence => "ready_evidence"
  | .icemap => "icemap"
  | .officialClaim => "official"

end Check

/-- The fifteen codes. -/
inductive Code where
  | invalidTokenCharacters
  | freezeForbidsPass
  | iceFailForbidsPass
  | zdmMismatchForbidsPass
  | missingEvidence
  | missingShot
  | missingReport
  | unknownLoad
  | missingPressure
  | pressureTooLow
  | missingIcemap
  | icemapMismatch
  | missingProbes
  | vetoSignal
  | unmetRequirement
  deriving DecidableEq, Repr

namespace Code

/-- All codes, in the order in which findings come. -/
def all : List Code := [
  .invalidTokenCharacters, .freezeForbidsPass, .iceFailForbidsPass, .zdmMismatchForbidsPass,
  .missingEvidence, .missingShot, .missingReport, .unknownLoad, .missingPressure,
  .pressureTooLow, .missingIcemap, .icemapMismatch, .missingProbes, .vetoSignal,
  .unmetRequirement]

/-- The name of a code. -/
def name : Code → String
  | .invalidTokenCharacters => "invalid_token_characters"
  | .freezeForbidsPass => "freeze_forbids_pass"
  | .iceFailForbidsPass => "ice_fail_forbids_pass"
  | .zdmMismatchForbidsPass => "zdm_mismatch_forbids_pass"
  | .missingEvidence => "missing_evidence"
  | .missingShot => "missing_shot"
  | .missingReport => "missing_report"
  | .unknownLoad => "unknown_load"
  | .missingPressure => "missing_pressure"
  | .pressureTooLow => "pressure_too_low"
  | .missingIcemap => "missing_icemap"
  | .icemapMismatch => "icemap_mismatch"
  | .missingProbes => "missing_probes"
  | .vetoSignal => "veto_signal"
  | .unmetRequirement => "unmet_requirement"

/-- The check to which a code belongs. -/
def check : Code → Check
  | .invalidTokenCharacters => .tokenCharset
  | .freezeForbidsPass | .iceFailForbidsPass | .zdmMismatchForbidsPass => .illegalCombo
  | .missingEvidence | .missingShot | .missingReport => .readyEvidence
  | .unknownLoad | .missingPressure | .pressureTooLow | .missingIcemap | .icemapMismatch
  | .missingProbes | .vetoSignal => .icemap
  | .unmetRequirement => .officialClaim

end Code

/-- The twelve requirements for an official claim. -/
inductive Requirement where
  | pass
  | env
  | run
  | runMustBe
  | iceMustBe
  | rgcaAllPlus
  | zdPlus
  | zdmPlus
  | thaletPlus
  | readyTier
  | bridgespecPlus
  | tbPlus
  deriving DecidableEq, Repr

namespace Requirement

/-- All requirements, in the order in which they are checked. -/
def all : List Requirement := [
  .pass, .env, .run, .runMustBe, .iceMustBe, .rgcaAllPlus, .zdPlus, .zdmPlus, .thaletPlus,
  .readyTier, .bridgespecPlus, .tbPlus]

/-- The key of a requirement in a policy document. -/
def key : Requirement → String
  | .pass => "require_pass"
  | .env => "env_required"
  | .run => "run_required"
  | .runMustBe => "run_must_be"
  | .iceMustBe => "ice_must_be"
  | .rgcaAllPlus => "require_rgca_all_plus"
  | .zdPlus => "require_zd_plus"
  | .zdmPlus => "require_zdm_plus"
  | .thaletPlus => "require_thalet_plus"
  | .readyTier => "require_ready_tier"
  | .bridgespecPlus => "require_bridgespec_plus"
  | .tbPlus => "require_tb_plus"

end Requirement
end Lint
end GlyphLine
