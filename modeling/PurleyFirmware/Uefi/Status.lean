import Mathlib.Logic.Basic

/-!
# Status codes

The status codes that the modelled services return. `EFI_STATUS` and `RETURN_STATUS` are the same
type in the source, so one enumeration serves every subsystem; it lists the codes the modelled
functions produce and no others.
-/

namespace PurleyFirmware

/-- Status codes returned by the modelled services. -/
inductive EfiStatus
  | success
  | invalidParameter
  | unsupported
  | notReady
  | outOfResources
  | accessDenied
  | notFound
  | timeout
  | aborted
  | alreadyStarted
  | writeProtected
  deriving DecidableEq, Repr

namespace EfiStatus

/-- The error test of the source: every code but success is an error. -/
def isError : EfiStatus → Bool
  | success => false
  | _ => true

@[simp] theorem isError_eq_false_iff {status : EfiStatus} :
    status.isError = false ↔ status = success := by
  cases status <;> simp [isError]

end EfiStatus

end PurleyFirmware
