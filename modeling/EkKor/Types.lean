import Mathlib.Data.Vector.Defs
import Mathlib.Tactic.Common
import Mathlib.Logic.Function.Basic

/-!
# Base types and configuration

The types of `ekk_types.h` that the modelled code uses, at their own widths, and the default
configuration constants.  The configuration macros keep their default values.
-/

namespace EkKor

/-- `ekk_module_id_t` (0 = invalid) -/
abbrev ModuleId := UInt8

/-- `ekk_ballot_id_t` -/
abbrev BallotId := UInt16

/-- `ekk_time_us_t` -/
abbrev TimeUs := UInt64

/-- `ekk_fixed_t`, a signed Q16.16 number (only compared, never added up, where it is an `Int`) -/
abbrev Fixed := Int

/-! ## constants -/

abbrev kNeighbors : Nat := 7
abbrev maxBallots : Nat := 4
abbrev voteTimeoutUs : TimeUs := 50000
abbrev fixedOne : Fixed := 65536
abbrev invalidModuleId : ModuleId := 0
abbrev invalidBallotId : BallotId := 0
abbrev broadcastId : ModuleId := 0xFF

/-! ## error codes -/

/-- the failures of `ekk_error_t`; `EKK_OK` is `Except.ok` -/
inductive Err where
  | invalidArg
  | noMemory
  | timeout
  | busy
  | notFound
  | alreadyExists
  | noQuorum
  | inhibited
  | neighborLost
  | fieldExpired
  | halFailure
  | notSupported
  | limit
  deriving DecidableEq, Repr

/-! ## votes -/

/-- `ekk_vote_value_t` -/
inductive VoteValue where
  | abstain
  | yes
  | no
  | inhibit
  deriving DecidableEq, Repr, Inhabited

/-- `ekk_vote_result_t` -/
inductive VoteResult where
  | pending
  | approved
  | rejected
  | timeout
  | cancelled
  deriving DecidableEq, Repr, Inhabited

end EkKor
