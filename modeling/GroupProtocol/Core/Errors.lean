import Mathlib.Data.Nat.Notation

/-!
# Error registry

The canonical base-layer error codes with their class, retryability and fatality.
The registry is authoritative: an emitted error of a known code takes all three
attributes from here, whatever its call site passed.
-/

namespace GroupProtocol

/-- Coarse classification of an error. -/
inductive ErrorClass
  | transport
  | crypto
  | state
  | policy
  | schema
  | authz
  deriving DecidableEq, Repr

namespace ErrorClass

/-- The single byte on the wire. -/
def asU8 : ErrorClass → UInt8
  | transport => 0x01
  | crypto => 0x02
  | state => 0x03
  | policy => 0x04
  | schema => 0x05
  | authz => 0x06

theorem asU8_injective : Function.Injective asU8 := by
  intro c c' h
  cases c <;> cases c' <;> simp_all [asU8]

end ErrorClass

namespace Codes

def unsupportedVersion : UInt16 := 0x0001
def unknownGroup : UInt16 := 0x0002
def epochMismatch : UInt16 := 0x0003
def transitionMismatch : UInt16 := 0x0004
def replayDetected : UInt16 := 0x0005
def decryptFailed : UInt16 := 0x0006
def commitInvalid : UInt16 := 0x0007
def streamPolicyViolation : UInt16 := 0x0008
def transitionInProgress : UInt16 := 0x0009
def prepareTimeout : UInt16 := 0x0010
def readyTimeout : UInt16 := 0x0011
def executeTimeout : UInt16 := 0x0012
def coordinatorGone : UInt16 := 0x0013
def digestMismatch : UInt16 := 0x0014
def gapBadSourceId : UInt16 := 0x1001
def gapDecodeFailed : UInt16 := 0x1002
def gapAuthFailed : UInt16 := 0x1003
def gapReplayDetected : UInt16 := 0x1004
def gapEpochStale : UInt16 := 0x1005
def gapKeyPhaseUnknown : UInt16 := 0x1006
def gtpBadLength : UInt16 := 0x2001
def gtpUnsupportedContentType : UInt16 := 0x2002
def gtpDuplicateMessage : UInt16 := 0x2003
def gtpPolicyRejected : UInt16 := 0x2004
def gtpAttachmentIntegrity : UInt16 := 0x2005
def gtpRequestTimeout : UInt16 := 0x2006
def gspBadSchema : UInt16 := 0x3001
def gspUnauthorized : UInt16 := 0x3002
def gspUnknownSignal : UInt16 := 0x3003
def gspDuplicateRequest : UInt16 := 0x3004
def gspStateConflict : UInt16 := 0x3005
def gspPreconditionFailed : UInt16 := 0x3006

end Codes

/-- A registry entry: a code with its class and its retry and fatality semantics. -/
structure ErrorSpec where
  code : UInt16
  errorClass : ErrorClass
  retryable : Bool
  fatal : Bool
  name : String
  deriving DecidableEq, Repr

open Codes in
/-- Every registered entry. -/
def errorRegistry : List ErrorSpec :=
  [⟨unsupportedVersion, .schema, false, true, "ERR_UNSUPPORTED_VERSION"⟩,
    ⟨unknownGroup, .state, false, true, "ERR_UNKNOWN_GROUP"⟩,
    ⟨epochMismatch, .state, true, false, "ERR_EPOCH_MISMATCH"⟩,
    ⟨transitionMismatch, .state, true, false, "ERR_TRANSITION_MISMATCH"⟩,
    ⟨replayDetected, .crypto, false, false, "ERR_REPLAY_DETECTED"⟩,
    ⟨decryptFailed, .crypto, true, false, "ERR_DECRYPT_FAILED"⟩,
    ⟨commitInvalid, .crypto, false, true, "ERR_COMMIT_INVALID"⟩,
    ⟨streamPolicyViolation, .policy, false, false, "ERR_STREAM_POLICY_VIOLATION"⟩,
    ⟨transitionInProgress, .state, false, false, "ERR_TRANSITION_IN_PROGRESS"⟩,
    ⟨prepareTimeout, .state, true, false, "ERR_PREPARE_TIMEOUT"⟩,
    ⟨readyTimeout, .state, true, false, "ERR_READY_TIMEOUT"⟩,
    ⟨executeTimeout, .state, true, false, "ERR_EXECUTE_TIMEOUT"⟩,
    ⟨coordinatorGone, .state, true, false, "ERR_COORDINATOR_GONE"⟩,
    ⟨digestMismatch, .state, false, true, "ERR_DIGEST_MISMATCH"⟩,
    ⟨gapBadSourceId, .schema, false, false, "ERR_GAP_BAD_SOURCE_ID"⟩,
    ⟨gapDecodeFailed, .schema, false, false, "ERR_GAP_DECODE_FAILED"⟩,
    ⟨gapAuthFailed, .crypto, false, false, "ERR_GAP_AUTH_FAILED"⟩,
    ⟨gapReplayDetected, .crypto, false, false, "ERR_GAP_REPLAY_DETECTED"⟩,
    ⟨gapEpochStale, .crypto, false, false, "ERR_GAP_EPOCH_STALE"⟩,
    ⟨gapKeyPhaseUnknown, .crypto, false, false, "ERR_GAP_KEY_PHASE_UNKNOWN"⟩,
    ⟨gtpBadLength, .schema, false, false, "ERR_GTP_BAD_LENGTH"⟩,
    ⟨gtpUnsupportedContentType, .schema, false, false, "ERR_GTP_UNSUPPORTED_CONTENT_TYPE"⟩,
    ⟨gtpDuplicateMessage, .policy, false, false, "ERR_GTP_DUPLICATE_MESSAGE"⟩,
    ⟨gtpPolicyRejected, .policy, false, false, "ERR_GTP_POLICY_REJECTED"⟩,
    ⟨gtpAttachmentIntegrity, .schema, false, false, "ERR_GTP_ATTACHMENT_INTEGRITY"⟩,
    ⟨gtpRequestTimeout, .state, true, false, "ERR_GTP_REQUEST_TIMEOUT"⟩,
    ⟨gspBadSchema, .schema, false, false, "ERR_GSP_BAD_SCHEMA"⟩,
    ⟨gspUnauthorized, .authz, false, false, "ERR_GSP_UNAUTHORIZED"⟩,
    ⟨gspUnknownSignal, .schema, false, false, "ERR_GSP_UNKNOWN_SIGNAL"⟩,
    ⟨gspDuplicateRequest, .policy, false, false, "ERR_GSP_DUPLICATE_REQUEST"⟩,
    ⟨gspStateConflict, .state, true, false, "ERR_GSP_STATE_CONFLICT"⟩,
    ⟨gspPreconditionFailed, .state, false, false, "ERR_GSP_PRECONDITION_FAILED"⟩]

/-- The entry of a known code. -/
def ErrorSpec.lookup (code : UInt16) : Option ErrorSpec :=
  errorRegistry.find? fun spec => spec.code == code

/-- A looked-up entry carries the code it was looked up under. -/
theorem ErrorSpec.lookup_code {code : UInt16} {spec : ErrorSpec}
    (h : ErrorSpec.lookup code = some spec) : spec.code = code := by
  have hp := List.find?_some h
  exact beq_iff_eq.mp hp

end GroupProtocol
