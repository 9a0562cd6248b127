import StandaloneMm.Hex

/-!
The errors of a secure partition call and the 64-bit status codes that carry them across firmware
interfaces. A code without a name of its own is kept whole, so no status is lost on the way.
-/
namespace StandaloneMm

inductive Error where
  | invalidParameter
  | unsupported
  | badBufferSize
  | bufferTooSmall
  | deviceError
  | outOfResources
  | notFound
  | accessDenied
  | alreadyStarted
  | aborted
  | unknown (status : UInt64)
  deriving DecidableEq, Repr

namespace Error

def named : List Error :=
  [invalidParameter, unsupported, badBufferSize, bufferTooSmall, deviceError, outOfResources,
    notFound, accessDenied, alreadyStarted, aborted]

/-- The numbers that a firmware interface has for success and for the errors with a name. -/
structure Codes where
  success : UInt64
  invalidParameter : UInt64
  unsupported : UInt64
  badBufferSize : UInt64
  bufferTooSmall : UInt64
  deviceError : UInt64
  outOfResources : UInt64
  notFound : UInt64
  accessDenied : UInt64
  alreadyStarted : UInt64
  aborted : UInt64

namespace Codes

def status (c : Codes) : Error → UInt64
  | .invalidParameter => c.invalidParameter
  | .unsupported => c.unsupported
  | .badBufferSize => c.badBufferSize
  | .bufferTooSmall => c.bufferTooSmall
  | .deviceError => c.deviceError
  | .outOfResources => c.outOfResources
  | .notFound => c.notFound
  | .accessDenied => c.accessDenied
  | .alreadyStarted => c.alreadyStarted
  | .aborted => c.aborted
  | .unknown status => status

/-- The way back: which status stands for which error. -/
def table (c : Codes) : List (UInt64 × Error) :=
  [(c.invalidParameter, .invalidParameter), (c.unsupported, .unsupported),
    (c.badBufferSize, .badBufferSize), (c.bufferTooSmall, .bufferTooSmall),
    (c.deviceError, .deviceError), (c.outOfResources, .outOfResources), (c.notFound, .notFound),
    (c.accessDenied, .accessDenied), (c.alreadyStarted, .alreadyStarted), (c.aborted, .aborted)]

/-- The error that the table has for a status, or the status itself. Success is no name either. -/
def ofStatus (c : Codes) (status : UInt64) : Error :=
  match c.table.find? (·.1 = status) with
  | some entry => entry.2
  | none => .unknown status

/-- A status is a result: success, or the error that has it. -/
def resultOfStatus (c : Codes) (status : UInt64) : Except Error Unit :=
  if status = c.success then .ok () else .error (c.ofStatus status)

end Codes

/-- Error codes have the top bit set. -/
def code (number : UInt64) : UInt64 := 0x8000000000000000 ||| number

def efi : Codes where
  success := 0
  invalidParameter := code 2
  unsupported := code 3
  badBufferSize := code 4
  bufferTooSmall := code 5
  deviceError := code 7
  outOfResources := code 9
  notFound := code 14
  accessDenied := code 15
  alreadyStarted := code 20
  aborted := code 21

def status (e : Error) : UInt64 := efi.status e

def ofStatus (status : UInt64) : Error := efi.ofStatus status

def resultOfStatus (status : UInt64) : Except Error Unit := efi.resultOfStatus status

def name : Error → String
  | invalidParameter => "InvalidParameter"
  | unsupported => "Unsupported"
  | badBufferSize => "BadBufferSize"
  | bufferTooSmall => "BufferTooSmall"
  | deviceError => "DeviceError"
  | outOfResources => "OutOfResources"
  | notFound => "NotFound"
  | accessDenied => "AccessDenied"
  | alreadyStarted => "AlreadyStarted"
  | aborted => "Aborted"
  | unknown status => "Unknown(" ++ Hex.lowerMarked status.toNat ++ ")"

end Error

/-- What stops a call for good: one that meets it does not return. -/
inductive Assertion where
  /-- The partition ran out of memory for a request that had passed every local check. -/
  | outOfMemory
  | unexpectedStatus (status : UInt64)
  /-- More bytes were asked for than any allocation can have. -/
  | capacityOverflow
  deriving DecidableEq, Repr

def Assertion.text : Assertion → String
  | outOfMemory => "MM partition out of memory for a request that passed local checks"
  | unexpectedStatus status => "Unexpected MM status " ++ Hex.upperMarked status.toNat
  | capacityOverflow => "capacity overflow"

/-- How a call can end badly: with an error for its caller, or in a failed assertion. -/
inductive Fault where
  | error (e : Error)
  | assertion (a : Assertion)
  deriving DecidableEq, Repr

end StandaloneMm
