import Modbus.Text.Display

/-!
# What can go wrong on the line

`ExceptionCode` is what a device answers instead of a regular reply, `WireError` every way in
which building or reading a frame fails. `WireError.message` is the one place that words them.
-/

namespace Modbus

/-- The reason a device gives for refusing a command. -/
inductive ExceptionCode where
  | illegalFunction
  | illegalDataAddress
  | illegalDataValue
  | slaveDeviceFailure
  | acknowledge
  | slaveDeviceBusy
  | negativeAcknowledge
  | memoryParityError
  | gatewayPathUnavailable
  | gatewayTargetFailed
  | unknown (code : UInt8)
deriving DecidableEq, Repr

namespace ExceptionCode

/-- The exception that a code byte stands for; nine and everything above eleven are unassigned. -/
def ofByte (code : UInt8) : ExceptionCode :=
  match code.toNat with
  | 1 => illegalFunction
  | 2 => illegalDataAddress
  | 3 => illegalDataValue
  | 4 => slaveDeviceFailure
  | 5 => acknowledge
  | 6 => slaveDeviceBusy
  | 7 => negativeAcknowledge
  | 8 => memoryParityError
  | 10 => gatewayPathUnavailable
  | 11 => gatewayTargetFailed
  | _ => unknown code

/-- The wording of an exception. -/
def message : ExceptionCode → String
  | illegalFunction => "MODBUS ERROR CODE 01 - ILLEGAL FUNCTION"
  | illegalDataAddress => "MODBUS ERROR CODE 02 - ILLEGAL DATA ADDRESS"
  | illegalDataValue => "MODBUS ERROR CODE 03 - ILLEGAL DATA VALUE"
  | slaveDeviceFailure => "MODBUS ERROR CODE 04 - SLAVE DEVICE FAILURE"
  | acknowledge => "MODBUS ERROR CODE 05 - ACKNOWLEDGE"
  | slaveDeviceBusy => "MODBUS ERROR CODE 06 - SLAVE DEVICE BUSY"
  | negativeAcknowledge => "MODBUS ERROR CODE 07 - NEGATIVE ACKNOWLEDGE"
  | memoryParityError => "MODBUS ERROR CODE 08 - MEMORY PARITY ERROR"
  | gatewayPathUnavailable => "MODBUS ERROR CODE 10 - GATEWAY PATH UNAVAILABLE"
  | gatewayTargetFailed => "MODBUS ERROR CODE 11 - GATEWAY TARGET DEVICE FAILED TO RESPOND"
  | unknown code => "UNKNOWN MODBUS ERROR CODE " ++ (Text.hexDigits 2 code.toNat).toUpper

end ExceptionCode

/-- A failure to build a frame or to accept one. -/
inductive WireError where
  /-- The bytes do not fit. -/
  | outOfBuffer
  /-- A frame of another length was due. -/
  | frameLength (expected actual : Nat)
  /-- The check at the end does not belong to the bytes before it. -/
  | crcMismatch (computed received : UInt16)
  /-- A field does not hold what the command implies. -/
  | badResponse (field : String) (expected actual : UInt32)
  /-- More was asked for than there is. -/
  | underflow (what : String)
  /-- The device refused the command. -/
  | exception (function : UInt8) (code : ExceptionCode)
deriving DecidableEq, Repr

/-- The wording of a failure. -/
def WireError.message : WireError → String
  | outOfBuffer => "OUT OF BUFFER"
  | frameLength expected actual =>
    s!"FRAME LENGTH ERROR: expected {expected} bytes, got {actual}"
  | crcMismatch computed received =>
    "FRAME CRC ERROR: computed " ++ Text.hex 4 computed.toNat ++ ", received "
      ++ Text.hex 4 received.toNat
  | badResponse field expected actual =>
    "BAD RESPONSE: " ++ field ++ " expected " ++ Text.hex 1 expected.toNat ++ ", got "
      ++ Text.hex 1 actual.toNat
  | underflow what => "UNDERFLOW: " ++ what
  | exception function code =>
    "MODBUS EXCEPTION ON FUNCTION " ++ Text.hex 2 function.toNat ++ ": " ++ code.message

/-- A field of a reply must hold the value that the command implies. -/
def checkField (field : String) (actual expected : UInt32) : Except WireError Unit :=
  if actual = expected then .ok () else .error (.badResponse field expected actual)

/-- A field passes exactly when it holds the expected value. -/
@[simp] theorem checkField_eq_ok_iff {field : String} {actual expected : UInt32} {u : Unit} :
    checkField field actual expected = .ok u ↔ actual = expected := by
  unfold checkField
  split <;> simp [*]

end Modbus
