import Modbus.Map.Loader
import Modbus.Receiver
import Modbus.Request

/-!
# Polling registers

A `Monitor` reads registers of devices and keeps their histories, one for every register of every
device that has answered. `Monitor.poll` is one exchange: look the register up, write the request,
take the reply apart, record the words. An exchange that fails changes nothing.
-/

namespace Modbus

/-- A register of a device. -/
structure Point where
  address : UInt8
  register : UInt16
deriving DecidableEq, Repr

/-- Registers are numbered device by device. -/
instance : Numbered Point where
  number point := 65536 * point.address.toNat + point.register.toNat
  number_inj {a b} h := by
    have ha := a.register.toNat_lt
    have hb := b.register.toNat_lt
    obtain ⟨address, register⟩ := a
    obtain ⟨address', register'⟩ := b
    simp only [Point.mk.injEq, ← UInt8.toNat_inj, ← UInt16.toNat_inj] at *
    omega

/-- Why an exchange failed. -/
inductive PollError where
  | lookup (error : LookupError)
  | wire (error : WireError)
  | violation (violation : Violation)
deriving DecidableEq, Repr

/-- An exchange that went well. -/
structure Exchange where
  request : List UInt8
  /-- The reading was worth keeping. -/
  recorded : Bool
  /-- The history after the exchange. -/
  shown : String
deriving DecidableEq, Repr

/-- Maps of devices and the histories of their registers. -/
structure Monitor where
  database : Database
  histories : Table Point History := {}

/-- The words of registers that a reply carries. -/
def Reply.words : Reply → List UInt16
  | holding _ words => words
  | _ => []

namespace Monitor

/-- The history of a register, an empty one if the device never answered. -/
def history (monitor : Monitor) (point : Point) (descriptor : Descriptor) :
    Except Violation History :=
  match monitor.histories.find? point with
  | some history => .ok history
  | none => History.ofDescriptor descriptor

/-- The words of a register and the request for them, from the reply of the device. -/
def exchange (device : UInt8) (register : UInt16) (descriptor : Descriptor)
    (reply : List UInt8) : Except WireError (List UInt8 × List UInt16) := do
  let (outcome, request) :=
    Request.encode { device, command := .readHolding register descriptor.length }
  outcome
  -- as many words must come back as the register is wide
  let expected ← Reply.ofReadHolding device descriptor.length
  let received ← expected.decode reply
  return (request.frame.bytes, received.words)

/-- Read a register of a device, and record what the device replied. -/
def poll (monitor : Monitor) (point : Point) (time : UInt32) (reply : List UInt8) :
    Except PollError (Exchange × Monitor) := do
  let map ← (monitor.database.mapAt point.address).mapError .lookup
  let descriptor ← (map.register point.register).mapError .lookup
  let (request, words) ← (exchange point.address point.register descriptor reply).mapError .wire
  let history ← (monitor.history point descriptor).mapError .violation
  let (recorded, history) ← (history.record time words).mapError .violation
  let shown ← history.text.mapError .violation
  return ({ request, recorded, shown },
    { monitor with histories := monitor.histories.insert point history })

/-- One exchange of a run of exchanges. -/
structure Attempt where
  point : Point
  time : UInt32
  reply : List UInt8
deriving DecidableEq, Repr

/-- The outcome of an exchange and the monitor after it. -/
def attempt (monitor : Monitor) (attempt : Attempt) : Except PollError Exchange × Monitor :=
  match monitor.poll attempt.point attempt.time attempt.reply with
  | .ok (exchange, monitor) => (.ok exchange, monitor)
  | .error e => (.error e, monitor)

/-- The outcomes of a run of exchanges. -/
def outcomes (monitor : Monitor) : List Attempt → List (Except PollError Exchange)
  | [] => []
  | next :: attempts =>
    let (outcome, monitor) := monitor.attempt next
    outcome :: monitor.outcomes attempts

/-- The monitor after a run of exchanges. -/
def run (monitor : Monitor) (attempts : List Attempt) : Monitor :=
  attempts.foldl (fun monitor next => (monitor.attempt next).2) monitor

end Monitor

end Modbus
