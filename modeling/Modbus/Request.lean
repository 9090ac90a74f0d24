import Modbus.Command

/-!
# Requests

A `Request` is a command for one device together with the frame that it was last written to.
`Request.encode` writes the frame anew; it may pad the command, and a failed one leaves the frame
as far as it came. `Request.perform` takes one step of a user of a request, `Request.session` a
list of them.
-/

namespace Modbus

/-- A command on its way to a device. -/
structure Request where
  device : UInt8
  command : Command
  /-- The request as it was last written; empty before. -/
  frame : Frame maxFrameLen := {}
deriving DecidableEq, Repr

namespace Request

/-- The bytes of a request: device, function and body, closed by the check. -/
def layOut (device : UInt8) (command : Command) : Codec maxFrameLen Unit := do
  Codec.clear
  Codec.byte device
  command.write
  Codec.close

/-- Write the request into its frame. -/
def encode (request : Request) : Except WireError Unit × Request :=
  match request.command.prepare with
  | .error e => (.error e, request)
  | .ok command =>
    let (outcome, frame) := (layOut request.device command).exec request.frame
    (outcome, { request with command, frame })

/-- A step of a user of a request. -/
inductive Step where
  | setDevice (device : UInt8)
  | setAddress (address : UInt16)
  | setCount (count : UInt16)
  | setValue (value : UInt16)
  | append (data : List UInt8)
  | encode
deriving DecidableEq, Repr

/-- The outcome of a step and the request after it. -/
def perform (request : Request) : Step → Except WireError Unit × Request
  | .setDevice device => (.ok (), { request with device })
  | .setAddress address => (.ok (), { request with command := request.command.setAddress address })
  | .setCount count => (.ok (), { request with command := request.command.setCount count })
  | .setValue value => (.ok (), { request with command := request.command.setValue value })
  | .append data =>
    match request.command.append data with
    | .ok command => (.ok (), { request with command })
    | .error e => (.error e, request)
  | .encode => request.encode

/-- The outcomes of a list of steps, each with the request after it. -/
def session (request : Request) : List Step → List (Except WireError Unit × Request)
  | [] => []
  | step :: steps =>
    let result := request.perform step
    result :: session result.2 steps

/-- The request after a list of steps. -/
def run (request : Request) (steps : List Step) : Request :=
  steps.foldl (fun request step => (request.perform step).2) request

end Request

end Modbus
