import Modbus.Frame.Basic

/-!
# Sessions on a frame

A `Frame.Action` is one step that a user of a frame may take, with its arguments; `Frame.perform`
takes it and `Frame.session` takes a list of them, each from the frame that the one before left
behind, whether that one failed or not.
-/

namespace Modbus.Frame

/-- A step on a frame with its arguments. -/
inductive Action where
  | byte (value : UInt8)
  | word (value : UInt16)
  | words (values : List UInt16)
  | write (data : List UInt8)
  | patch (index : Nat) (value : UInt8)
  | close
  | load (data : List UInt8)
  | clear
  | validate
  | takeByte (field : String)
  | takeWord (field : String)
  | takeWords (field : String) (count : Nat)
deriving DecidableEq, Repr

/-- What a successful step hands out. -/
inductive Outcome where
  | done
  | byte (value : UInt8)
  | word (value : UInt16)
  | words (values : List UInt16)
deriving DecidableEq, Repr

variable {capacity : Nat}

/-- The action as a step of the codec. -/
def Action.step : Action → Codec capacity Outcome
  | .byte value => do Codec.byte value; return .done
  | .word value => do Codec.word value; return .done
  | .words values => do Codec.words values; return .done
  | .write data => do Codec.write data; return .done
  | .patch index value => do Codec.patch index value; return .done
  | .close => do Codec.close; return .done
  | .load data => do Codec.load data; return .done
  | .clear => do Codec.clear; return .done
  | .validate => do Codec.validate; return .done
  | .takeByte field => do return .byte (← Codec.takeByte field)
  | .takeWord field => do return .word (← Codec.takeWord field)
  | .takeWords field count => do return .words (← Codec.takeWords field count)

/-- The outcome of an action and the frame after it. -/
def perform (frame : Frame capacity) (action : Action) :
    Except WireError Outcome × Frame capacity :=
  (action.step : Codec capacity Outcome).exec frame

/-- The outcomes of a list of actions, each with the frame after it. -/
def session (frame : Frame capacity) :
    List Action → List (Except WireError Outcome × Frame capacity)
  | [] => []
  | action :: actions =>
    let result := frame.perform action
    result :: session result.2 actions

/-- The frame after a list of actions. -/
def run (frame : Frame capacity) (actions : List Action) : Frame capacity :=
  actions.foldl (fun frame action => (frame.perform action).2) frame

end Modbus.Frame
