import Modbus.Register.Reading

/-!
# Histories

A `History` keeps the last readings of a register, as many as its descriptor says. The readings
stand in a ring of slots: the front is the slot that is written next, the back the one that was
written last, and writing over the front makes the oldest reading the newest. `History.toList` is
the content of the ring, oldest slot first: it begins with the front (`History.toList_eq_cons`),
ends with the back (`History.getLast?_toList`), and `History.advance` turns it by one
(`History.toList_advance`).

A `Snapshot` is what the readings of a history mean, apart from the ring.
-/

namespace Modbus

/-- The last readings of a register. -/
structure History where
  descriptor : Descriptor
  /-- The address under which the register is shown. -/
  address : UInt16
  slots : Array Reading
  /-- The front. -/
  cursor : Nat
  cursor_lt : cursor < slots.size

/-- What the readings of a register mean, oldest first. -/
structure Snapshot where
  address : UInt16
  name : String
  measurements : List Measurement
deriving DecidableEq, Repr

namespace History

/-- The empty history of a register. -/
def ofDescriptor (descriptor : Descriptor) : Except Violation History :=
  if h : 0 < descriptor.keep.toNat then
    .ok {
      descriptor
      address := descriptor.start
      slots := Array.replicate descriptor.keep.toNat (.unread descriptor)
      cursor := 0
      cursor_lt := by simpa using h }
  else .error (.noHistory descriptor.start)

/-- How many readings are kept. -/
def capacity (history : History) : Nat :=
  history.slots.size

theorem capacity_pos (history : History) : 0 < history.slots.size :=
  Nat.lt_of_le_of_lt (Nat.zero_le _) history.cursor_lt

/-- The slot that is written next. -/
def front (history : History) : Reading :=
  have := history.cursor_lt
  history.slots[history.cursor]

/-- The slot that was written last. -/
def back (history : History) : Reading :=
  have := history.cursor_lt
  -- before the first slot of the ring comes the last one
  if history.cursor = 0 then history.slots[history.slots.size - 1]
  else history.slots[history.cursor - 1]

/-- The slots from the oldest to the newest. -/
def toList (history : History) : List Reading :=
  history.slots.toList.drop history.cursor ++ history.slots.toList.take history.cursor

/-- The history with another reading in front. -/
def putFront (history : History) (reading : Reading) : History :=
  { history with
    slots := history.slots.set history.cursor reading history.cursor_lt
    cursor_lt := by simpa using history.cursor_lt }

/-- The front becomes the back. -/
def advance (history : History) : History :=
  { history with
    cursor := (history.cursor + 1) % history.slots.size
    cursor_lt := Nat.mod_lt _ history.capacity_pos }

/-- A reading is worth keeping: all are, or it differs from the one before. -/
def shouldRetain (history : History) (reading : Reading) : Bool :=
  !history.descriptor.changesOnly || !reading.agrees history.back

/-- Keep a reading if it is worth it, and say whether it was. -/
def record (history : History) (time : UInt32) (words : List UInt16) :
    Except Violation (Bool × History) := do
  let reading ← Reading.taken history.descriptor time words
  if history.shouldRetain reading then
    return (true, (history.putFront reading).advance)
  else
    return (false, history)

/-- Write the front. -/
def setFront (history : History) (time : UInt32) (words : List UInt16) :
    Except Violation History := do
  return history.putFront (← history.front.set time words)

/-- Change the time of the front. -/
def setFrontTime (history : History) (time : UInt32) : History :=
  history.putFront { history.front with time }

/-- Change the address under which the register is shown. -/
def setAddress (history : History) (address : UInt16) : History :=
  { history with address }

/-! ### What the changes do to the content -/

/-- The content has as many slots as the ring. -/
@[simp] theorem length_toList (history : History) : history.toList.length = history.capacity := by
  have := history.cursor_lt
  simp [toList, capacity]
  omega

/-- The front is the oldest slot. -/
theorem toList_eq_cons (history : History) :
    history.toList = history.front ::
      (history.slots.toList.drop (history.cursor + 1)
        ++ history.slots.toList.take history.cursor) := by
  have h : history.cursor < history.slots.toList.length := by simpa using history.cursor_lt
  simp [toList, front, List.drop_eq_getElem_cons h]

/-- The back is the newest slot. -/
theorem getLast?_toList (history : History) : history.toList.getLast? = some history.back := by
  have h := history.cursor_lt
  by_cases h0 : history.cursor = 0
  · simp [toList, back, h0, List.getLast?_eq_getElem?]
  · have htake : (history.slots.toList.take history.cursor).getLast? =
        some (history.slots[history.cursor - 1]) := by
      rw [List.getLast?_take, if_neg h0]
      simp [show history.cursor - 1 < history.slots.size by omega]
    simp [toList, back, h0, List.getLast?_append, htake]

/-- Writing the front changes the oldest slot only. -/
theorem toList_putFront (history : History) (reading : Reading) :
    (history.putFront reading).toList = reading :: history.toList.tail := by
  have htake : (history.slots.toList.take history.cursor).set history.cursor reading =
      history.slots.toList.take history.cursor :=
    List.set_eq_of_length_le (List.length_take_le _ _)
  rw [toList_eq_cons, toList_eq_cons]
  simp [putFront, front, List.drop_set, List.take_set, htake]

/-- Going on makes the oldest slot the newest. -/
theorem toList_advance (history : History) :
    history.advance.toList = history.toList.tail ++ [history.front] := by
  have h := history.cursor_lt
  have htake : history.slots.toList.take (history.cursor + 1) =
      history.slots.toList.take history.cursor ++ [history.front] := by
    rw [List.take_add_one]
    simp [front, h]
  rw [toList_eq_cons history, List.tail_cons, List.append_assoc, ← htake]
  by_cases hwrap : history.cursor + 1 = history.slots.size
  · simp [toList, advance, hwrap, List.drop_eq_nil_of_le, List.take_of_length_le]
  · simp [toList, advance, Nat.mod_eq_of_lt (show history.cursor + 1 < history.slots.size by omega)]

/-! ### Steps -/

/-- A change of a history. -/
inductive Step where
  | record (time : UInt32) (words : List UInt16)
  | setFront (time : UInt32) (words : List UInt16)
  | setFrontTime (time : UInt32)
  | advance
  | setAddress (address : UInt16)
deriving DecidableEq, Repr

/-- The history after a step, and whether a reading was recorded. A step that breaks a promise
changes nothing. -/
def perform (history : History) : Step → Except Violation Bool × History
  | .record time words =>
    match history.record time words with
    | .ok (kept, history) => (.ok kept, history)
    | .error e => (.error e, history)
  | .setFront time words =>
    match history.setFront time words with
    | .ok history => (.ok false, history)
    | .error e => (.error e, history)
  | .setFrontTime time => (.ok false, history.setFrontTime time)
  | .advance => (.ok false, history.advance)
  | .setAddress address => (.ok false, history.setAddress address)

/-- The history after a list of steps. -/
def run (history : History) (steps : List Step) : History :=
  steps.foldl (fun history step => (history.perform step).2) history

/-! ### Reading a history -/

/-- The readings of a register that was read, oldest first. -/
def valid (history : History) : List Reading :=
  history.toList.filter Reading.isValid

/-- What the readings mean. -/
def measurements (history : History) : Except Violation (List Measurement) :=
  history.valid.mapM Reading.measurement

/-- What the readings mean, apart from the ring. -/
def snapshot (history : History) : Except Violation Snapshot := do
  return {
    address := history.address
    name := history.descriptor.name
    measurements := ← history.measurements }

/-- The history on a line: address, name, and what the readings mean. -/
def text (history : History) : Except Violation String := do
  let measurements ← history.measurements
  return "  " ++ Text.hex 4 history.address.toNat ++ "  " ++ Text.padTo 32 history.descriptor.name
    ++ " :" ++ String.join (measurements.map fun m => " " ++ m.value.text)

end History

end Modbus
