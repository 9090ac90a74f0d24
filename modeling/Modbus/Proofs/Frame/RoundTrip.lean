import Mathlib.Data.List.Induction
import Modbus.Proofs.Frame.Actions

/-!
# Reading undoes writing

A message is written as a list of items, front to back, and closed; it is read item by item from its
end. `Frame.run_written` and `Frame.run_taken` say what a frame is after each half: the items of a
message stand one behind the other, and reading moves the unread part back over them, handing out
the last item first. So whoever accepts the message gets the items back in reverse order
(`Frame.taking_undoes_writing`), also where the message has the length of a refusal.
-/

namespace Modbus.Frame

variable {capacity : Nat}

/-! ### Items of a message -/

/-- What is written into a message in one step. -/
inductive Item where
  | byte (value : UInt8)
  | word (value : UInt16)
  | words (values : List UInt16)
deriving DecidableEq, Repr

namespace Item

/-- How an item stands in a message. -/
def bytes : Item → List UInt8
  | byte value => [value]
  | word value => wordBytes value
  | words values => wordsBytes values

/-- The action that writes an item. -/
def written : Item → Action
  | byte value => .byte value
  | word value => .word value
  | words values => .words values

/-- The action that reads an item of the same kind and size into a field. -/
def taken (field : String) : Item → Action
  | byte _ => .takeByte field
  | word _ => .takeWord field
  | words values => .takeWords field values.length

/-- What reading an item hands out. -/
def value : Item → Outcome
  | byte value => .byte value
  | word value => .word value
  | words values => .words values

end Item

/-- How the fields of a message stand in it. -/
def layout (fields : List (String × Item)) : List UInt8 :=
  fields.flatMap fun field => field.2.bytes

@[simp] theorem layout_nil : layout [] = [] := rfl

@[simp] theorem layout_cons (field : String × Item) (fields : List (String × Item)) :
    layout (field :: fields) = field.2.bytes ++ layout fields := rfl

theorem layout_concat (fields : List (String × Item)) (field : String × Item) :
    layout (fields ++ [field]) = layout fields ++ field.2.bytes := by
  simp [layout]

/-! ### Writing -/

theorem perform_written (frame : Frame capacity) {item : Item}
    (hroom : frame.bytes.length + item.bytes.length ≤ capacity) :
    frame.perform item.written =
      (.ok .done, { frame with bytes := frame.bytes ++ item.bytes }) := by
  cases item with
  | byte value => exact (perform_of_appended rfl).trans (if_pos hroom)
  | word value => exact (perform_of_appended rfl).trans (if_pos hroom)
  | words values =>
    rw [Item.bytes, length_wordsBytes] at hroom
    rw [Item.written, perform_words, if_pos (by omega), Item.bytes]

/-- **Items are written** one behind the other, if there is room for all of them. -/
theorem run_written (frame : Frame capacity) {fields : List (String × Item)}
    (hroom : frame.bytes.length + (layout fields).length ≤ capacity) :
    (frame.outcomes (fields.map fun field => field.2.written) = fields.map fun _ => .ok .done) ∧
      frame.run (fields.map fun field => field.2.written) =
        { frame with bytes := frame.bytes ++ layout fields } := by
  induction fields generalizing frame with
  | nil => exact ⟨rfl, by rw [layout_nil, List.append_nil]; rfl⟩
  | cons field fields ih =>
    rw [layout_cons, List.length_append] at hroom
    have hfirst : frame.bytes.length + field.2.bytes.length ≤ capacity := by omega
    have hrest : (frame.bytes ++ field.2.bytes).length + (layout fields).length ≤ capacity := by
      rw [List.length_append]
      omega
    obtain ⟨houtcomes, hrun⟩ := ih { frame with bytes := frame.bytes ++ field.2.bytes } hrest
    rw [List.map_cons, List.map_cons, outcomes_cons, run_cons, perform_written frame hfirst,
      houtcomes, hrun, layout_cons, List.append_assoc]
    exact ⟨rfl, rfl⟩

/-! ### Reading -/

theorem perform_taken (field : String) (item : Item) (expectedLen : Nat)
    (front done : List UInt8) :
    (opened expectedLen (front ++ item.bytes) done : Frame capacity).perform (item.taken field) =
      (.ok item.value, .opened expectedLen front (item.bytes ++ done)) := by
  cases item with
  | byte value =>
    refine (Codec.exec_bind_pure _ _ _).trans ?_
    rw [Item.bytes, Codec.exec_takeByte_opened]
    rfl
  | word value =>
    refine (Codec.exec_bind_pure _ _ _).trans ?_
    rw [Item.bytes, Codec.exec_takeWord_opened]
    rfl
  | words values =>
    refine (Codec.exec_bind_pure _ _ _).trans ?_
    rw [Item.bytes, Codec.exec_takeWords_opened _ _ _ (length_wordsBytes values),
      wordsOfBytes_wordsBytes]
    rfl

/-- **Items are read** last first, and the unread part ends where the first of them began. -/
theorem run_taken (fields : List (String × Item)) (expectedLen : Nat) (front done : List UInt8) :
    ((opened expectedLen (front ++ layout fields) done : Frame capacity).outcomes
        (fields.reverse.map fun field => field.2.taken field.1) =
      fields.reverse.map fun field => .ok field.2.value) ∧
    (opened expectedLen (front ++ layout fields) done : Frame capacity).run
        (fields.reverse.map fun field => field.2.taken field.1) =
      opened expectedLen front (layout fields ++ done) := by
  -- the last item is the first that is read
  induction fields using List.reverseRecOn generalizing done with
  | nil => exact ⟨rfl, by rw [layout_nil, List.append_nil]; rfl⟩
  | append_singleton fields field ih =>
    obtain ⟨houtcomes, hrun⟩ := ih (field.2.bytes ++ done)
    rw [List.reverse_concat, List.map_cons, List.map_cons, outcomes_cons, run_cons, layout_concat,
      ← List.append_assoc, perform_taken, houtcomes, hrun, List.append_assoc]
    exact ⟨rfl, rfl⟩

/-! ### A whole message -/

/-- The actions that write a message. -/
def writing (fields : List (String × Item)) : List Action :=
  (fields.map fun field => field.2.written) ++ [.close]

/-- The actions that accept a message. -/
def accepting (message : List UInt8) : List Action :=
  [.load message, .validate]

/-- The actions that read the fields of a message, from the last to the first. -/
def taking (fields : List (String × Item)) : List Action :=
  fields.reverse.map fun field => field.2.taken field.1

/-- A message that fits is written without a failure, and sealed. -/
theorem run_writing {fields : List (String × Item)}
    (hfits : (layout fields).length + crcLen ≤ capacity) :
    (({} : Frame capacity).outcomes (writing fields) = (writing fields).map fun _ => .ok .done) ∧
      ({} : Frame capacity).run (writing fields) = { bytes := sealed (layout fields) } := by
  have hroom : ([] : List UInt8).length + (layout fields).length ≤ capacity := by
    rw [List.length_nil]
    omega
  obtain ⟨houtcomes, hrun⟩ := run_written ({} : Frame capacity) hroom
  have hclose : ({ bytes := layout fields } : Frame capacity).perform .close =
      (.ok .done, { bytes := sealed (layout fields) }) := by
    rw [perform_of_appended rfl, if_pos (by exact hfits), sealed]
  rw [writing, outcomes_append, run_append, houtcomes, hrun, List.nil_append, outcomes_cons,
    run_cons, hclose, List.map_append, List.map_map]
  exact ⟨rfl, rfl⟩

/-- A sealed message of the length that is due is accepted, and all of its body is unread. -/
theorem run_accepting {body : List UInt8}
    (hfits : body.length + crcLen ≤ min capacity maxFrameLen) :
    (({ expectedLen := (sealed body).length } : Frame capacity).outcomes (accepting (sealed body)) =
        [.ok .done, .ok .done]) ∧
      ({ expectedLen := (sealed body).length } : Frame capacity).run (accepting (sealed body)) =
        opened (sealed body).length body (crcTrailer (crc16 body)) := by
  obtain ⟨hcapacity, hmax⟩ := Nat.le_min.mp hfits
  have hlength : (sealed body).length = body.length + crcLen := length_sealed body
  have hload : ({ expectedLen := (sealed body).length } : Frame capacity).perform
      (.load (sealed body)) =
        (.ok .done, { expectedLen := (sealed body).length, bytes := sealed body }) := by
    rw [perform_load, if_neg (by omega), if_pos (by omega)]
  have hvalidate : ({ expectedLen := (sealed body).length, bytes := sealed body } :
      Frame capacity).perform .validate =
        (.ok .done, opened (sealed body).length body (crcTrailer (crc16 body))) :=
    perform_validate_of_sealed rfl hlength
  rw [accepting, outcomes_cons, outcomes_cons, run_cons, run_cons, hload, hvalidate]
  exact ⟨rfl, rfl⟩

/-- **Reading undoes writing.** Fields that fit a frame and a message are written without a failure;
the message is accepted where its length is due, and its fields are read back from the last to the
first, as they were written, until nothing is unread. -/
theorem taking_undoes_writing {fields : List (String × Item)}
    (hfits : (layout fields).length + crcLen ≤ min capacity maxFrameLen) :
    let writer : Frame capacity := {}
    let message := (writer.run (writing fields)).bytes
    let reader : Frame capacity := { expectedLen := message.length }
    let accepted := reader.run (accepting message)
    let last := accepted.run (taking fields)
    (writer.outcomes (writing fields) = (writing fields).map fun _ => .ok .done) ∧
      message = sealed (layout fields) ∧
      reader.outcomes (accepting message) = [.ok .done, .ok .done] ∧
      accepted.remaining = message.length - crcLen ∧
      (accepted.outcomes (taking fields) = fields.reverse.map fun field => .ok field.2.value) ∧
      last.remaining = 0 ∧
      ∀ {action : Action} {field : String} {size : Nat}, action.reads = some (field, size) →
        0 < size → last.perform action = (.error (.underflow field), last) := by
  intro writer message reader accepted last
  obtain ⟨hwritten, hmessage⟩ := run_writing (Nat.le_trans hfits (Nat.min_le_left _ _))
  have hsealed : message = sealed (layout fields) := congrArg Frame.bytes hmessage
  obtain ⟨hreceived, haccepted⟩ := run_accepting hfits
  rw [← hsealed] at hreceived haccepted
  obtain ⟨htaken, hlast⟩ :=
    @run_taken capacity fields message.length [] (crcTrailer (crc16 (layout fields)))
  rw [List.nil_append, ← haccepted] at htaken hlast
  have hremaining : last.remaining = 0 := congrArg Frame.remaining hlast
  refine ⟨hwritten, hsealed, hreceived, ?_, htaken, hremaining, perform_of_exhausted hremaining⟩
  rw [congrArg Frame.remaining haccepted, opened_remaining, hsealed, length_sealed, crcLen,
    Nat.add_sub_cancel]

/-- Three bytes that would be a refusal if their length were not due, with no words between them,
in a frame that they fill. -/
theorem taking_undoes_writing_five_bytes :
    let fields := [("device", .byte 0x11), ("none", .words []), ("reason", Item.word 0x8302)]
    let message := (({} : Frame 5).run (writing fields)).bytes
    let accepted := ({ expectedLen := message.length } : Frame 5).run (accepting message)
    (layout fields).length + crcLen ≤ min 5 maxFrameLen ∧ IsRefusal message ∧
      accepted.outcomes (taking fields) =
        [.ok (.word 0x8302), .ok (.words []), .ok (.byte 0x11)] ∧
      (accepted.run (taking fields)).perform (.takeByte "length") =
        (.error (.underflow "length"), accepted.run (taking fields)) := by
  intro fields message accepted
  have hfits : (layout fields).length + crcLen ≤ min 5 maxFrameLen := by decide
  obtain ⟨-, hmessage, -, -, htaken, -, hexhausted⟩ := taking_undoes_writing hfits
  refine ⟨hfits, ⟨0x11, 0x83, 0x02, hmessage, by decide⟩, htaken, ?_⟩
  exact hexhausted rfl Nat.one_pos

end Modbus.Frame
