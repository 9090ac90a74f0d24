import Modbus.Frame.Basic

/-!
# Putting a frame together

A step *appends* bytes if it puts them behind the others whenever there is room for them, and fails
otherwise (`Codec.Appends`). Bytes and words are appended, and what a sequence of steps appends is
what they append one after another (`Codec.Appends.bind`). So whether a message can be written, and
what stands in the frame then, is read off the steps that write it.
-/

namespace Modbus.Codec

variable {capacity : Nat}

/-- A sequence of steps succeeds exactly if all of them do, each on the frame that the one before
left. -/
theorem exec_bind_eq_ok_iff {α β : Type} {step : Codec capacity α} {next : α → Codec capacity β}
    {frame frame' : Frame capacity} {b : β} :
    (step >>= next).exec frame = (.ok b, frame') ↔
      ∃ a middle, step.exec frame = (.ok a, middle) ∧ (next a).exec middle = (.ok b, frame') := by
  rw [exec_bind]
  rcases step.exec frame with ⟨e | a, middle⟩
  · simp
  · constructor
    · intro h
      exact ⟨a, middle, rfl, h⟩
    · rintro ⟨a', middle', hstep, hnext⟩
      cases hstep
      exact hnext

/-- A step that puts these bytes behind those of a frame, if there is room for all of them, and
fails otherwise. -/
structure Appends (step : Codec capacity Unit) (data : List UInt8) : Prop where
  exec_eq_ok_iff {frame frame' : Frame capacity} (hfits : frame.bytes.length ≤ capacity) :
    step.exec frame = (.ok (), frame') ↔
      frame.bytes.length + data.length ≤ capacity ∧
        frame' = { frame with bytes := frame.bytes ++ data }

theorem appends_pure : (pure () : Codec capacity Unit).Appends [] where
  exec_eq_ok_iff {frame frame'} hfits := by
    rw [exec_pure, List.append_nil]
    constructor
    · rintro ⟨⟩
      exact ⟨hfits, rfl⟩
    · rintro ⟨-, rfl⟩
      rfl

theorem appends_write (data : List UInt8) : (write data : Codec capacity Unit).Appends data where
  exec_eq_ok_iff {frame frame'} _ := by
    rw [exec_write]
    by_cases hroom : frame.bytes.length + data.length ≤ capacity
    · simp [hroom, eq_comm]
    · simp [hroom]

/-- **Steps append one after another.** -/
theorem Appends.bind {step next : Codec capacity Unit} {first second : List UInt8}
    (hstep : step.Appends first) (hnext : next.Appends second) :
    (step >>= fun _ => next).Appends (first ++ second) where
  exec_eq_ok_iff {frame frame'} hfits := by
    rw [exec_bind_eq_ok_iff, List.length_append]
    constructor
    · rintro ⟨⟨⟩, middle, hmiddle, hframe⟩
      obtain ⟨hroom, rfl⟩ := (hstep.exec_eq_ok_iff hfits).mp hmiddle
      rw [← List.length_append] at hroom
      obtain ⟨hroom', rfl⟩ := (hnext.exec_eq_ok_iff hroom).mp hframe
      rw [List.length_append] at hroom'
      exact ⟨by omega, by rw [List.append_assoc]⟩
    · rintro ⟨hroom, rfl⟩
      have hmiddle : (frame.bytes ++ first).length ≤ capacity := by
        rw [List.length_append]
        omega
      refine ⟨(), _, (hstep.exec_eq_ok_iff hfits).mpr ⟨by omega, rfl⟩,
        (hnext.exec_eq_ok_iff hmiddle).mpr ⟨?_, by rw [List.append_assoc]⟩⟩
      rw [List.length_append]
      omega

/-- The check goes behind everything that was written. -/
theorem exec_close_eq_ok_iff {frame frame' : Frame capacity}
    (hfits : frame.bytes.length ≤ capacity) :
    close.exec frame = (.ok (), frame') ↔
      frame.bytes.length + crcLen ≤ capacity ∧
        frame' = { frame with bytes := sealed frame.bytes } := by
  rw [exec_close, (appends_write _).exec_eq_ok_iff hfits, length_crcTrailer, crcLen, sealed]

section Bind

variable {next : Codec capacity Unit} {data : List UInt8}

theorem Appends.byte_bind (value : UInt8) (hnext : next.Appends data) :
    (byte value >>= fun _ => next).Appends (value :: data) :=
  .bind (appends_write [value]) hnext

theorem Appends.word_bind (value : UInt16) (hnext : next.Appends data) :
    (word value >>= fun _ => next).Appends (wordBytes value ++ data) :=
  .bind (appends_write (wordBytes value)) hnext

end Bind

end Modbus.Codec
