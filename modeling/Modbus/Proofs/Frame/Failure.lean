import Modbus.Proofs.Frame.Safety

/-!
# What a failed action leaves behind

An action on a frame fails in one of three ways. Most actions do all of their work or none, so that
a failed one changes nothing; words that are written one by one stay as far as they went in; and a
message that is loaded takes the place of the old one even if it is refused itself. `Frame.Fails`
says for every action when it fails, with which error, and what frame it leaves, and
`Frame.perform_eq_error_iff` that there is no other way to fail. `Frame.failures_leave_behind` says
this of a frame after any session.
-/

namespace Modbus.Frame

variable {capacity : Nat}

/-! ### Actions that fail -/

/-- How an action fails: the error, and the frame that is left. -/
inductive Fails (frame : Frame capacity) : Action → WireError → Frame capacity → Prop
  /-- There is no room for all bytes that are to go behind the others, and none goes in. -/
  | full {action : Action} {data : List UInt8} (hdata : frame.appended action = some data)
    (hfull : capacity - frame.bytes.length < data.length) :
    Fails frame action .outOfBuffer frame
  /-- There is no room for all words, and as many go in as there is room for. -/
  | words {values : List UInt16} (hfull : capacity - frame.bytes.length < 2 * values.length) :
    Fails frame (.words values) .outOfBuffer
      { frame with
        bytes := frame.bytes ++ wordsBytes (values.take ((capacity - frame.bytes.length) / 2)) }
  /-- There is no byte to overwrite. -/
  | patch {index : Nat} {value : UInt8} (hindex : frame.bytes.length ≤ index) :
    Fails frame (.patch index value) .outOfBuffer frame
  /-- More is received than a message has, and the old message is gone. -/
  | oversized {data : List UInt8} (hlong : maxFrameLen < data.length) :
    Fails frame (.load data) (.frameLength frame.expectedLen data.length)
      { expectedLen := frame.expectedLen, bytes := [], remaining := 0 }
  /-- More is received than there is room for, and the old message is gone. -/
  | overfull {data : List UInt8} (hshort : data.length ≤ maxFrameLen)
    (hfull : capacity < data.length) :
    Fails frame (.load data) .outOfBuffer
      { expectedLen := frame.expectedLen, bytes := [], remaining := 0 }
  /-- The message is not accepted. -/
  | refused {e : WireError} (hrefuses : frame.Refuses e) : Fails frame .validate e frame
  /-- Less is unread than the field has bytes. -/
  | exhausted {action : Action} {field : String} {size : Nat}
    (hreads : action.reads = some (field, size)) (hshort : frame.remaining < size) :
    Fails frame action (.underflow field) frame

section Fails

variable {frame after : Frame capacity} {action : Action} {e : WireError}

theorem Fails.perform_eq (h : frame.Fails action e after) :
    frame.perform action = (.error e, after) := by
  cases h with
  | full hdata hfull => rw [perform_of_appended hdata, if_neg (by omega)]
  | words hfull => rw [perform_words, if_neg (by omega)]
  | patch hindex => rw [perform_patch, if_neg (by omega)]
  | oversized hlong => rw [perform_load, if_pos hlong]
  | overfull hshort hfull => rw [perform_load, if_neg (by omega), if_neg (by omega)]
  | refused hrefuses => exact hrefuses.perform_validate
  | exhausted hreads hshort => rw [perform_of_reads hreads, if_pos hshort]

/-- **An action fails** in one of these ways and in no other. -/
theorem perform_eq_error_iff (hfits : frame.bytes.length ≤ capacity) :
    frame.perform action = (.error e, after) ↔ frame.Fails action e after := by
  refine ⟨fun h => ?_, Fails.perform_eq⟩
  cases action with
  | byte | word | write | close =>
    rw [perform_of_appended rfl] at h
    split at h
    · cases h
    · next hfull =>
      cases h
      exact .full rfl (by omega)
  | words values =>
    rw [perform_words] at h
    split at h
    · cases h
    · next hfull =>
      cases h
      exact .words (Nat.not_le.mp hfull)
  | patch index value =>
    rw [perform_patch] at h
    split at h
    · cases h
    · next hindex =>
      cases h
      exact .patch (Nat.not_lt.mp hindex)
  | load data =>
    rw [perform_load] at h
    split at h
    · next hlong =>
      cases h
      exact .oversized hlong
    · next hshort =>
      split at h
      · cases h
      · next hfull =>
        cases h
        exact .overfull (Nat.not_lt.mp hshort) (Nat.not_le.mp hfull)
  | clear =>
    rw [perform_clear] at h
    cases h
  | validate =>
    rcases perform_validate_cases frame with ⟨body, -, -, hok⟩ | ⟨e', hrefuses, herror⟩
    · cases hok.symm.trans h
    · cases herror.symm.trans h
      exact .refused hrefuses
  | takeByte | takeWord | takeWords =>
    rw [perform_of_reads rfl] at h
    split at h
    · next hshort =>
      cases h
      exact .exhausted rfl hshort
    · cases h

end Fails

/-- **What failures leave behind**, after any session: an action fails in the ways of `Frame.Fails`
and in no other, and after a message that could not be loaded nothing is left to be read. -/
theorem failures_leave_behind (expectedLen : Nat) (actions : List Action) :
    let frame := ({ expectedLen } : Frame capacity).run actions
    (∀ action e after, frame.perform action = (.error e, after) ↔ frame.Fails action e after) ∧
      ∀ data e after, frame.perform (.load data) = (.error e, after) →
        after.bytes = [] ∧ after.remaining = 0 ∧
          ∀ {action : Action} {field : String} {size : Nat}, action.reads = some (field, size) →
            0 < size → after.perform action = (.error (.underflow field), after) := by
  intro frame
  have hfits : frame.bytes.length ≤ capacity := (accounts_account expectedLen actions).fits
  refine ⟨fun action e after => perform_eq_error_iff hfits, fun data e after h => ?_⟩
  cases (perform_eq_error_iff hfits).mp h with
  | full hdata => cases hdata
  | oversized | overfull => exact ⟨rfl, rfl, perform_of_exhausted rfl⟩
  | exhausted hreads => cases hreads

end Modbus.Frame
