import Modbus.Proofs.Reply.Acceptance

/-!
# No message answers two commands

A message that two replies accept tells what both of them wait for, as far as it travels, and fills
both with the same (`Reply.decode_unambiguous`). So a device that is out of step with its master can
not pass off an answer for another: if the answer is accepted, it was for a command of the same
kind, to the same device, about the same registers or with the same sizes of file records.

What is not in a message is left open: the places of file records, and the word that the write of a
register expects, unless both replies expect one.
-/

namespace Modbus

namespace Reply

/-- Two replies wait for the same, as far as it travels. -/
def AwaitsSame : Reply → Reply → Prop
  | holding device words, holding device' words' =>
    device = device' ∧ words.length = words'.length
  | single device register expected _, single device' register' expected' _ =>
    device = device' ∧ register = register' ∧
      ∀ due ∈ expected, ∀ due' ∈ expected', due = due'
  | multiple device start count, multiple device' start' count' =>
    device = device' ∧ start = start' ∧ count = count'
  | file device records, file device' records' =>
    device = device' ∧ records.map FileRecord.size = records'.map FileRecord.size
  | _, _ => False

/-- Two replies are filled with the same. -/
def HoldsSame : Reply → Reply → Prop
  | holding _ words, holding _ words' => words = words'
  | single _ _ _ value, single _ _ _ value' => value = value'
  | multiple .., multiple .. => True
  | file _ records, file _ records' =>
    records.map FileRecord.data = records'.map FileRecord.data
  | _, _ => False

variable {first second : Reply}

/-- What is waited for does not depend on what was received. -/
theorem awaitsSame_cleared : first.cleared.AwaitsSame second.cleared ↔ first.AwaitsSame second := by
  cases first <;> cases second <;> simp [cleared, AwaitsSame, Function.comp_def]

/-- Replies that are the same in all that travels are filled with the same. -/
theorem holdsSame_of_wireForm_eq (h : first.wireForm = second.wireForm) :
    first.HoldsSame second := by
  cases first <;> cases second <;>
    simp only [wireForm, holding.injEq, single.injEq, multiple.injEq, file.injEq, true_and,
      reduceCtorEq] at h
  case holding.holding => exact h.2
  case single.single => exact h.2.2
  case multiple.multiple => trivial
  case file.file device records device' records' =>
    have hdata := congrArg (List.map FileRecord.data) h.2
    simpa [HoldsSame, Function.comp_def] using hdata

/-- Replies that are the same in all that travels and echo what they expect wait for the same. -/
theorem awaitsSame_of_wireForm_eq (h : first.wireForm = second.wireForm)
    (hfirst : first.EchoesExpected) (hsecond : second.EchoesExpected) :
    first.AwaitsSame second := by
  have hholds := holdsSame_of_wireForm_eq h
  cases first <;> cases second <;>
    simp only [wireForm, holding.injEq, single.injEq, multiple.injEq, file.injEq, true_and,
      reduceCtorEq] at h
  case holding.holding => exact ⟨h.1, by rw [h.2]⟩
  case single.single =>
    refine ⟨h.1, h.2.1, fun due hdue due' hdue' => ?_⟩
    rw [← hfirst due hdue, ← hsecond due' hdue', h.2.2]
  case multiple.multiple => exact h
  case file.file device records device' records' =>
    have hsizes : (records.map FileRecord.data).map List.length =
        (records'.map FileRecord.data).map List.length := congrArg _ hholds
    rw [List.map_map, List.map_map] at hsizes
    exact ⟨h.1, hsizes⟩

/-- **No message answers two commands**: replies that accept the same message wait for the same and
are filled with the same. -/
theorem decode_unambiguous {filled other : Reply} {message : List UInt8}
    (hfirst : first.decode message = .ok filled) (hsecond : second.decode message = .ok other) :
    first.AwaitsSame second ∧ first.expectedLen = second.expectedLen ∧
      filled.HoldsSame other := by
  obtain ⟨hfilled, hechoes, hfit, rfl⟩ := decode_eq_ok_iff.mp hfirst
  obtain ⟨hother, hechoes', hfit', hsealed⟩ := decode_eq_ok_iff.mp hsecond
  have hbody : filled.body = other.body := sealed_inj.mp hsealed
  rw [← expectedLen_congr hfilled] at hfit
  rw [← expectedLen_congr hother] at hfit'
  have hform : filled.wireForm = other.wireForm := wireForm_eq_of_body_eq hfit hfit' hbody
  refine ⟨?_, ?_, holdsSame_of_wireForm_eq hform⟩
  · rw [← awaitsSame_cleared, ← hfilled, ← hother, awaitsSame_cleared]
    exact awaitsSame_of_wireForm_eq hform hechoes hechoes'
  · rw [← expectedLen_congr hfilled, ← length_body, hbody, length_body, expectedLen_congr hother]

/-- The same parts are accepted for records of the same sizes in other places. -/
theorem decode_unambiguous_moved_records :
    let message : List UInt8 :=
      [0x11, 0x14, 0x0C, 0x05, 0x06, 0x0D, 0xFE, 0x00, 0x20, 0x05, 0x06, 0x33, 0xCD, 0x00, 0x40,
        0x69, 0xAD]
    let first := file 0x11 [.blank 4 1 2, .blank 3 9 2]
    let second := file 0x11 [.blank 7 2 2, .blank 1 5 2]
    first.decode message =
        .ok (file 0x11 [⟨4, 1, [0x0DFE, 0x0020]⟩, ⟨3, 9, [0x33CD, 0x0040]⟩]) ∧
      second.decode message =
        .ok (file 0x11 [⟨7, 2, [0x0DFE, 0x0020]⟩, ⟨1, 5, [0x33CD, 0x0040]⟩]) ∧
      first.AwaitsSame second ∧ first.expectedLen = second.expectedLen ∧
      (file 0x11 [⟨4, 1, [0x0DFE, 0x0020]⟩, ⟨3, 9, [0x33CD, 0x0040]⟩]).HoldsSame
        (file 0x11 [⟨7, 2, [0x0DFE, 0x0020]⟩, ⟨1, 5, [0x33CD, 0x0040]⟩]) := by
  intro message first second
  have hfirst : first.decode message =
      .ok (file 0x11 [⟨4, 1, [0x0DFE, 0x0020]⟩, ⟨3, 9, [0x33CD, 0x0040]⟩]) := by decide +kernel
  have hsecond : second.decode message =
      .ok (file 0x11 [⟨7, 2, [0x0DFE, 0x0020]⟩, ⟨1, 5, [0x33CD, 0x0040]⟩]) := by decide +kernel
  exact ⟨hfirst, hsecond, decode_unambiguous hfirst hsecond⟩

end Reply

end Modbus
