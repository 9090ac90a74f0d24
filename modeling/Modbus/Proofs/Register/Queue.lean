import Mathlib.Data.List.Rotate
import Modbus.Proofs.Register.Interpretation
import Modbus.Register.History

/-!
# A history is a queue

`Queue.perform` says what each step does to a plain list of readings, oldest first, and what it
answers: a reading that is recorded goes to the end and pushes out the first, the front is the head
of the list, and going on moves the head to the end. A history does the same to its content with a
cursor and an array (`History.IsFor.perform`), so the content after any steps is the list after
these steps (`History.IsFor.run`).

`History.refines_queue` says this of every history that a descriptor begins, together with what is
read off a history: its front and back, how many slots it has and how wide they are, and its
snapshot.
-/

namespace Modbus

namespace Queue

/-- What a step does to the readings of a register, oldest first, and whether it recorded one. -/
def perform (descriptor : Descriptor) (queue : List Reading) :
    History.Step → Except Violation Bool × List Reading
  | .record time words =>
    let reading : Reading := { descriptor, time, words }
    if words.length ≠ descriptor.length.toNat then
      (.error (.recordedWidth descriptor.start descriptor.name descriptor.length.toNat), queue)
    else if descriptor.changesOnly && queue.getLast?.any reading.agrees then (.ok false, queue)
    else (.ok true, queue.tail ++ [reading])
  | .setFront time words =>
    if words.length ≠ descriptor.length.toNat then
      (.error (.recordedWidth descriptor.start descriptor.name descriptor.length.toNat), queue)
    else (.ok false, { descriptor, time, words } :: queue.tail)
  | .setFrontTime time => (.ok false, queue.modifyHead fun front => { front with time })
  | .advance => (.ok false, queue.rotate 1)
  | .setAddress _ => (.ok false, queue)

/-- The readings after a list of steps. -/
def run (descriptor : Descriptor) (queue : List Reading) (steps : List History.Step) :
    List Reading :=
  steps.foldl (fun queue step => (perform descriptor queue step).2) queue

end Queue

namespace History

/-- A history of the register that a descriptor describes. -/
structure IsFor (descriptor : Descriptor) (history : History) : Prop where
  descriptor_eq : history.descriptor = descriptor
  capacity_eq : history.capacity = descriptor.keep.toNat
  slots : ∀ reading ∈ history.toList, reading.IsOf descriptor

/-! ### One step -/

@[simp] theorem capacity_putFront (history : History) (reading : Reading) :
    (history.putFront reading).capacity = history.capacity := by
  simp [capacity, putFront]

@[simp] theorem front_putFront (history : History) (reading : Reading) :
    (history.putFront reading).front = reading := by
  have h := toList_putFront history reading
  rw [toList_eq_cons] at h
  exact (List.cons.inj h).1

/-- The front of a history is the head of its content. -/
theorem toList_eq_front_cons (history : History) :
    history.toList = history.front :: history.toList.tail := by
  rw [toList_eq_cons, List.tail_cons]

/-- A reading that is put in front and left behind goes to the end. -/
theorem toList_advance_putFront (history : History) (reading : Reading) :
    (history.putFront reading).advance.toList = history.toList.tail ++ [reading] := by
  rw [toList_advance, toList_putFront, front_putFront, List.tail_cons]

/-- Recording puts a reading behind the others unless it is not worth keeping. -/
theorem record_eq (history : History) (time : UInt32) (words : List UInt16) :
    history.record time words =
      (Reading.taken history.descriptor time words).map fun reading =>
        if history.shouldRetain reading then (true, (history.putFront reading).advance)
        else (false, history) := by
  rw [record]
  cases Reading.taken history.descriptor time words with
  | error e => rfl
  | ok reading =>
    show (if _ then _ else _) = Except.ok (if _ then _ else _)
    split <;> rfl

/-- **What a step can do** to a history: put a reading in front, go on, or change the address. -/
theorem perform_cases {R : History → Prop} (history : History) (step : Step) (hstay : R history)
    (hput : ∀ reading, R (history.putFront reading)) (hadvance : R history.advance)
    (hrecord : ∀ reading, R (history.putFront reading).advance)
    (haddress : ∀ address, R (history.setAddress address)) : R (history.perform step).2 := by
  cases step with
  | record time words =>
    rw [perform, record_eq]
    cases Reading.taken history.descriptor time words with
    | error e => exact hstay
    | ok reading =>
      rw [Except.map]
      by_cases hretain : history.shouldRetain reading
      · rw [if_pos hretain]
        exact hrecord reading
      · rw [if_neg hretain]
        exact hstay
  | setFront time words =>
    rw [perform, setFront]
    cases history.front.set time words with
    | error e => exact hstay
    | ok reading => exact hput reading
  | setFrontTime time => exact hput _
  | advance => exact hadvance
  | setAddress address => exact haddress address

/-- A step that fails leaves the history as it is. -/
theorem perform_of_error {history : History} {step : Step} {e : Violation}
    (h : (history.perform step).1 = .error e) : (history.perform step).2 = history := by
  cases step with
  | record time words =>
    rw [perform] at h ⊢
    cases hrecord : history.record time words with
    | error e => rfl
    | ok result =>
      rw [hrecord] at h
      cases h
  | setFront time words =>
    rw [perform] at h ⊢
    cases hset : history.setFront time words with
    | error e => rfl
    | ok result =>
      rw [hset] at h
      cases h
  | setFrontTime | advance | setAddress => cases h

end History

namespace Reading

variable {descriptor : Descriptor}

theorem isOf_unread (descriptor : Descriptor) : (unread descriptor).IsOf descriptor where
  descriptor_eq := rfl
  length_words := List.length_replicate

/-- A reading of a register takes as many words as the register has. -/
theorem IsOf.set_eq {reading : Reading} (h : reading.IsOf descriptor) (time : UInt32)
    (words : List UInt16) :
    reading.set time words =
      if words.length ≠ descriptor.length.toNat then
        .error (.recordedWidth descriptor.start descriptor.name descriptor.length.toNat)
      else .ok { descriptor, time, words } := by
  rw [set, h.length_words, h.descriptor_eq, ite_not]

end Reading

/-- A step on a queue leaves every reading as wide as the register. -/
theorem Queue.isOf_perform {descriptor : Descriptor} {queue : List Reading}
    (h : ∀ reading ∈ queue, reading.IsOf descriptor) (step : History.Step) :
    ∀ reading ∈ (perform descriptor queue step).2, reading.IsOf descriptor := by
  have htail : ∀ reading ∈ queue.tail, reading.IsOf descriptor :=
    fun reading hmem => h reading (List.mem_of_mem_tail hmem)
  have hnew {time : UInt32} {words : List UInt16}
      (hwidth : ¬ words.length ≠ descriptor.length.toNat) :
      Reading.IsOf descriptor { descriptor, time, words } := ⟨rfl, Decidable.not_not.mp hwidth⟩
  cases step with
  | record time words =>
    rw [perform]
    split
    · exact h
    · next hwidth =>
      split
      · exact h
      · exact List.forall_mem_append.mpr ⟨htail, List.forall_mem_singleton.mpr (hnew hwidth)⟩
  | setFront time words =>
    rw [perform]
    split
    · exact h
    · next hwidth => exact List.forall_mem_cons.mpr ⟨hnew hwidth, htail⟩
  | setFrontTime time =>
    cases queue with
    | nil => exact h
    | cons front queue =>
      obtain ⟨hfront, hrest⟩ := List.forall_mem_cons.mp h
      exact List.forall_mem_cons.mpr ⟨⟨hfront.descriptor_eq, hfront.length_words⟩, hrest⟩
  | advance =>
    intro reading hmem
    exact h reading (List.mem_rotate.mp hmem)
  | setAddress address => exact h

namespace History

variable {descriptor : Descriptor} {history : History}

theorem IsFor.isOf_front (h : history.IsFor descriptor) : history.front.IsOf descriptor := by
  refine h.slots _ ?_
  rw [toList_eq_front_cons]
  exact List.mem_cons_self

theorem IsFor.shouldRetain_eq (h : history.IsFor descriptor) (reading : Reading) :
    history.shouldRetain reading =
      !(descriptor.changesOnly && history.toList.getLast?.any reading.agrees) := by
  rw [shouldRetain, h.descriptor_eq, getLast?_toList, Option.any_some, Bool.not_and]

/-- **One step** does to the content what it does to a queue, and answers the same. -/
theorem IsFor.perform (h : history.IsFor descriptor) (step : Step) :
    ((history.perform step).1, (history.perform step).2.toList) =
      Queue.perform descriptor history.toList step := by
  cases step with
  | record time words =>
    rw [Queue.perform, History.perform, record_eq, Reading.taken, h.descriptor_eq,
      (Reading.isOf_unread descriptor).set_eq]
    by_cases hwidth : words.length ≠ descriptor.length.toNat
    · rw [if_pos hwidth, if_pos hwidth]
      rfl
    · rw [if_neg hwidth, if_neg hwidth, Except.map, h.shouldRetain_eq]
      by_cases hskip : (descriptor.changesOnly &&
          history.toList.getLast?.any (Reading.agrees { descriptor, time, words })) = true
      · simp only [hskip]
        rfl
      · rw [Bool.not_eq_true] at hskip
        simp only [hskip, ← toList_advance_putFront]
        rfl
  | setFront time words =>
    rw [Queue.perform, History.perform, setFront, h.isOf_front.set_eq]
    by_cases hwidth : words.length ≠ descriptor.length.toNat
    · rw [if_pos hwidth, if_pos hwidth]
      rfl
    · rw [if_neg hwidth, if_neg hwidth, ← toList_putFront]
      rfl
  | setFrontTime time =>
    rw [Queue.perform, History.perform, setFrontTime, toList_putFront, toList_eq_front_cons]
    rfl
  | advance =>
    rw [Queue.perform, History.perform, toList_advance, toList_eq_front_cons, List.rotate_cons_succ,
      List.rotate_zero]
    rfl
  | setAddress address => rfl

theorem IsFor.toList_perform (h : history.IsFor descriptor) (step : Step) :
    (history.perform step).2.toList = (Queue.perform descriptor history.toList step).2 :=
  congrArg Prod.snd (h.perform step)

/-- A step leaves a history one of the same register. -/
theorem IsFor.after (h : history.IsFor descriptor) (step : Step) :
    (history.perform step).2.IsFor descriptor where
  descriptor_eq :=
    perform_cases (R := fun after => after.descriptor = descriptor) history step h.descriptor_eq
      (fun _ => h.descriptor_eq) h.descriptor_eq (fun _ => h.descriptor_eq)
      (fun _ => h.descriptor_eq)
  capacity_eq := by
    have hput (reading : Reading) :
        (history.putFront reading).capacity = descriptor.keep.toNat := by
      rw [capacity_putFront, h.capacity_eq]
    exact perform_cases (R := fun after => after.capacity = descriptor.keep.toNat) history step
      h.capacity_eq hput h.capacity_eq hput (fun _ => h.capacity_eq)
  slots := by
    rw [h.toList_perform]
    exact Queue.isOf_perform h.slots step

/-! ### Many steps -/

/-- **A run** is the run of a queue. -/
theorem IsFor.run (h : history.IsFor descriptor) (steps : List Step) :
    (history.run steps).IsFor descriptor ∧
      (history.run steps).toList = Queue.run descriptor history.toList steps := by
  induction steps generalizing history with
  | nil => exact ⟨h, rfl⟩
  | cons step steps ih =>
    obtain ⟨hrun, htoList⟩ := ih (h.after step)
    rw [h.toList_perform] at htoList
    exact ⟨hrun, htoList⟩

/-- The history that a descriptor begins. -/
theorem exists_ofDescriptor (hkeep : 1 ≤ descriptor.keep.toNat) :
    ∃ history, ofDescriptor descriptor = .ok history ∧
      history.toList = List.replicate descriptor.keep.toNat (.unread descriptor) ∧
        history.IsFor descriptor := by
  refine ⟨_, dif_pos hkeep, ?_, rfl, Array.size_replicate, ?_⟩
  · simp [toList]
  · intro reading hmem
    simp only [toList, Array.toList_replicate, List.drop_zero, List.take_zero,
      List.append_nil] at hmem
    rw [List.eq_of_mem_replicate hmem]
    exact Reading.isOf_unread descriptor

/-- The valid readings of a register that can be interpreted mean something, one by one. -/
theorem IsFor.exists_measurements (h : history.IsFor descriptor)
    (hinterprets : descriptor.Interprets) :
    ∃ measurements, history.measurements = .ok measurements ∧
      List.Forall₂ (Reading.Means descriptor) history.valid measurements :=
  Reading.exists_measurements hinterprets
    fun reading hmem => h.slots reading (List.mem_of_mem_filter hmem)

/-- What a history of a register that can be interpreted means is what its slots mean that were
read. -/
theorem IsFor.exists_snapshot (h : history.IsFor descriptor) (hinterprets : descriptor.Interprets) :
    ∃ snapshot, history.snapshot = .ok snapshot ∧ snapshot.address = history.address ∧
      snapshot.name = descriptor.name ∧
        List.Forall₂ (Reading.Means descriptor)
          (history.toList.filter fun reading => reading.time ≠ 0) snapshot.measurements := by
  obtain ⟨measurements, hmeasurements, hall⟩ := h.exists_measurements hinterprets
  refine ⟨{ address := history.address, name := history.descriptor.name, measurements }, ?_, rfl,
    congrArg Descriptor.name h.descriptor_eq, hall⟩
  rw [snapshot, hmeasurements]
  rfl

/-- **A history is a queue** of as many readings as the descriptor keeps. -/
theorem refines_queue (hkeep : 1 ≤ descriptor.keep.toNat) :
    ∃ history, ofDescriptor descriptor = .ok history ∧
      history.toList = List.replicate descriptor.keep.toNat (.unread descriptor) ∧
      ∀ steps,
        (history.run steps).toList = Queue.run descriptor history.toList steps ∧
        (history.run steps).capacity = descriptor.keep.toNat ∧
        (history.run steps).toList.length = descriptor.keep.toNat ∧
        (history.run steps).toList.head? = some (history.run steps).front ∧
        (history.run steps).toList.getLast? = some (history.run steps).back ∧
        (∀ reading ∈ (history.run steps).toList, reading.IsOf descriptor) ∧
        (∀ step,
          (((history.run steps).perform step).1, ((history.run steps).perform step).2.toList) =
            Queue.perform descriptor (history.run steps).toList step ∧
          ∀ e, ((history.run steps).perform step).1 = .error e →
            ((history.run steps).perform step).2 = history.run steps) ∧
        (descriptor.Interprets →
          ∃ snapshot, (history.run steps).snapshot = .ok snapshot ∧
            snapshot.address = (history.run steps).address ∧ snapshot.name = descriptor.name ∧
              List.Forall₂ (Reading.Means descriptor)
                ((history.run steps).toList.filter fun reading => reading.time ≠ 0)
                snapshot.measurements) := by
  obtain ⟨history, hhistory, htoList, hfor⟩ := exists_ofDescriptor hkeep
  refine ⟨history, hhistory, htoList, fun steps => ?_⟩
  obtain ⟨hrun, hqueue⟩ := hfor.run steps
  refine ⟨hqueue, hrun.capacity_eq, ?_, ?_, getLast?_toList _, hrun.slots, ?_,
    hrun.exists_snapshot⟩
  · rw [length_toList, hrun.capacity_eq]
  · rw [toList_eq_front_cons, List.head?_cons]
  · intro step
    exact ⟨hrun.perform step, fun e => perform_of_error⟩

/-- Three slots for a number: the second of four readings is no change, the last is too short. -/
theorem refines_queue_three :
    let descriptor : Descriptor :=
      { start := 0x100, length := 2, name := "flow", keep := 3, changesOnly := true
        format := .integer }
    let steps : List Step := [.record 1 [0, 5], .record 2 [0, 5], .record 3 [0, 6], .record 4 [7]]
    1 ≤ descriptor.keep.toNat ∧ ∃ history, ofDescriptor descriptor = .ok history ∧
      (history.run steps).toList =
        [.unread descriptor, { descriptor, time := 1, words := [0, 5] },
          { descriptor, time := 3, words := [0, 6] }] ∧
      ∃ snapshot, (history.run steps).snapshot = .ok snapshot ∧
        List.Forall₂ (Reading.Means descriptor)
          [{ descriptor, time := 1, words := [0, 5] }, { descriptor, time := 3, words := [0, 6] }]
          snapshot.measurements := by
  intro descriptor steps
  have hkeep : 1 ≤ descriptor.keep.toNat := Nat.le_add_left 1 2
  obtain ⟨history, hhistory, hempty, hrun⟩ := refines_queue hkeep
  obtain ⟨hqueue, -, -, -, -, -, -, hsnapshot⟩ := hrun steps
  have htoList : (history.run steps).toList =
      [.unread descriptor, { descriptor, time := 1, words := [0, 5] },
        { descriptor, time := 3, words := [0, 6] }] := by
    rw [hqueue, hempty]
    rfl
  obtain ⟨snapshot, hok, -, -, hmeans⟩ := hsnapshot (Or.inr rfl)
  rw [htoList] at hmeans
  exact ⟨hkeep, history, hhistory, htoList, snapshot, hok, hmeans⟩

end History

end Modbus
