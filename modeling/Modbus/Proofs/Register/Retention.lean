import Mathlib.Data.List.Chain
import Mathlib.Data.List.DropRight
import Modbus.Proofs.Register.Queue

/-!
# What a history keeps

`Retention.kept` says which of the samples that come in one after the other are worth keeping: all
of them, or those that are not the same as the one kept before. It knows nothing of slots. A history
holds the last of the kept samples, as many as it has slots (`Retention.window`), and while there
are fewer it still has slots that were never written.

`History.keeps_last_kept` says this of every run of recordings, with what each of them answers and
what the snapshot shows.
-/

namespace Modbus

/-- The words of a register and the time at which they were read. -/
structure Sample where
  time : UInt32
  words : List UInt16
deriving DecidableEq, Repr

namespace Sample

/-- The reading that a sample is. -/
def reading (descriptor : Descriptor) (sample : Sample) : Reading :=
  { descriptor, time := sample.time, words := sample.words }

/-- The sample is recorded. -/
def step (sample : Sample) : History.Step :=
  .record sample.time sample.words

end Sample

namespace Retention

/-- Only changes count, and the sample is the same as the last one that was kept. A sample of time
zero is the same as no other. -/
def skips (changesOnly : Bool) (kept : List Sample) (sample : Sample) : Bool :=
  changesOnly && kept.getLast?.any fun last =>
    sample.time ≠ 0 && last.time ≠ 0 && sample.words == last.words

/-- The kept samples after one more has come in. -/
def keep (changesOnly : Bool) (kept : List Sample) (sample : Sample) : List Sample :=
  if skips changesOnly kept sample then kept else kept ++ [sample]

/-- The samples that are worth keeping. -/
def kept (changesOnly : Bool) (samples : List Sample) : List Sample :=
  samples.foldl (keep changesOnly) []

theorem kept_concat (changesOnly : Bool) (samples : List Sample) (sample : Sample) :
    kept changesOnly (samples ++ [sample]) =
      keep changesOnly (kept changesOnly samples) sample := by
  rw [kept, List.foldl_append, List.foldl_cons, List.foldl_nil, ← kept]

theorem keep_of_skips {changesOnly : Bool} {kept : List Sample} {sample : Sample}
    (h : skips changesOnly kept sample = true) : keep changesOnly kept sample = kept :=
  if_pos h

/-- A sample is appended exactly if it is not skipped. -/
theorem keep_eq_concat_iff {changesOnly : Bool} {kept : List Sample} {sample : Sample} :
    keep changesOnly kept sample = kept ++ [sample] ↔ skips changesOnly kept sample = false := by
  rw [keep]
  cases skips changesOnly kept sample with
  | true => exact iff_of_false (by simp) (by simp)
  | false => exact iff_of_true rfl rfl

/-- Nothing is kept that has not come in. -/
theorem kept_subset (changesOnly : Bool) (samples : List Sample) :
    kept changesOnly samples ⊆ samples := by
  induction samples using List.reverseRecOn with
  | nil => exact List.Subset.refl []
  | append_singleton samples sample ih =>
    rw [kept_concat, keep]
    split
    · exact List.subset_append_of_subset_left [sample] ih
    · exact List.append_subset.mpr
        ⟨List.subset_append_of_subset_left [sample] ih, List.subset_append_right samples [sample]⟩

/-- A sample that is skipped has the words of the last one that was kept. -/
theorem exists_last_of_skips {changesOnly : Bool} {kept : List Sample} {sample : Sample}
    (h : skips changesOnly kept sample = true) :
    ∃ last, kept.getLast? = some last ∧ sample.words = last.words := by
  obtain ⟨-, hany⟩ := Bool.and_eq_true_iff.mp h
  obtain ⟨last, hlast, hsame⟩ := (Option.any_eq_true _ _).mp hany
  obtain ⟨-, hwords⟩ := Bool.and_eq_true_iff.mp hsame
  exact ⟨last, hlast, eq_of_beq hwords⟩

/-- **Neighbours differ** among the kept samples if only changes are kept and all of them have been
read. -/
theorem isChain_kept {samples : List Sample} (hread : ∀ sample ∈ samples, sample.time ≠ 0) :
    (kept true samples).IsChain fun first second => first.words ≠ second.words := by
  induction samples using List.reverseRecOn with
  | nil => exact .nil
  | append_singleton samples sample ih =>
    have hsample : sample.time ≠ 0 := hread sample (List.mem_concat_self)
    have hbefore : ∀ sample ∈ samples, sample.time ≠ 0 :=
      fun sample hmem => hread sample (List.mem_append_left _ hmem)
    rw [kept_concat, keep]
    split
    · exact ih hbefore
    · next hskips =>
      refine (ih hbefore).append (List.isChain_singleton _) ?_
      intro last hlast first hfirst hwords
      obtain rfl : sample = first := by simpa using hfirst
      have hlastRead : last.time ≠ 0 :=
        hbefore last (kept_subset true samples (List.mem_of_getLast? hlast))
      refine hskips ?_
      simp [skips, Option.mem_def.mp hlast, hsample, hlastRead, hwords]

/-! ### The slots of a history -/

/-- The slots of a history that has kept samples: as many as the descriptor says, the last ones
among those never written and the kept samples. -/
def window (descriptor : Descriptor) (kept : List Sample) : List Reading :=
  (List.replicate descriptor.keep.toNat (Reading.unread descriptor) ++
    kept.map (Sample.reading descriptor)).drop kept.length

variable {descriptor : Descriptor}

/-- A window is what is left of the slots never written, and the last of the kept samples. -/
theorem window_eq (descriptor : Descriptor) (kept : List Sample) :
    window descriptor kept =
      List.replicate (descriptor.keep.toNat - kept.length) (.unread descriptor) ++
        (kept.map (Sample.reading descriptor)).rtake descriptor.keep.toNat := by
  rw [window, List.drop_append, List.drop_replicate, List.length_replicate, List.rtake,
    List.length_map]

/-- One more kept sample pushes out the oldest slot. -/
theorem window_concat (hkeep : 1 ≤ descriptor.keep.toNat) (kept : List Sample) (sample : Sample) :
    window descriptor (kept ++ [sample]) =
      (window descriptor kept).tail ++ [sample.reading descriptor] := by
  have hlength : kept.length + 1 ≤
      (List.replicate descriptor.keep.toNat (Reading.unread descriptor) ++
        kept.map (Sample.reading descriptor)).length := by
    rw [List.length_append, List.length_replicate, List.length_map]
    omega
  rw [window, window, List.tail_drop, List.map_append, List.map_singleton, ← List.append_assoc,
    List.length_append, List.length_singleton, List.drop_append_of_le_length hlength]

/-- The newest slot holds the last kept sample, if there is one. -/
theorem getLast?_window (hkeep : 1 ≤ descriptor.keep.toNat) (kept : List Sample) :
    (window descriptor kept).getLast? =
      some ((kept.getLast?.map (Sample.reading descriptor)).getD (.unread descriptor)) := by
  cases kept using List.reverseRecOn with
  | nil =>
    have hne : descriptor.keep.toNat ≠ 0 := Nat.one_le_iff_ne_zero.mp hkeep
    simp [window, List.getLast?_replicate, hne]
  | append_singleton kept sample =>
    rw [window_concat hkeep, List.getLast?_concat, List.getLast?_concat]
    rfl

/-- The readings that a history shows: those of the last kept samples, as many as it has slots, that
do not have time zero. -/
def shown (descriptor : Descriptor) (samples : List Sample) : List Reading :=
  (((kept descriptor.changesOnly samples).map (Sample.reading descriptor)).rtake
    descriptor.keep.toNat).filter fun reading => reading.time ≠ 0

/-- Slots that were never written do not show. -/
theorem filter_window (descriptor : Descriptor) (samples : List Sample) :
    (window descriptor (kept descriptor.changesOnly samples)).filter Reading.isValid =
      shown descriptor samples := by
  have hunread (count : Nat) :
      (List.replicate count (Reading.unread descriptor)).filter Reading.isValid = [] :=
    List.filter_replicate_of_neg (by simp [Reading.isValid, Reading.unread])
  rw [window_eq, List.filter_append, hunread, List.nil_append]
  rfl

/-- Neighbours that a history of changes shows differ if all samples have been read. -/
theorem isChain_shown (hchanges : descriptor.changesOnly = true) {samples : List Sample}
    (hread : ∀ sample ∈ samples, sample.time ≠ 0) :
    (shown descriptor samples).IsChain fun first second => first.words ≠ second.words := by
  have hvalid : ∀ reading ∈ ((kept true samples).map (Sample.reading descriptor)).rtake
      descriptor.keep.toNat, decide (reading.time ≠ 0) = true := by
    intro reading hmem
    obtain ⟨sample, hsample, rfl⟩ := List.mem_map.mp (List.mem_of_mem_drop hmem)
    exact decide_eq_true (hread sample (kept_subset true samples hsample))
  have hkept : ((kept true samples).map (Sample.reading descriptor)).IsChain
      fun first second => first.words ≠ second.words :=
    (List.isChain_map (Sample.reading descriptor)).mpr (isChain_kept hread)
  rw [shown, hchanges, List.filter_eq_self.mpr hvalid, List.rtake]
  exact hkept.drop _

/-- The history holds back what retention skips. -/
theorem any_agrees_window (hkeep : 1 ≤ descriptor.keep.toNat) (kept : List Sample)
    (sample : Sample) :
    (descriptor.changesOnly &&
        (window descriptor kept).getLast?.any (sample.reading descriptor).agrees) =
      skips descriptor.changesOnly kept sample := by
  rw [getLast?_window hkeep, skips, Option.any_some]
  cases kept.getLast? with
  | none => simp [Reading.agrees, Reading.isValid, Reading.unread]
  | some last => rfl

/-- **One recording** moves the window on by what retention keeps, and answers whether it did. -/
theorem perform_step (hkeep : 1 ≤ descriptor.keep.toNat) (kept : List Sample) {sample : Sample}
    (hwidth : sample.words.length = descriptor.length.toNat) :
    Queue.perform descriptor (window descriptor kept) sample.step =
      (.ok (!skips descriptor.changesOnly kept sample),
        window descriptor (keep descriptor.changesOnly kept sample)) := by
  have hskips := any_agrees_window hkeep kept sample
  rw [Sample.step, Queue.perform, if_neg (not_not.mpr hwidth)]
  simp only [Sample.reading] at hskips
  rw [keep, hskips]
  cases skips descriptor.changesOnly kept sample with
  | true => rfl
  | false =>
    rw [if_neg Bool.false_ne_true, if_neg Bool.false_ne_true, window_concat hkeep]
    rfl

/-- **A run of recordings** leaves the window of the samples that are kept. -/
theorem run_steps (hkeep : 1 ≤ descriptor.keep.toNat) {samples : List Sample}
    (hwidth : ∀ sample ∈ samples, sample.words.length = descriptor.length.toNat) :
    Queue.run descriptor (window descriptor []) (samples.map Sample.step) =
      window descriptor (kept descriptor.changesOnly samples) := by
  induction samples using List.reverseRecOn with
  | nil => rfl
  | append_singleton samples sample ih =>
    obtain ⟨hbefore, hsample⟩ := List.forall_mem_append.mp hwidth
    have hrun := ih hbefore
    rw [Queue.run] at hrun
    rw [Queue.run, List.map_append, List.foldl_append, hrun, List.map_singleton, List.foldl_cons,
      List.foldl_nil, perform_step hkeep _ (hsample _ List.mem_cons_self), kept_concat]

end Retention

namespace History

variable {descriptor : Descriptor} {history : History}

/-- The history after samples have been recorded. -/
def recordAll (history : History) (samples : List Sample) : History :=
  history.run (samples.map Sample.step)

/-- What a step that records answers is what recording answers. -/
theorem record_of_perform {sample : Sample} {kept : Bool}
    (h : (history.perform sample.step).1 = .ok kept) :
    history.record sample.time sample.words = .ok (kept, (history.perform sample.step).2) := by
  rw [Sample.step, perform] at h ⊢
  cases hrecord : history.record sample.time sample.words with
  | error e =>
    rw [hrecord] at h
    cases h
  | ok result =>
    rw [hrecord] at h
    cases h
    rfl

/-- Recording one more sample is one more step. -/
theorem recordAll_concat (history : History) (samples : List Sample) (sample : Sample) :
    history.recordAll (samples ++ [sample]) =
      ((history.recordAll samples).perform sample.step).2 := by
  rw [recordAll, run, List.map_append, List.foldl_append, List.map_singleton, List.foldl_cons,
    List.foldl_nil, ← run, ← recordAll]

/-- A sample as wide as the register is recorded unless retention skips it. -/
theorem IsFor.record_eq (h : history.IsFor descriptor) (hkeep : 1 ≤ descriptor.keep.toNat)
    {kept : List Sample} (hslots : history.toList = Retention.window descriptor kept)
    {sample : Sample} (hwidth : sample.words.length = descriptor.length.toNat) :
    history.record sample.time sample.words =
      .ok (!Retention.skips descriptor.changesOnly kept sample,
        (history.perform sample.step).2) := by
  refine record_of_perform ?_
  have hstep := h.perform sample.step
  rw [hslots, Retention.perform_step hkeep kept hwidth] at hstep
  exact congrArg Prod.fst hstep

/-- **What a history keeps** of the samples that are recorded. The history that a descriptor begins
records all samples as wide as the register, and each time says whether it kept one. Afterwards its
back is the last kept sample, and it shows those of the last kept samples, as many as there are
slots, that do not have time zero. If only changes are kept, neighbours that it shows differ, and a
sample that was skipped had the words of the last kept one. -/
theorem keeps_last_kept (hkeep : 1 ≤ descriptor.keep.toNat) :
    ∃ history, ofDescriptor descriptor = .ok history ∧
      ∀ samples : List Sample,
        (∀ sample ∈ samples, sample.words.length = descriptor.length.toNat) →
        let after := history.recordAll samples
        let kept := Retention.kept descriptor.changesOnly samples
        (∀ sample : Sample, sample.words.length = descriptor.length.toNat →
          ∃ answer, after.record sample.time sample.words =
              .ok (answer, history.recordAll (samples ++ [sample])) ∧
            (answer = true ↔ Retention.kept descriptor.changesOnly (samples ++ [sample]) =
              kept ++ [sample]) ∧
            (answer = false → Retention.kept descriptor.changesOnly (samples ++ [sample]) = kept ∧
              ∃ last, kept.getLast? = some last ∧ sample.words = last.words)) ∧
        after.back = ((kept.getLast?.map (Sample.reading descriptor)).getD (.unread descriptor)) ∧
        after.valid = Retention.shown descriptor samples ∧
        (descriptor.Interprets →
          ∃ snapshot, after.snapshot = .ok snapshot ∧
            List.Forall₂ (Reading.Means descriptor) (Retention.shown descriptor samples)
              snapshot.measurements) ∧
        (descriptor.changesOnly = true → (∀ sample ∈ samples, sample.time ≠ 0) →
          (Retention.shown descriptor samples).IsChain
            fun first second => first.words ≠ second.words) := by
  obtain ⟨history, hhistory, htoList, hfor⟩ := exists_ofDescriptor hkeep
  refine ⟨history, hhistory, ?_⟩
  intro samples hwidth after kept
  have hempty : history.toList = Retention.window descriptor [] := by
    rw [htoList, Retention.window, List.map_nil, List.append_nil, List.length_nil, List.drop_zero]
  obtain ⟨hafter, hslots⟩ := hfor.run (samples.map Sample.step)
  rw [hempty, Retention.run_steps hkeep hwidth] at hslots
  have hvalid : after.valid = Retention.shown descriptor samples := by
    rw [valid, show after.toList = _ from hslots, Retention.filter_window]
  refine ⟨fun sample hsample => ?_, ?_, hvalid, fun hinterprets => ?_,
    fun hchanges => Retention.isChain_shown hchanges⟩
  · refine ⟨!Retention.skips descriptor.changesOnly kept sample, ?_, ?_, fun hskips => ?_⟩
    · rw [recordAll_concat]
      exact hafter.record_eq hkeep hslots hsample
    · rw [Retention.kept_concat, Retention.keep_eq_concat_iff, Bool.not_eq_true']
    · rw [Bool.not_eq_false'] at hskips
      refine ⟨?_, Retention.exists_last_of_skips hskips⟩
      rw [Retention.kept_concat, Retention.keep_of_skips hskips]
  · have hback := getLast?_toList (history.recordAll samples)
    rw [recordAll, hslots, Retention.getLast?_window hkeep] at hback
    exact (Option.some.inj hback).symm
  · obtain ⟨snapshot, hok, -, -, hmeans⟩ := hafter.exists_snapshot hinterprets
    refine ⟨snapshot, hok, ?_⟩
    rw [← hvalid]
    exact hmeans

/-- Two slots for changes only: the second sample is skipped, the fourth pushes out the first. -/
theorem keeps_last_kept_two :
    let descriptor : Descriptor :=
      { start := 0x40, length := 1, name := "state", keep := 2, changesOnly := true
        format := .integer }
    let samples : List Sample := [⟨1, [0]⟩, ⟨2, [0]⟩, ⟨3, [5]⟩, ⟨4, [0]⟩]
    1 ≤ descriptor.keep.toNat ∧
      (∀ sample ∈ samples, sample.words.length = descriptor.length.toNat) ∧
      ∃ history, ofDescriptor descriptor = .ok history ∧
        (history.recordAll samples).valid =
          [{ descriptor, time := 3, words := [5] }, { descriptor, time := 4, words := [0] }] ∧
        ∃ after, (history.recordAll samples).record 5 [0] = .ok (false, after) := by
  intro descriptor samples
  have hkeep : 1 ≤ descriptor.keep.toNat := by decide
  have hwidth : ∀ sample ∈ samples, sample.words.length = descriptor.length.toNat := by decide
  obtain ⟨history, hhistory, hrun⟩ := keeps_last_kept hkeep
  obtain ⟨hrecord, -, hvalid, -⟩ := hrun samples hwidth
  obtain ⟨answer, hanswer, happended, -⟩ := hrecord ⟨5, [0]⟩ (by decide)
  have hskipped : answer = false := by
    rw [← Bool.not_eq_true, happended]
    decide
  rw [hskipped] at hanswer
  exact ⟨hkeep, hwidth, history, hhistory, hvalid, _, hanswer⟩

end History

end Modbus
