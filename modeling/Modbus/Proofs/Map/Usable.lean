import Modbus.Proofs.Map.Loading
import Modbus.Proofs.Register.Queue

/-!
# Registers that can be used

`Descriptor.check` looks at a descriptor alone, while what can break a promise is what is done with
it later: beginning a history, recording, and interpreting words. A descriptor passes exactly if the
register has words, if readings are kept, and if its format can interpret as many words as there are
(`Descriptor.check_eq_ok_iff_usable`). Hence nothing goes wrong with a history of a register that
passes, as long as it is handed the words that the register has (`History.IsFor.exists_perform`,
`History.IsFor.exists_text`), and nothing but a register without words that holds bytes or text is
refused without need (`Descriptor.useless_of_check`).

`check_sound_and_complete` says both, and what follows for the maps of a loader.
-/

namespace Modbus

namespace Descriptor

variable {descriptor : Descriptor}

/-- Of a register that has words, the format can interpret these if they are not too many and the
point of a number does not stand too far to the left. -/
theorem interprets_iff_maxWords (hlength : descriptor.length ≠ 0) :
    descriptor.Interprets ↔
      descriptor.format.maxWords.filter (· < descriptor.length.toNat) = none ∧
        ¬ (descriptor.format = .float ∧ precisionLimit ≤ descriptor.precision.toNat) := by
  have hpos : descriptor.length.toNat ≠ 0 := fun hzero => hlength (UInt16.toNat_inj.mp hzero)
  rw [Interprets]
  cases descriptor.format <;> simp [Format.maxWords, Option.filter_some] <;> omega

/-- **What the check asks**: words, readings that are kept, and a format that can interpret the
words. -/
theorem check_eq_ok_iff_usable :
    descriptor.check = .ok () ↔
      descriptor.length ≠ 0 ∧ descriptor.keep ≠ 0 ∧ descriptor.Interprets := by
  rw [check_eq_ok_iff, fault?]
  by_cases hlength : descriptor.length = 0
  · rw [if_pos hlength]
    exact iff_of_false (by rintro ⟨⟩) fun husable => husable.1 hlength
  rw [if_neg hlength, and_iff_right hlength]
  by_cases hkeep : descriptor.keep = 0
  · rw [if_pos hkeep]
    exact iff_of_false (by rintro ⟨⟩) fun husable => husable.1 hkeep
  rw [if_neg hkeep, and_iff_right hkeep, interprets_iff_maxWords hlength]
  cases descriptor.format.maxWords.filter (· < descriptor.length.toNat) with
  | some limit => exact iff_of_false (by rintro ⟨⟩) (by rintro ⟨⟨⟩, -⟩)
  | none => rw [and_iff_right rfl, ite_eq_right_iff, imp_iff_not (by rintro ⟨⟩)]

theorem one_le_keep (hkeep : descriptor.keep ≠ 0) : 1 ≤ descriptor.keep.toNat :=
  Nat.one_le_iff_ne_zero.mpr fun hzero => hkeep (UInt16.toNat_inj.mp hzero)

/-- Bytes and text can be made of no words, numbers cannot. -/
theorem Interprets.hex_or_string (h : descriptor.Interprets) (hlength : descriptor.length = 0) :
    descriptor.format = .hex ∨ descriptor.format = .string := by
  rw [Interprets, hlength] at h
  cases hformat : descriptor.format with
  | hex => exact .inl rfl
  | string => exact .inr rfl
  | integer | flags =>
    rw [hformat] at h
    exact Or.elim h (by decide) (by decide)
  | float =>
    rw [hformat] at h
    exact h.1.elim (by decide) (by decide)

/-- **What the check refuses** is useless: a register without words that holds bytes or text, or one
of which no history can be begun, or one whose words never mean anything. -/
theorem useless_of_check {fault : DescriptorFault} (h : descriptor.check = .error fault) :
    (descriptor.length = 0 ∧ (descriptor.format = .hex ∨ descriptor.format = .string)) ∨
      (∃ violation, History.ofDescriptor descriptor = .error violation) ∨
      ∀ (words : List UInt16) (time : UInt32), words.length = descriptor.length.toNat →
        ∃ violation, Measurement.ofWords descriptor words time = .error violation := by
  have hunusable : ¬ descriptor.check = .ok () := by
    rw [h]
    rintro ⟨⟩
  rw [check_eq_ok_iff_usable] at hunusable
  by_cases hkeep : descriptor.keep = 0
  · refine .inr (.inl ⟨.noHistory descriptor.start, dif_neg ?_⟩)
    rw [hkeep]
    exact Nat.lt_irrefl 0
  by_cases hinterprets : descriptor.Interprets
  · have hlength : descriptor.length = 0 := by
      by_contra hlength
      exact hunusable ⟨hlength, hkeep, hinterprets⟩
    exact .inl ⟨hlength, hinterprets.hex_or_string hlength⟩
  · refine .inr (.inr fun words time hwidth => ?_)
    have hnone := (exists_ofWords_iff hwidth).not.mpr hinterprets
    rw [Measurement.ofWords]
    cases hvalue : Value.ofWords descriptor words with
    | error violation => exact ⟨violation, rfl⟩
    | ok value => exact absurd ⟨value, hvalue⟩ hnone

end Descriptor

/-- The step hands over as many words as the register has, if it hands over words. -/
def History.Step.Fits (descriptor : Descriptor) : History.Step → Prop
  | .record _ words | .setFront _ words => words.length = descriptor.length.toNat
  | .setFrontTime _ | .advance | .setAddress _ => True

namespace History

variable {descriptor : Descriptor} {history : History}

/-- A step that fits does not fail. -/
theorem IsFor.exists_perform (h : history.IsFor descriptor) {step : Step}
    (hfits : step.Fits descriptor) : ∃ kept, (history.perform step).1 = .ok kept := by
  have hanswer := congrArg Prod.fst (h.perform step)
  cases step with
  | record time words =>
    have hwidth : words.length = descriptor.length.toNat := hfits
    rw [Queue.perform, if_neg (not_not.mpr hwidth)] at hanswer
    split at hanswer
    · exact ⟨false, hanswer⟩
    · exact ⟨true, hanswer⟩
  | setFront time words =>
    have hwidth : words.length = descriptor.length.toNat := hfits
    rw [Queue.perform, if_neg (not_not.mpr hwidth)] at hanswer
    exact ⟨false, hanswer⟩
  | setFrontTime | advance | setAddress => exact ⟨false, hanswer⟩

/-- Every slot of a register that can be interpreted means something of its format. -/
theorem IsFor.exists_measurement_of_mem (h : history.IsFor descriptor)
    (hinterprets : descriptor.Interprets) {reading : Reading} (hmem : reading ∈ history.toList) :
    ∃ measurement, reading.measurement = .ok measurement ∧
      measurement.value.format = descriptor.format := by
  obtain ⟨measurement, hok, hmeans⟩ := (h.slots reading hmem).exists_measurement hinterprets
  exact ⟨measurement, hok, Descriptor.format_eq_of_ofWords hmeans.2⟩

/-- What a history of a register that can be interpreted shows is of its format. -/
theorem IsFor.exists_snapshot_format (h : history.IsFor descriptor)
    (hinterprets : descriptor.Interprets) :
    ∃ snapshot, history.snapshot = .ok snapshot ∧
      ∀ measurement ∈ snapshot.measurements, measurement.value.format = descriptor.format := by
  obtain ⟨snapshot, hok, -, -, hmeans⟩ := h.exists_snapshot hinterprets
  have hformats := hmeans.flip.imp fun measurement (reading : Reading) hreading =>
    And.intro (Descriptor.format_eq_of_ofWords hreading.2) hreading
  exact ⟨snapshot, hok, ((List.forall₂_and_left _ _).mp hformats).1⟩

/-- A history of a register that can be interpreted can be shown on a line. -/
theorem IsFor.exists_text (h : history.IsFor descriptor) (hinterprets : descriptor.Interprets) :
    ∃ line, history.text = .ok line := by
  obtain ⟨measurements, hmeasurements, -⟩ := h.exists_measurements hinterprets
  rw [text, hmeasurements]
  exact ⟨_, rfl⟩

end History

/-- The histories of a map whose descriptors all keep readings. -/
theorem DeviceMap.exists_histories {map : DeviceMap}
    (h : ∀ descriptor ∈ map.descriptors, descriptor.check = .ok ()) :
    ∃ histories, map.histories = .ok histories ∧
      List.Forall₂ (fun (entry : UInt16 × Descriptor) history =>
        History.ofDescriptor entry.2 = .ok history ∧ history.descriptor = entry.2 ∧
          history.capacity = entry.2.keep.toNat) map.registers.entries histories := by
  have hbegin : ∀ descriptor ∈ map.descriptors, ∃ history,
      History.ofDescriptor descriptor = .ok history ∧
        (History.ofDescriptor descriptor = .ok history ∧ history.descriptor = descriptor ∧
          history.capacity = descriptor.keep.toNat) := by
    intro descriptor hmem
    obtain ⟨-, hkeep, -⟩ := Descriptor.check_eq_ok_iff_usable.mp (h descriptor hmem)
    obtain ⟨history, hhistory, -, hfor⟩ :=
      History.exists_ofDescriptor (Descriptor.one_le_keep hkeep)
    exact ⟨history, hhistory, hhistory, hfor.descriptor_eq, hfor.capacity_eq⟩
  obtain ⟨histories, hhistories, hall⟩ := exists_mapM_eq_ok hbegin
  exact ⟨histories, hhistories, (List.forall₂_map_left_iff).mp hall⟩

/-- **The check is sound and complete.** A history of a register that passes can be begun, and
whatever is done with it, a step that hands over as many words as the register has does not fail,
every slot means something of the format of the register, and so does all that is shown. What does
not pass is useless (`Descriptor.useless_of_check`). The histories of a map that a loader has taken
in can all be begun, in the order of the register addresses. -/
theorem check_sound_and_complete :
    (∀ descriptor : Descriptor, descriptor.check = .ok () →
      ∃ history, History.ofDescriptor descriptor = .ok history ∧
        ∀ steps : List History.Step,
          let after := history.run steps
          (∀ step : History.Step, step.Fits descriptor →
            ∃ kept, (after.perform step).1 = .ok kept) ∧
          (∀ reading ∈ after.toList, ∃ measurement, reading.measurement = .ok measurement ∧
            measurement.value.format = descriptor.format) ∧
          (∃ snapshot, after.snapshot = .ok snapshot ∧
            ∀ measurement ∈ snapshot.measurements,
              measurement.value.format = descriptor.format) ∧
          ∃ line, after.text = .ok line) ∧
    (∀ (descriptor : Descriptor) (fault : DescriptorFault), descriptor.check = .error fault →
      (descriptor.length = 0 ∧ (descriptor.format = .hex ∨ descriptor.format = .string)) ∨
        (∃ violation, History.ofDescriptor descriptor = .error violation) ∨
        ∀ (words : List UInt16) (time : UInt32), words.length = descriptor.length.toNat →
          ∃ violation, Measurement.ofWords descriptor words time = .error violation) ∧
    ∀ steps : List Loader.Step, ∀ map ∈ (({} : Loader).run steps).maps,
      (map.registers.entries.Pairwise fun first second => first.1 < second.1) ∧
        ∃ histories, map.histories = .ok histories ∧
          List.Forall₂ (fun (entry : UInt16 × Descriptor) history =>
            History.ofDescriptor entry.2 = .ok history ∧ history.descriptor = entry.2 ∧
              history.capacity = entry.2.keep.toNat) map.registers.entries histories := by
  refine ⟨fun descriptor hcheck => ?_, fun descriptor fault => Descriptor.useless_of_check,
    fun steps map hmem => ⟨?_, ?_⟩⟩
  · obtain ⟨-, hkeep, hinterprets⟩ := Descriptor.check_eq_ok_iff_usable.mp hcheck
    obtain ⟨history, hhistory, -, hfor⟩ :=
      History.exists_ofDescriptor (Descriptor.one_le_keep hkeep)
    refine ⟨history, hhistory, fun steps => ?_⟩
    obtain ⟨hafter, -⟩ := hfor.run steps
    exact ⟨fun step => hafter.exists_perform,
      fun reading => hafter.exists_measurement_of_mem hinterprets,
      hafter.exists_snapshot_format hinterprets, hafter.exists_text hinterprets⟩
  · exact map.registers.ascending.imp UInt16.lt_iff_toNat_lt.mpr
  · have hsound := Loader.isSound_run Loader.isSound_empty steps
    exact DeviceMap.exists_histories (hsound.usable map hmem)

end Modbus
