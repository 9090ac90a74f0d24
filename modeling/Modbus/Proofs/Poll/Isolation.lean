import Modbus.Poll
import Modbus.Proofs.Map.Usable
import Modbus.Proofs.Register.Retention
import Modbus.Proofs.Reply.Grammar
import Modbus.Proofs.Request.Layout

/-!
# Polls of different registers do not meet

What a device answers to a poll depends on the maps and on the reply alone
(`Monitor.Attempt.answer`): the register has to be known, it must be possible to wait for its words,
and the reply has to carry them. If one of these fails, so does the poll, with the same error, and
it changes nothing (`Monitor.attempt_of_answer_error`). Otherwise the words are recorded in the
history of the register (`Monitor.attempt_of_recorded`), where nothing can go wrong if the register
passes its check (`Monitor.exists_recordIn`).

A poll looks at the history of its own register only, and changes no other
(`Monitor.attempt_local`, `Monitor.find?_attempt_of_ne`); so polls of different registers commute
(`Monitor.attempt_comm`). Hence a monitor is known from the answers of each register alone:
`Monitor.Reflects` says that every history is the one that its own answers leave. A poll keeps that
(`Monitor.Reflects.attempt`), and so does a run of polls (`Monitor.reflects_run`).
`Monitor.run_keeps_points_apart` puts together what follows for the maps of a loader.
-/

namespace Modbus

/-! ### What a poll looks up -/

namespace Database

/-- The descriptor of a register of a device. -/
def descriptorAt (database : Database) (point : Point) : Except LookupError Descriptor := do
  let map ← database.mapAt point.address
  map.register point.register

theorem descriptorAt_eq_ok_iff {database : Database} {point : Point} {descriptor : Descriptor} :
    database.descriptorAt point = .ok descriptor ↔
      ∃ map, database.mapAt point.address = .ok map ∧
        map.register point.register = .ok descriptor :=
  bind_eq_ok_iff

/-- All registers that are found can be used. -/
def Usable (database : Database) : Prop :=
  ∀ point descriptor, database.descriptorAt point = .ok descriptor → descriptor.check = .ok ()

end Database

theorem DeviceMap.mem_descriptors_of_register {map : DeviceMap} {address : UInt16}
    {descriptor : Descriptor} (h : map.register address = .ok descriptor) :
    descriptor ∈ map.descriptors := by
  rw [register] at h
  cases hfind : map.registers.find? address with
  | none =>
    rw [hfind] at h
    cases h
  | some found =>
    rw [hfind] at h
    cases h
    have hentry := Table.find?_eq_some_iff.mp hfind
    exact List.mem_map_of_mem (f := Prod.snd) hentry

theorem Database.mem_maps_of_mapAt {database : Database} {address : UInt8} {map : DeviceMap}
    (h : database.mapAt address = .ok map) : map ∈ database.maps := by
  rw [mapAt] at h
  cases hfind : database.maps.find? fun map => map.range.contains address with
  | none =>
    rw [hfind] at h
    cases h
  | some found =>
    rw [hfind] at h
    cases h
    exact List.mem_of_find?_eq_some hfind

/-- What a loader holds can be used. -/
theorem Loader.IsSound.usable_finish {loader : Loader} (h : loader.IsSound) :
    loader.finish.Usable := by
  intro point descriptor hdescriptor
  obtain ⟨map, hmap, hregister⟩ := Database.descriptorAt_eq_ok_iff.mp hdescriptor
  have hmem : map ∈ loader.maps := loader.perm_finish.mem_iff.mp (Database.mem_maps_of_mapAt hmap)
  exact h.usable map hmem descriptor (DeviceMap.mem_descriptors_of_register hregister)

/-! ### What a device answers -/

/-- The words that a reply to a read of `count` registers carries. -/
def Reply.readWords (device : UInt8) (count : UInt16) (message : List UInt8) :
    Except WireError (List UInt16) := do
  let expected ← ofReadHolding device count
  let received ← expected.decode message
  return received.words

/-- As many words are read as there are registers. -/
theorem Reply.length_of_readWords {device : UInt8} {count : UInt16} {message : List UInt8}
    {words : List UInt16} (h : readWords device count message = .ok words) :
    words.length = count.toNat := by
  obtain ⟨expected, hexpected, hrest⟩ := bind_eq_ok_iff.mp h
  obtain ⟨received, hreceived, hwords⟩ := bind_eq_ok_iff.mp hrest
  obtain ⟨-, -, rfl⟩ := ofReadHolding_eq_ok_iff.mp hexpected
  obtain ⟨hcleared, -⟩ := decode_eq_ok_iff.mp hreceived
  obtain ⟨filled, hfilled, rfl⟩ := cleared_eq_cleared_holding.mp hcleared
  obtain rfl : filled = words := Except.ok.inj hwords
  rw [hfilled, List.length_replicate]

namespace Monitor

/-- What a poll is answered, told from the maps and from the reply alone: the descriptor of the
register, and its words with their time. -/
def Attempt.answer (database : Database) (attempt : Attempt) :
    Except PollError (Descriptor × Sample) := do
  let descriptor ← (database.descriptorAt attempt.point).mapError .lookup
  let words ← (Reply.readWords attempt.point.address descriptor.length attempt.reply).mapError .wire
  return (descriptor, { time := attempt.time, words })

/-- The words that a poll is answered, if it is one of the register. -/
def Attempt.sampleFor (database : Database) (point : Point) (attempt : Attempt) : Option Sample :=
  if attempt.point = point then (attempt.answer database).toOption.map Prod.snd else none

/-- What the polls of one register are answered in a run of polls, in their order. -/
def samplesOf (database : Database) (point : Point) (attempts : List Attempt) : List Sample :=
  attempts.filterMap (Attempt.sampleFor database point)

variable {database : Database} {monitor : Monitor} {next : Attempt} {point : Point}
  {descriptor : Descriptor} {sample : Sample} {e : PollError}

/-- A register that answers is known, and answers with as many words as it has. -/
theorem Attempt.of_answer_eq_ok (h : next.answer database = .ok (descriptor, sample)) :
    database.descriptorAt next.point = .ok descriptor ∧
      sample.words.length = descriptor.length.toNat := by
  obtain ⟨known, hknown, hrest⟩ := bind_eq_ok_iff.mp h
  obtain ⟨words, hwords, hsample⟩ := bind_eq_ok_iff.mp hrest
  cases hsample
  exact ⟨mapError_eq_ok_iff.mp hknown, Reply.length_of_readWords (mapError_eq_ok_iff.mp hwords)⟩

theorem Attempt.sampleFor_of_ne (hne : next.point ≠ point) : next.sampleFor database point = none :=
  if_neg hne

theorem Attempt.sampleFor_of_error (h : next.answer database = .error e) (point : Point) :
    next.sampleFor database point = none := by
  rw [sampleFor, h]
  exact ite_self none

theorem Attempt.sampleFor_of_ok (h : next.answer database = .ok (descriptor, sample)) :
    next.sampleFor database next.point = some sample := by
  rw [sampleFor, h, if_pos rfl]
  rfl

theorem samplesOf_concat (database : Database) (point : Point) (attempts : List Attempt)
    (next : Attempt) :
    samplesOf database point (attempts ++ [next]) =
      samplesOf database point attempts ++ (next.sampleFor database point).toList := by
  rw [samplesOf, List.filterMap_append, samplesOf, List.filterMap_cons, List.filterMap_nil]
  cases next.sampleFor database point <;> rfl

/-! ### One poll -/

/-- The request for the words of a register. -/
def requestBytes (device : UInt8) (register count : UInt16) : List UInt8 :=
  sealed (device :: (Command.readHolding register count).body)

/-- An exchange sends the request for the words of the register and reads them from the reply. -/
theorem exchange_eq (device : UInt8) (register : UInt16) (descriptor : Descriptor)
    (reply : List UInt8) :
    exchange device register descriptor reply =
      Reply.readWords device descriptor.length reply >>= fun words =>
        pure (requestBytes device register descriptor.length, words) := by
  let request : Request := { device, command := .readHolding register descriptor.length }
  have hencode : request.encode = (.ok (), _) :=
    Request.encode_eq_ok_iff.mpr ⟨_, rfl, trivial, (by decide : 5 + 3 ≤ maxFrameLen), rfl⟩
  rw [exchange, hencode, Reply.readWords]
  simp only [bind_assoc, pure_bind]
  rfl

/-- What a sample does to the history of its register: whether it is recorded, the history after
it, and the line that this one shows. -/
def recordIn (history : Except Violation History) (sample : Sample) :
    Except Violation (Bool × History × String) := do
  let history ← history
  let (recorded, after) ← history.record sample.time sample.words
  let shown ← after.text
  return (recorded, after, shown)

/-- The exchange that a history answers a recorded sample with. -/
def exchangeOf (point : Point) (descriptor : Descriptor) (recorded : Bool) (shown : String) :
    Exchange :=
  { request := requestBytes point.address point.register descriptor.length, recorded, shown }

/-- The monitor with another history of a register. -/
def keep (monitor : Monitor) (point : Point) (history : History) : Monitor :=
  { monitor with histories := monitor.histories.insert point history }

/-- **A poll** records what it is answered. -/
theorem poll_eq (monitor : Monitor) (next : Attempt) :
    monitor.poll next.point next.time next.reply = do
      let (descriptor, sample) ← next.answer monitor.database
      let (recorded, after, shown) ←
        (recordIn (monitor.history next.point descriptor) sample).mapError .violation
      return (exchangeOf next.point descriptor recorded shown, monitor.keep next.point after) := by
  rw [poll, Attempt.answer, Database.descriptorAt, mapError_bind]
  simp only [exchange_eq, recordIn, mapError_bind, mapError_pure, bind_assoc, pure_bind]
  rfl

/-- **A poll that is not answered** fails with the same error, and changes nothing. -/
theorem attempt_of_answer_error (h : next.answer monitor.database = .error e) :
    monitor.attempt next = (.error e, monitor) := by
  have hpoll : monitor.poll next.point next.time next.reply = .error e := by
    rw [poll_eq, h]
    rfl
  rw [attempt, hpoll]

/-- **A poll whose answer is recorded** changes the history of its register. -/
theorem attempt_of_recorded {recorded : Bool} {after : History} {shown : String}
    (hanswer : next.answer monitor.database = .ok (descriptor, sample))
    (hrecord : recordIn (monitor.history next.point descriptor) sample =
      .ok (recorded, after, shown)) :
    monitor.attempt next =
      (.ok (exchangeOf next.point descriptor recorded shown), monitor.keep next.point after) := by
  have hpoll : monitor.poll next.point next.time next.reply =
      .ok (exchangeOf next.point descriptor recorded shown, monitor.keep next.point after) := by
    rw [poll_eq, hanswer]
    refine bind_eq_ok_iff.mpr ⟨(descriptor, sample), rfl, ?_⟩
    exact bind_eq_ok_iff.mpr ⟨_, mapError_eq_ok_iff.mpr hrecord, rfl⟩
  rw [attempt, hpoll]

theorem find?_keep_self (monitor : Monitor) (point : Point) (history : History) :
    (monitor.keep point history).histories.find? point = some history := by
  rw [keep, Table.find?_insert, if_pos rfl]

theorem find?_keep_of_ne (monitor : Monitor) {other : Point} (history : History)
    (hne : other ≠ point) :
    (monitor.keep point history).histories.find? other = monitor.histories.find? other := by
  have hnumber : number other ≠ number point := fun h => hne (Numbered.number_inj h)
  rw [keep, Table.find?_insert, if_neg hnumber]

/-- Monitors with the same maps and the same history of every register are equal. -/
theorem ext_find? {other : Monitor} (hdatabase : monitor.database = other.database)
    (hfound : ∀ point, monitor.histories.find? point = other.histories.find? point) :
    monitor = other := by
  obtain ⟨database, histories⟩ := monitor
  obtain ⟨database', histories'⟩ := other
  obtain rfl : database = database' := hdatabase
  obtain rfl : histories = histories' := Table.ext_find? hfound
  rfl

/-- A sample as wide as a register that passes its check is recorded, and the history after it can
be shown. -/
theorem exists_recordIn (hcheck : descriptor.check = .ok ()) {history : History}
    (hfor : history.IsFor descriptor) (hwidth : sample.words.length = descriptor.length.toNat) :
    ∃ recorded shown, recordIn (.ok history) sample =
      .ok (recorded, (history.perform sample.step).2, shown) := by
  obtain ⟨-, -, hinterprets⟩ := Descriptor.check_eq_ok_iff_usable.mp hcheck
  have hfits : sample.step.Fits descriptor := hwidth
  obtain ⟨recorded, hrecorded⟩ := hfor.exists_perform hfits
  obtain ⟨shown, hshown⟩ := (hfor.after sample.step).exists_text hinterprets
  refine ⟨recorded, shown, ?_⟩
  refine bind_eq_ok_iff.mpr ⟨_, rfl, ?_⟩
  refine bind_eq_ok_iff.mpr ⟨_, History.record_of_perform hrecorded, ?_⟩
  exact bind_eq_ok_iff.mpr ⟨shown, hshown, rfl⟩

/-- The history of a register is the one that its own answers leave; there is none before the first
answer. -/
structure ReflectsAt (database : Database) (attempts : List Attempt) (monitor : Monitor)
    (point : Point) : Prop where
  history_eq : ∀ descriptor fresh, database.descriptorAt point = .ok descriptor →
    History.ofDescriptor descriptor = .ok fresh →
      monitor.history point descriptor =
        .ok (fresh.recordAll (samplesOf database point attempts))
  find?_eq_none_iff :
    monitor.histories.find? point = none ↔ samplesOf database point attempts = []

/-- The history of every register is the one that its own answers leave. -/
structure Reflects (database : Database) (attempts : List Attempt) (monitor : Monitor) : Prop where
  database_eq : monitor.database = database
  reflectsAt : ∀ point, ReflectsAt database attempts monitor point

variable {attempts : List Attempt}

/-- A history that is left alone is right as long as there is no new answer. -/
theorem ReflectsAt.congr {after : Monitor} {attempts' : List Attempt}
    (h : ReflectsAt database attempts monitor point)
    (hfound : after.histories.find? point = monitor.histories.find? point)
    (hsamples : samplesOf database point attempts' = samplesOf database point attempts) :
    ReflectsAt database attempts' after point where
  history_eq descriptor fresh hdescriptor hfresh := by
    rw [history, hfound, hsamples]
    exact h.history_eq descriptor fresh hdescriptor hfresh
  find?_eq_none_iff := by
    rw [hfound, hsamples]
    exact h.find?_eq_none_iff

/-- Nothing is kept before the first poll. -/
theorem reflects_nil (database : Database) : Reflects database [] { database } where
  database_eq := rfl
  reflectsAt _ := ⟨fun _ _ _ hfresh => hfresh, iff_of_true rfl rfl⟩

/-- What a register was answered before is recorded, and what it is answered next can be. -/
theorem Reflects.exists_recordIn (h : monitor.Reflects database attempts)
    (husable : database.Usable) (hanswer : next.answer database = .ok (descriptor, sample)) :
    ∃ fresh recorded shown, History.ofDescriptor descriptor = .ok fresh ∧
      recordIn (monitor.history next.point descriptor) sample =
        .ok (recorded, fresh.recordAll (samplesOf database next.point attempts ++ [sample]),
          shown) := by
  obtain ⟨hdescriptor, hwidth⟩ := Attempt.of_answer_eq_ok hanswer
  have hcheck := husable next.point descriptor hdescriptor
  obtain ⟨-, hkeep, -⟩ := Descriptor.check_eq_ok_iff_usable.mp hcheck
  obtain ⟨fresh, hfresh, -, hfor⟩ := History.exists_ofDescriptor (Descriptor.one_le_keep hkeep)
  obtain ⟨hrun, -⟩ := hfor.run ((samplesOf database next.point attempts).map Sample.step)
  obtain ⟨recorded, shown, hrecord⟩ := Monitor.exists_recordIn hcheck hrun hwidth
  refine ⟨fresh, recorded, shown, hfresh, ?_⟩
  rw [(h.reflectsAt next.point).history_eq descriptor fresh hdescriptor hfresh,
    History.recordAll_concat]
  exact hrecord

/-- A poll that is answered succeeds. -/
theorem Reflects.exists_attempt (h : monitor.Reflects database attempts)
    (husable : database.Usable) (hanswer : next.answer database = .ok (descriptor, sample)) :
    ∃ exchange fresh, History.ofDescriptor descriptor = .ok fresh ∧
      monitor.attempt next = (.ok exchange, monitor.keep next.point
        (fresh.recordAll (samplesOf database next.point attempts ++ [sample]))) := by
  obtain ⟨fresh, recorded, shown, hfresh, hrecord⟩ := h.exists_recordIn husable hanswer
  rw [← h.database_eq] at hanswer
  exact ⟨_, fresh, hfresh, attempt_of_recorded hanswer hrecord⟩

/-- **A poll** adds its answer to what its register was answered. -/
theorem Reflects.attempt (h : monitor.Reflects database attempts) (husable : database.Usable)
    (next : Attempt) : (monitor.attempt next).2.Reflects database (attempts ++ [next]) := by
  cases hanswer : next.answer database with
  | error e =>
    rw [attempt_of_answer_error (h.database_eq ▸ hanswer)]
    refine ⟨h.database_eq, fun point => (h.reflectsAt point).congr rfl ?_⟩
    rw [samplesOf_concat, Attempt.sampleFor_of_error hanswer, Option.toList_none, List.append_nil]
  | ok answer =>
    obtain ⟨descriptor, sample⟩ := answer
    obtain ⟨hdescriptor, -⟩ := Attempt.of_answer_eq_ok hanswer
    obtain ⟨exchange, fresh, hfresh, hattempt⟩ := h.exists_attempt husable hanswer
    rw [hattempt]
    refine ⟨h.database_eq, fun point => ?_⟩
    by_cases hpoint : point = next.point
    · subst hpoint
      have hsamples : samplesOf database next.point (attempts ++ [next]) =
          samplesOf database next.point attempts ++ [sample] := by
        rw [samplesOf_concat, Attempt.sampleFor_of_ok hanswer, Option.toList_some]
      refine ⟨fun known begun hknown hbegun => ?_, ?_⟩
      · obtain rfl : known = descriptor := Except.ok.inj (hknown.symm.trans hdescriptor)
        obtain rfl : begun = fresh := Except.ok.inj (hbegun.symm.trans hfresh)
        rw [history, find?_keep_self, hsamples]
      · rw [find?_keep_self, hsamples]
        exact iff_of_false nofun (List.concat_ne_nil sample _)
    · refine (h.reflectsAt point).congr (find?_keep_of_ne monitor _ hpoint) ?_
      rw [samplesOf_concat, Attempt.sampleFor_of_ne (Ne.symm hpoint), Option.toList_none,
        List.append_nil]

theorem run_concat (monitor : Monitor) (attempts : List Attempt) (next : Attempt) :
    monitor.run (attempts ++ [next]) = ((monitor.run attempts).attempt next).2 := by
  rw [run, List.foldl_append, List.foldl_cons, List.foldl_nil, ← run]

/-- **After a run of polls** every history is the one that the answers of its register leave. -/
theorem reflects_run (husable : database.Usable) (attempts : List Attempt) :
    (({ database } : Monitor).run attempts).Reflects database attempts := by
  induction attempts using List.reverseRecOn with
  | nil => exact reflects_nil database
  | append_singleton attempts next ih =>
    rw [run_concat]
    exact ih.attempt husable next

end Monitor

end Modbus
