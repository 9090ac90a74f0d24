import Modbus.Proofs.Reply.Layout
import Modbus.Proofs.Request.Layout

/-!
# The device's side of a request

`Request.read?` takes a request apart as a device does, which knows nothing about the command but
the message: it looks at the check, then at the function, and reads what the function calls for. It
finds the command again that was laid out (`Command.read?_of_laidOut`), up to what does not travel:
whether a zero at the end of a payload is padding, and what the words of a record were
(`Command.onWire`). Two requests that are sent alike are therefore for the same device and the same
command. `Request.encode_exact_and_readable` says this of requests with any past.
-/

namespace Modbus

namespace FileRecord

/-- The records that the parts of a request ask for. -/
def readParts? : List UInt8 → Option (List FileRecord)
  | [] => some []
  | reference :: f :: f' :: r :: r' :: s :: s' :: rest =>
    if reference = fileReference then
      let record := blank (wordOfBytes f f') (wordOfBytes r r') (wordOfBytes s s').toNat
      (readParts? rest).map (record :: ·)
    else none
  | _ => none

theorem readParts?_part (file record size : UInt16) (rest : List UInt8) :
    readParts? (fileReference ::
      (wordBytes file ++ (wordBytes record ++ (wordBytes size ++ rest)))) =
        (readParts? rest).map (blank file record size.toNat :: ·) := by
  simp only [wordBytes, List.cons_append, List.nil_append, readParts?, if_true,
    wordOfBytes_wordBytes]

/-- The parts of a request say everything about the records but their words. -/
theorem readParts?_requestParts {records : List FileRecord}
    (hsizes : ∀ record ∈ records, record.size < 65536) :
    readParts? (requestParts records) = some (records.map cleared) := by
  induction records with
  | nil => rfl
  | cons record records ih =>
    obtain ⟨hsize, hrest⟩ := List.forall_mem_cons.mp hsizes
    have hword : (UInt16.ofNat record.size).toNat = record.size := UInt16.toNat_ofNat_of_lt' hsize
    rw [requestParts_cons, readParts?_part, hword, ih hrest]
    rfl

end FileRecord

namespace Command

/-- The command without what does not travel: whether its payload was padded, and what the words of
its records were. -/
def onWire : Command → Command
  | writeMultiple start payload => writeMultiple start (padded payload)
  | readRecords records => readRecords (records.map FileRecord.cleared)
  | command => command

/-- The command that a function and what stands behind it call for. -/
def read? (function : UInt8) (body : List UInt8) : Option Command :=
  if function = readHoldingCode then
    match body with
    | [s, s', c, c'] => some (.readHolding (wordOfBytes s s') (wordOfBytes c c'))
    | _ => none
  else if function = writeSingleCode then
    match body with
    | [r, r', v, v'] => some (.writeSingle (wordOfBytes r r') (wordOfBytes v v'))
    | _ => none
  else if function = writeMultipleCode then
    match body with
    | s :: s' :: c :: c' :: byteCount :: payload =>
      -- both counts must be those of the payload
      if payload.length = byteCount.toNat ∧ payload.length = 2 * (wordOfBytes c c').toNat then
        some (.writeMultiple (wordOfBytes s s') payload)
      else none
    | _ => none
  else if function = readRecordsCode then
    match body with
    | byteCount :: parts =>
      if parts.length = byteCount.toNat then (FileRecord.readParts? parts).map .readRecords
      else none
    | [] => none
  else none

/-- **A command reads back** from what it is laid out as. -/
theorem read?_of_laidOut {command : Command} {function : UInt8} {body : List UInt8}
    (h : command.LaidOut (function :: body)) : read? function body = some command.onWire := by
  cases h with
  | readHolding start count =>
    rw [read?.eq_def, if_pos rfl]
    simp only [wordBytes, List.cons_append, List.nil_append, wordOfBytes_wordBytes, onWire]
  | writeSingle register value =>
    rw [read?.eq_def, if_neg (by decide), if_pos rfl]
    simp only [wordBytes, List.cons_append, List.nil_append, wordOfBytes_wordBytes, onWire]
  | @writeMultiple start count byteCount payload padding hpayload hpadding hcount hbyteCount =>
    have heven : (payload ++ padding).length % 2 = 0 := by omega
    have hpadded : padded payload = payload ++ padding := padded_eq_append hpadding heven
    rw [read?.eq_def, if_neg (by decide), if_neg (by decide), if_pos rfl]
    simp only [wordBytes, List.cons_append, List.nil_append, wordOfBytes_wordBytes, onWire]
    rw [if_pos ⟨hcount.trans hbyteCount.symm, hcount⟩, hpadded]
  | @readRecords byteCount records hrecords hbyteCount hsizes =>
    have hlength : (FileRecord.requestParts records).length = byteCount.toNat := by
      rw [FileRecord.length_requestParts, hbyteCount]
    rw [read?.eq_def, if_neg (by decide), if_neg (by decide), if_neg (by decide), if_pos rfl]
    show (if _ then _ else _) = _
    rw [if_pos hlength, FileRecord.readParts?_requestParts hsizes]
    rfl

end Command

namespace Request

/-- The command in a message, and the device that it is for. -/
def read? (message : List UInt8) : Option (UInt8 × Command) :=
  let size := message.length - crcLen
  if crc16 (message.take size) = crcOfTrailer (message.drop size) then
    match message.take size with
    | device :: function :: body => (Command.read? function body).map (device, ·)
    | _ => none
  else none

/-- **A request reads back** from the message that it is laid out as. -/
theorem read?_sealed {device : UInt8} {command : Command} {body : List UInt8}
    (h : command.LaidOut body) :
    read? (sealed (device :: body)) = some (device, command.onWire) := by
  obtain ⟨function, rest, rfl⟩ := h.exists_eq_cons
  have hsize : (sealed (device :: function :: rest)).length - crcLen =
      (device :: function :: rest).length := by
    rw [length_sealed, crcLen, Nat.add_sub_cancel]
  rw [read?, hsize, sealed, List.take_left, List.drop_left, crcOfTrailer_crcTrailer]
  simp only [if_true, Command.read?_of_laidOut h, Option.map_some]

/-- What is encoded is laid out as the command asks. -/
theorem exists_laidOut_of_encode {request sent : Request} (h : request.encode = (.ok (), sent)) :
    ∃ body, request.command.LaidOut body ∧ sent.frame.bytes = sealed (request.device :: body) := by
  obtain ⟨prepared, hprepare, hsizes, hfits, rfl⟩ := encode_eq_ok_iff.mp h
  exact ⟨prepared.body, Command.laidOut_body hprepare hsizes hfits, rfl⟩

theorem read?_of_encode {request sent : Request} (h : request.encode = (.ok (), sent)) :
    read? sent.frame.bytes = some (request.device, request.command.onWire) := by
  obtain ⟨body, hbody, hbytes⟩ := exists_laidOut_of_encode h
  rw [hbytes, read?_sealed hbody]

/-- **Requests are exact on the wire and read in one way only.** A request that is encoded, whatever
was done with it before, is laid out as its command asks, the same whatever the frame held; a device
reads its command from it, so that no other command is sent alike; and it is encoded the same
again. -/
theorem encode_exact_and_readable {request sent : Request} {steps : List Step}
    (h : (request.run steps).encode = (.ok (), sent)) :
    (∃ body, (request.run steps).command.LaidOut body ∧
      sent.frame.bytes = sealed ((request.run steps).device :: body)) ∧
    (∀ frame, ({ request.run steps with frame } : Request).encode =
      (.ok (), { sent with frame := { sent.frame with expectedLen := frame.expectedLen } })) ∧
    read? sent.frame.bytes =
      some ((request.run steps).device, (request.run steps).command.onWire) ∧
    (∀ {other sent' : Request} {steps' : List Step},
      (other.run steps').encode = (.ok (), sent') → sent'.frame.bytes = sent.frame.bytes →
        (other.run steps').device = (request.run steps).device ∧
          (other.run steps').command.onWire = (request.run steps).command.onWire) ∧
    sent.encode = (.ok (), sent) := by
  have hread := read?_of_encode h
  refine ⟨exists_laidOut_of_encode h, ?_, hread, ?_, ?_⟩
  · intro frame
    obtain ⟨prepared, hprepare, hsizes, hfits, rfl⟩ := encode_eq_ok_iff.mp h
    exact encode_eq_ok_iff.mpr ⟨prepared, hprepare, hsizes, hfits, rfl⟩
  · intro other sent' steps' h' hbytes
    have hread' := read?_of_encode h'
    rw [hbytes, hread, Option.some.injEq, Prod.mk.injEq] at hread'
    exact ⟨hread'.1.symm, hread'.2.symm⟩
  · obtain ⟨prepared, hprepare, hsizes, hfits, rfl⟩ := encode_eq_ok_iff.mp h
    exact encode_eq_ok_iff.mpr
      ⟨prepared, Command.prepare_prepared hprepare, hsizes, hfits, rfl⟩

/-- A bulk write that is padded twice, once between its parts, reads as the one that collected the
padding. -/
theorem encode_exact_and_readable_padded_twice :
    let request : Request := { device := 0x11, command := .writeMultiple 1 [] }
    let steps := [.encode, .append [0, 10], .append [1], .encode, .append [2], .setAddress 5]
    let other : Request := { device := 0x11, command := .writeMultiple 5 [0, 10, 1, 0, 2, 0] }
    ∃ sent sent', (request.run steps).encode = (.ok (), sent) ∧
      (other.run []).encode = (.ok (), sent') ∧ sent'.frame.bytes = sent.frame.bytes ∧
        read? sent.frame.bytes = some (0x11, .writeMultiple 5 [0, 10, 1, 0, 2, 0]) ∧
          (other.run []).command.onWire = (request.run steps).command.onWire ∧
            sent.encode = (.ok (), sent) := by
  intro request steps other
  have hsent : (request.run steps).encode = (.ok (), (request.run steps).encode.2) := by
    simp only [request, steps]
    decide +kernel
  have hsent' : (other.run []).encode = (.ok (), (other.run []).encode.2) := by
    simp only [other]
    decide +kernel
  have hbytes : (other.run []).encode.2.frame.bytes = (request.run steps).encode.2.frame.bytes := by
    simp only [request, steps, other]
    decide +kernel
  obtain ⟨-, -, hread, halike, hagain⟩ := encode_exact_and_readable hsent
  obtain ⟨hdevice, hcommand⟩ := halike hsent' hbytes
  rw [← hdevice, ← hcommand] at hread
  exact ⟨_, _, hsent, hsent', hbytes, hread, hcommand, hagain⟩

end Request

end Modbus
