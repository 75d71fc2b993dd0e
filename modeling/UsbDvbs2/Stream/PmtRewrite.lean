import UsbDvbs2.Mpeg.ProgramMap
import UsbDvbs2.Stream.SectionPackets

/-! # Rebuilding a PMT

The copy that is sent in place of a service's PMT. When the stream goes out
descrambled the CA descriptors are left out of both descriptor loops; apart from
that and from what follows for lengths and checksum nothing changes.
-/

namespace Stream

open Bytes Mpeg

/-- `section[1024]`. -/
def sectionSize : Nat := 1024

/-- The bytes of the descriptors of a loop, up to the first that overruns it. -/
def descriptorSlices (sec : List UInt8) (start limit : Nat) : List (List UInt8) :=
  ((descriptors sec start limit).takeWhile fun d => d + 2 + octet sec (d + 1) ≤ limit).map
    fun d => slice sec d (2 + octet sec (d + 1))

/-- A descriptor that `strip_ca` leaves out. -/
def dropped (strip : Bool) (raw : List UInt8) : Bool := strip && octet raw 0 == 0x09

/-- The descriptors of the programme behind `out`, unless they do not fit. -/
def copyDescriptors (strip : Bool) : List (List UInt8) → List UInt8 → Option (List UInt8)
  | [], out => some out
  | raw :: rest, out =>
      if dropped strip raw then copyDescriptors strip rest out
      else if sectionSize < out.length + raw.length + 4 then none
      else copyDescriptors strip rest (out ++ raw)

/-- What is sent for a stream entry: all of it or, when stripped, its header with
the length of the descriptors that are left. -/
def copyEntry (strip : Bool) (entry : List UInt8) : List UInt8 :=
  if strip then
    let kept := ((descriptorSlices entry 5 entry.length).filter fun raw =>
      octet raw 0 != 0x09).flatten
    setBe12 (entry.take 5) 3 kept.length ++ kept
  else entry

/-- The stream loop, unless an entry overruns the table or does not fit. -/
def copyStreams (sec : List UInt8) (strip : Bool) : List Nat → List UInt8 → Option (List UInt8)
  | [], out => some out
  | pos :: rest, out =>
      if entryFits sec pos then
        let entry := slice sec pos (5 + be12 sec (pos + 3))
        if sectionSize < out.length + entry.length + 4 then none
        else copyStreams sec strip rest (out ++ copyEntry strip entry)
      else none

/-- The section that `udp_ts_send_selected_pmt` sends, unless it returns -1. -/
def rebuildPmt (sec : List UInt8) (service : UInt16) (strip : Bool) : Option (List UInt8) :=
  if isPmtOf sec service = true ∧ programInfoEnd sec ≤ sec.length - 4 ∧
      programInfoEnd sec ≤ sectionSize - 4 then do
    let front ← copyDescriptors strip (descriptorSlices sec 12 (programInfoEnd sec)) (sec.take 12)
    let out ← copyStreams sec strip (streamEntries sec) (setBe12 front 10 (front.length - 12))
    let body := setBe12 out 1 (out.length - 3 + 4)
    some (body ++ crcBytes (crc32 body))
  else none

/-- What `udp_ts_send_selected_pmt` sends, and the next counter. -/
def sendRebuiltPmt (sec : List UInt8) (service pid : UInt16) (strip : Bool) (counter : UInt8) :
    Option (List Packet × UInt8) :=
  (rebuildPmt sec service strip).map (udpTsSendSection pid counter true)

/-! ## No table that is read is too long

The copy is never ahead of what has been read, so for a section that came out of
an assembler the size checks do not matter: it is sent if and only if its streams
are taken.
-/

/-- The bytes of a list of descriptors. -/
def total (raws : List (List UInt8)) : Nat := raws.flatten.length

theorem total_cons (raw : List UInt8) (raws : List (List UInt8)) :
    total (raw :: raws) = raw.length + total raws := by
  rw [total, List.flatten_cons, List.length_append, total]

theorem total_entries (sec : List UInt8) (limit fuel start : Nat) :
    total (((entriesWithin 2 limit (fun pos => octet sec (pos + 1)) fuel start).takeWhile
      fun d => d + 2 + octet sec (d + 1) ≤ limit).map fun d => slice sec d (2 + octet sec (d + 1)))
        ≤ limit - start := by
  induction fuel generalizing start with
  | zero => exact Nat.zero_le _
  | succ fuel ih =>
      rw [entriesWithin]
      by_cases inside : start + 2 ≤ limit
      · rw [if_pos inside]
        by_cases fits : start + 2 + octet sec (start + 1) ≤ limit
        · have rest := ih (start + 2 + octet sec (start + 1))
          have short : (slice sec start (2 + octet sec (start + 1))).length ≤
              2 + octet sec (start + 1) := List.length_take_le _ _
          rw [List.takeWhile_cons_of_pos (by simp only [fits, decide_true]), List.map_cons,
            total_cons]
          omega
        · rw [List.takeWhile_cons_of_neg (by simp only [fits, decide_false]; decide)]
          exact Nat.zero_le _
      · rw [if_neg inside]
        exact Nat.zero_le _

theorem total_descriptorSlices (sec : List UInt8) (start limit : Nat) :
    total (descriptorSlices sec start limit) ≤ limit - start :=
  total_entries sec limit _ start

theorem copyDescriptors_isSome (strip : Bool) (raws : List (List UInt8)) (out : List UInt8)
    (fits : out.length + total raws + 4 ≤ sectionSize) :
    ∃ copied, copyDescriptors strip raws out = some copied ∧
      copied.length ≤ out.length + total raws := by
  induction raws generalizing out with
  | nil => exact ⟨out, rfl, Nat.le_refl _⟩
  | cons raw raws ih =>
      rw [total_cons] at fits ⊢
      rw [copyDescriptors]
      by_cases drops : dropped strip raw = true
      · obtain ⟨copied, same, short⟩ := ih out (by omega)
        exact ⟨copied, by rw [if_pos drops, same], by omega⟩
      · have long : (out ++ raw).length = out.length + raw.length := List.length_append
        obtain ⟨copied, same, short⟩ := ih (out ++ raw) (by omega)
        exact ⟨copied, by rw [if_neg drops, if_neg (by omega), same], by omega⟩

theorem length_copyEntry (strip : Bool) (entry : List UInt8) (header : 5 ≤ entry.length) :
    (copyEntry strip entry).length ≤ entry.length := by
  cases strip with
  | false => exact Nat.le_refl _
  | true =>
      have bound := total_descriptorSlices entry 5 entry.length
      have kept : ((descriptorSlices entry 5 entry.length).filter fun raw =>
          octet raw 0 != 0x09).flatten.length ≤ total (descriptorSlices entry 5 entry.length) :=
        List.filter_sublist.flatten.length_le
      rw [copyEntry, if_pos rfl, List.length_append, length_setBe12, List.length_take]
      omega

theorem copyStreams_isSome {sec : List UInt8} (fits : sec.length ≤ sectionSize) (strip : Bool)
    (fuel pos : Nat) {out : List UInt8} (behind : out.length ≤ pos) (teletext : UInt16)
    (found : List UInt16) :
    (copyStreams sec strip (entriesWithin 5 (sec.length - 4) (fun pos => be12 sec (pos + 3)) fuel
      pos) out).isSome = (selectStreams sec (entriesWithin 5 (sec.length - 4)
        (fun pos => be12 sec (pos + 3)) fuel pos) teletext found).2.isSome := by
  induction fuel generalizing pos out teletext found with
  | zero => rfl
  | succ fuel ih =>
      rw [entriesWithin]
      by_cases inside : pos + 5 ≤ sec.length - 4
      · rw [if_pos inside, copyStreams, selectStreams]
        by_cases whole : entryFits sec pos = true
        · have ends := whole
          rw [entryFits, decide_eq_true_eq] at ends
          have size : (slice sec pos (5 + be12 sec (pos + 3))).length = 5 + be12 sec (pos + 3) :=
            length_slice (by omega)
          have shorter := length_copyEntry strip (slice sec pos (5 + be12 sec (pos + 3)))
            (by omega)
          rw [if_pos whole, if_pos whole, if_neg (by omega)]
          refine ih _ ?_ _ _
          rw [List.length_append]
          omega
        · rw [if_neg whole, if_neg whole]
          rfl
      · rw [if_neg inside]
        rfl

/-- A section is sent on if and only if its streams are taken. -/
theorem rebuildPmt_isSome {sec : List UInt8} (fits : sec.length ≤ sectionSize) (service : UInt16)
    (strip : Bool) (teletext : UInt16) : (rebuildPmt sec service strip).isSome = true ↔
      isPmtOf sec service = true ∧ programInfoEnd sec ≤ sec.length - 4 ∧
        (selectStreams sec (streamEntries sec) teletext []).2.isSome = true := by
  unfold rebuildPmt
  by_cases read : isPmtOf sec service = true ∧ programInfoEnd sec ≤ sec.length - 4
  · have length : 16 ≤ sec.length := by
      have pmt := read.1
      rw [isPmtOf, Bool.and_eq_true, Bool.and_eq_true, decide_eq_true_eq] at pmt
      exact pmt.1.1
    have bound := total_descriptorSlices sec 12 (programInfoEnd sec)
    have header : 12 ≤ programInfoEnd sec := Nat.le_add_right _ _
    have front : (sec.take 12).length = 12 := by
      rw [List.length_take]
      omega
    obtain ⟨copied, same, short⟩ := copyDescriptors_isSome strip
      (descriptorSlices sec 12 (programInfoEnd sec)) (sec.take 12) (by omega)
    have streams : (copyStreams sec strip (streamEntries sec)
        (setBe12 copied 10 (copied.length - 12))).isSome =
          (selectStreams sec (streamEntries sec) teletext []).2.isSome :=
      copyStreams_isSome fits strip _ _ (by rw [length_setBe12]; omega) teletext []
    rw [if_pos ⟨read.1, read.2, by omega⟩, same, ← streams]
    simp only [Option.bind_eq_bind, Option.bind_some, read.1, read.2, true_and]
    cases copyStreams sec strip (streamEntries sec) (setBe12 copied 10 (copied.length - 12)) with
    | none => rfl
    | some out => rfl
  · rw [if_neg fun all => read ⟨all.1, all.2.1⟩]
    refine ⟨nofun, fun all => (read ⟨all.1, all.2.1⟩).elim⟩

/-! ## Loops that are filled -/

theorem descriptor_size {front back : List UInt8} (item : Descriptor) :
    2 + octet (front ++ (item.bytes ++ back)) (front.length + 1) = item.bytes.length := by
  have size := item.length_bytes
  rw [octet_middle (by omega), ← size]

/-- The descriptor loop reads back the descriptors that fill it. -/
theorem descriptorSlices_loop {items : List Descriptor} {bytes front back : List UInt8}
    {limit : Nat} (laid : bytes = front ++ (loop items ++ back))
    (full : limit = front.length + (loop items).length) :
    descriptorSlices bytes front.length limit = items.map Descriptor.bytes := by
  have visited : descriptors bytes front.length limit =
      offsets Descriptor.bytes front.length items := by
    refine entries_offsets (by decide) laid full fun {front item back} _ laid => ?_
    rw [laid]
    exact descriptor_size item
  rw [descriptorSlices, visited]
  clear visited
  induction items generalizing front with
  | nil => rfl
  | cons item items ih =>
      rw [loop, List.flatMap_cons, List.append_assoc] at laid
      rw [loop, List.flatMap_cons, List.length_append] at full
      have size : 2 + octet bytes (front.length + 1) = item.bytes.length := by
        rw [laid]
        exact descriptor_size item
      have next : front.length + item.bytes.length = (front ++ item.bytes).length :=
        List.length_append.symm
      have laid' : bytes = (front ++ item.bytes) ++ (loop items ++ back) := by
        rw [laid, List.append_assoc]
        rfl
      have full' : limit = (front ++ item.bytes).length + (loop items).length := by
        rw [full, List.length_append, Nat.add_assoc]
        rfl
      rw [offsets, List.takeWhile_cons_of_pos (by simp only [decide_eq_true_eq]; omega),
        List.map_cons, size, next, ih laid' full', laid, slice_middle]
      rfl

/-- The descriptors that are sent on. -/
def passes (strip : Bool) (descriptor : Descriptor) : Bool := !strip || descriptor.isClear

theorem dropped_bytes (strip : Bool) (descriptor : Descriptor) :
    dropped strip descriptor.bytes = !passes strip descriptor := by
  have tag : octet descriptor.bytes 0 = descriptor.tag.toNat := rfl
  have same : (descriptor.tag.toNat == 0x09) = (descriptor.tag == 0x09) := by
    rw [Bool.eq_iff_iff, beq_iff_eq, beq_iff_eq, ← UInt8.toNat_inj]
    rfl
  rw [dropped, tag, same, passes, Descriptor.isClear, bne]
  cases strip <;> simp

theorem copyDescriptors_loop {strip : Bool} {items : List Descriptor} {out : List UInt8}
    (fits : out.length + (loop items).length + 4 ≤ sectionSize) :
    copyDescriptors strip (items.map Descriptor.bytes) out =
      some (out ++ loop (items.filter (passes strip))) := by
  induction items generalizing out with
  | nil => rw [List.map_nil, copyDescriptors, List.filter_nil, loop, List.flatMap_nil,
      List.append_nil]
  | cons item items ih =>
      rw [loop, List.flatMap_cons, List.length_append] at fits
      have rest : (loop items).length = (items.flatMap Descriptor.bytes).length := rfl
      rw [List.map_cons, copyDescriptors, dropped_bytes]
      cases goes : passes strip item with
      | false =>
          rw [Bool.not_false, if_pos rfl, List.filter_cons_of_neg (by rw [goes]; decide),
            ih (by omega)]
      | true =>
          have more : (out ++ item.bytes).length + (loop items).length + 4 ≤ sectionSize := by
            rw [List.length_append]
            omega
          rw [Bool.not_true, if_neg (by decide), if_neg (by omega), ih more,
            List.filter_cons_of_pos goes, List.append_assoc]
          rfl

theorem copyEntry_bytes (strip : Bool) (stream : Elementary) :
    copyEntry strip stream.bytes = (stream.keep (passes strip)).bytes := by
  have size := stream.size
  cases strip with
  | false =>
      have whole : stream.keep (passes false) = stream := Elementary.keep_of_all fun _ _ => rfl
      rw [whole]
      rfl
  | true =>
      have laid : stream.bytes = stream.header ++ (loop stream.descriptors ++ []) := by
        rw [List.append_nil]
        rfl
      have full : stream.bytes.length = stream.header.length + (loop stream.descriptors).length :=
        List.length_append
      have slices := descriptorSlices_loop laid full
      rw [size] at slices
      have kept : ((stream.descriptors.map Descriptor.bytes).filter fun raw =>
          octet raw 0 != 0x09).flatten = loop (stream.descriptors.filter (passes true)) := by
        have same : ∀ descriptor : Descriptor, (octet descriptor.bytes 0 != 0x09) =
            passes true descriptor := by
          intro descriptor
          have drops := dropped_bytes true descriptor
          rw [dropped, Bool.true_and] at drops
          rw [bne, drops, Bool.not_not]
        rw [List.filter_map, ← List.flatMap_def]
        exact congrArg (List.flatMap Descriptor.bytes)
          (List.filter_congr fun descriptor _ => same descriptor)
      have front : stream.bytes.take 5 = stream.header := List.take_left' size
      rw [copyEntry, if_pos rfl, slices, kept, front]
      rfl

theorem entry_size {front back : List UInt8} (item : Elementary) :
    5 + be12 (front ++ (item.bytes ++ back)) (front.length + 3) = item.bytes.length := by
  have size := item.length_bytes
  rw [be12_middle (by omega), ← size]

/-- The stream loop visits the streams that fill it. -/
theorem streamEntries_loop {items : List Elementary} {sec front back : List UInt8}
    (laid : sec = front ++ (streamLoop items ++ back)) (begins : programInfoEnd sec = front.length)
    (full : sec.length - 4 = front.length + (streamLoop items).length) :
    streamEntries sec = offsets Elementary.bytes front.length items := by
  rw [streamEntries, begins]
  refine entries_offsets (by decide) laid full fun {front item back} _ laid => ?_
  rw [laid]
  exact entry_size item

theorem copyStreams_loop {strip : Bool} {items : List Elementary} {sec front back out : List UInt8}
    (laid : sec = front ++ (streamLoop items ++ back))
    (full : sec.length - 4 = front.length + (streamLoop items).length)
    (fits : out.length + (streamLoop items).length + 4 ≤ sectionSize) :
    copyStreams sec strip (offsets Elementary.bytes front.length items) out =
      some (out ++ streamLoop (items.map (·.keep (passes strip)))) := by
  induction items generalizing front out with
  | nil => rw [offsets, copyStreams, List.map_nil, streamLoop, List.flatMap_nil, List.append_nil]
  | cons item items ih =>
      rw [streamLoop, List.flatMap_cons, List.append_assoc] at laid
      rw [streamLoop, List.flatMap_cons, List.length_append] at full fits
      have size : 5 + be12 sec (front.length + 3) = item.bytes.length := by
        rw [laid]
        exact entry_size item
      have whole : entryFits sec front.length = true := by
        rw [entryFits, decide_eq_true_eq]
        omega
      have entry : slice sec front.length item.bytes.length = item.bytes := by
        rw [laid, slice_middle]
      have shorter := item.length_keep (passes strip)
      have next : front.length + item.bytes.length = (front ++ item.bytes).length :=
        List.length_append.symm
      have laid' : sec = (front ++ item.bytes) ++ (streamLoop items ++ back) := by
        rw [laid, List.append_assoc]
        rfl
      have full' : sec.length - 4 = (front ++ item.bytes).length + (streamLoop items).length := by
        rw [full, List.length_append, Nat.add_assoc]
        rfl
      have fits' : (out ++ (item.keep (passes strip)).bytes).length + (streamLoop items).length +
          4 ≤ sectionSize := by
        have rest : (streamLoop items).length = (items.flatMap Elementary.bytes).length := rfl
        rw [List.length_append]
        omega
      rw [offsets, copyStreams, if_pos whole]
      simp only [size, entry]
      rw [if_neg (by omega), copyEntry_bytes, next, ih laid' full' fits', List.append_assoc]
      rfl

/-! ## A whole table -/

section Table

variable (table : ProgramMap)

theorem bytes_split : table.bytes = table.header ++
    (loop table.descriptors ++ (streamLoop table.streams ++ table.trailer)) := by
  rw [ProgramMap.bytes, ProgramMap.body, List.append_assoc, List.append_assoc]

theorem programInfoEnd_bytes :
    programInfoEnd table.bytes = 12 + (loop table.descriptors).length := by
  have size := table.headerSize
  rw [programInfoEnd, bytes_split, be12_append (by omega), table.infoLength]

theorem isPmtOf_bytes : isPmtOf table.bytes table.service = true := by
  have size := table.headerSize
  have long := table.length_bytes
  have first : octet table.bytes 0 = 0x02 := by
    rw [bytes_split, octet_append (by omega), table.tableId]
  have service : be16 table.bytes 3 = table.service := by
    rw [bytes_split, be16_append (by omega)]
    rfl
  have enough : 16 ≤ table.bytes.length := by omega
  rw [isPmtOf, first, service]
  simp [enough]

/-- The header gets its lengths once both loops are behind it. -/
theorem body_keep (keep : Descriptor → Bool) :
    let infos := loop (table.descriptors.filter keep)
    let out := setBe12 table.header 10 infos.length ++ infos ++
      streamLoop (table.streams.map (·.keep keep))
    setBe12 out 1 (out.length - 3 + 4) = (table.keep keep).body := by
  intro infos out
  have size := table.headerSize
  have total : out.length =
      12 + (infos.length + (streamLoop (table.streams.map (·.keep keep))).length) := by
    rw [List.length_append, List.length_append, length_setBe12, size, Nat.add_assoc]
  rw [total]
  simp only [out]
  rw [List.append_assoc, setBe12_append (by rw [length_setBe12]; omega)]
  rfl

/-- No check turns a table down that fits into a section, and what is sent is the
table with its CA descriptors left out or as it was. -/
theorem rebuildPmt_bytes (strip : Bool) (fits : table.bytes.length ≤ sectionSize) :
    rebuildPmt table.bytes table.service strip = some (table.keep (passes strip)).bytes := by
  have size := table.headerSize
  have long := table.length_bytes
  have shorter := length_loop_filter table.descriptors (passes strip)
  have infoEnd := programInfoEnd_bytes table
  have slices : descriptorSlices table.bytes 12 (programInfoEnd table.bytes) =
      table.descriptors.map Descriptor.bytes := by
    rw [← size]
    exact descriptorSlices_loop (bytes_split table) (by rw [infoEnd, size])
  have copied : copyDescriptors strip (table.descriptors.map Descriptor.bytes) table.header =
      some (table.header ++ loop (table.descriptors.filter (passes strip))) :=
    copyDescriptors_loop (by omega)
  have laid : table.bytes = (table.header ++ loop table.descriptors) ++
      (streamLoop table.streams ++ table.trailer) := by
    rw [bytes_split, List.append_assoc]
  have begins : programInfoEnd table.bytes = (table.header ++ loop table.descriptors).length := by
    rw [infoEnd, List.length_append, size]
  have full : table.bytes.length - 4 =
      (table.header ++ loop table.descriptors).length + (streamLoop table.streams).length := by
    rw [List.length_append]
    omega
  have counted : setBe12 (table.header ++ loop (table.descriptors.filter (passes strip))) 10
      ((table.header ++ loop (table.descriptors.filter (passes strip))).length - 12) =
      setBe12 table.header 10 (loop (table.descriptors.filter (passes strip))).length ++
        loop (table.descriptors.filter (passes strip)) := by
    rw [setBe12_append (by omega), List.length_append, size, Nat.add_sub_cancel_left]
  have fitting : (setBe12 table.header 10
      (loop (table.descriptors.filter (passes strip))).length ++
        loop (table.descriptors.filter (passes strip))).length +
      (streamLoop table.streams).length + 4 ≤ sectionSize := by
    rw [List.length_append, length_setBe12]
    omega
  have front : table.bytes.take 12 = table.header := by
    rw [bytes_split, List.take_left' size]
  rw [rebuildPmt, if_pos ⟨isPmtOf_bytes table, by omega, by omega⟩, slices, front, copied]
  simp only [Option.bind_eq_bind, Option.bind_some, counted,
    streamEntries_loop laid begins full, copyStreams_loop laid full fitting]
  rw [body_keep]
  rfl

/-- Without stripping, the table is sent byte by byte. -/
theorem rebuildPmt_whole (fits : table.bytes.length ≤ sectionSize) :
    rebuildPmt table.bytes table.service false = some table.bytes := by
  have whole : table.keep (passes false) = table :=
    ProgramMap.keep_of_all (fun _ _ => rfl) fun _ _ _ _ => rfl
  rw [rebuildPmt_bytes table false fits, whole]

/-- With stripping, its CA descriptors are left out. -/
theorem rebuildPmt_strip (fits : table.bytes.length ≤ sectionSize) :
    rebuildPmt table.bytes table.service true = some (table.keep Descriptor.isClear).bytes :=
  rebuildPmt_bytes table true fits

/-- Stripping what has been stripped changes nothing. -/
theorem rebuildPmt_again (fits : table.bytes.length ≤ sectionSize) :
    rebuildPmt (table.keep Descriptor.isClear).bytes table.service true =
      some (table.keep Descriptor.isClear).bytes := by
  have still : (table.keep Descriptor.isClear).bytes.length ≤ sectionSize :=
    Nat.le_trans (table.length_keep _) fits
  have again := rebuildPmt_strip (table.keep Descriptor.isClear) still
  rwa [table.service_keep, ProgramMap.keep_keep] at again

end Table
end Stream
