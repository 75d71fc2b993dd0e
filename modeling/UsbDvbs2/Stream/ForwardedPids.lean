import UsbDvbs2.Stream.PacketLoop
import UsbDvbs2.Stream.PmtRewrite

/-! # The streams a player is told about

The rebuilt PMT and the list of pids that are forwarded come out of one loop over
the streams of a table, each with a limit of its own. What a player reads in the
one, and what it is sent because of the other.
-/

namespace Stream

open Bytes Camd Mpeg

/-- The pids of the stream loop. -/
def streamPids (sec : List UInt8) : List UInt16 :=
  (streamEntries sec).map fun pos => be13 sec (pos + 1)

/-- `udp_ts_pid_in_list`. -/
def udpTsPidInList (pid : UInt16) : List UInt16 → Bool
  | [] => false
  | other :: pids => if other = pid then true else udpTsPidInList pid pids

theorem udpTsPidInList_iff (pid : UInt16) (pids : List UInt16) :
    udpTsPidInList pid pids = true ↔ pid ∈ pids := by
  induction pids with
  | nil => exact iff_of_false nofun nofun
  | cons other pids ih =>
      rw [udpTsPidInList, List.mem_cons, ← ih]
      by_cases same : other = pid
      · rw [if_pos same]
        exact iff_of_true rfl (Or.inl same.symm)
      · rw [if_neg same]
        exact (or_iff_right fun named => same named.symm).symm

/-! ## The list -/

/-- The list takes the first 32 streams. -/
theorem selectStreams_pids {sec : List UInt8} {poss : List Nat} {teletext : UInt16}
    {found streams : List UInt16}
    (whole : (selectStreams sec poss teletext found).2 = some streams) :
    streams = found ++
      (poss.map fun pos => be13 sec (pos + 1)).take (maxProgramPids - found.length) := by
  induction poss generalizing teletext found with
  | nil =>
      rw [selectStreams] at whole
      rw [List.map_nil, List.take_nil, List.append_nil, Option.some.inj whole]
  | cons pos poss ih =>
      rw [selectStreams] at whole
      split at whole
      · have rest := ih whole
        split at rest
        · rename_i room
          have left : maxProgramPids - found.length =
              maxProgramPids - (found ++ [be13 sec (pos + 1)]).length + 1 := by
            rw [List.length_append, List.length_singleton]
            omega
          rw [rest, List.map_cons, left, List.take_succ_cons, List.append_assoc]
          rfl
        · rename_i full
          have none_ : maxProgramPids - found.length = 0 :=
            Nat.sub_eq_zero_of_le (Nat.not_lt.1 full)
          rw [rest, none_, List.take_zero, List.take_zero]
      · contradiction

/-! ## The copy -/

theorem copyDescriptors_append {strip : Bool} {raws : List (List UInt8)} {out copied : List UInt8}
    (done : copyDescriptors strip raws out = some copied) :
    ∃ kept, copied = out ++ kept ∧ kept.length ≤ total raws := by
  induction raws generalizing out with
  | nil =>
      rw [copyDescriptors] at done
      exact ⟨[], by rw [List.append_nil, Option.some.inj done], Nat.zero_le _⟩
  | cons raw raws ih =>
      rw [copyDescriptors] at done
      rw [total_cons]
      split at done
      · obtain ⟨kept, same, short⟩ := ih done
        exact ⟨kept, same, by omega⟩
      · split at done
        · contradiction
        · obtain ⟨kept, same, short⟩ := ih done
          refine ⟨raw ++ kept, by rw [same, List.append_assoc], ?_⟩
          rw [List.length_append]
          omega

/-- The entry that is copied from a position. -/
def copiedEntry (sec : List UInt8) (strip : Bool) (pos : Nat) : List UInt8 :=
  copyEntry strip (slice sec pos (5 + be12 sec (pos + 3)))

theorem copyStreams_append {sec : List UInt8} {strip : Bool} {poss : List Nat}
    {out copied : List UInt8} (done : copyStreams sec strip poss out = some copied) :
    (∀ pos ∈ poss, entryFits sec pos = true) ∧
      copied = out ++ (poss.map (copiedEntry sec strip)).flatMap id := by
  induction poss generalizing out with
  | nil =>
      rw [copyStreams] at done
      refine ⟨List.forall_mem_nil _, ?_⟩
      rw [List.map_nil, List.flatMap_nil, List.append_nil, Option.some.inj done]
  | cons pos poss ih =>
      rw [copyStreams] at done
      split at done
      · rename_i whole
        simp only at done
        split at done
        · contradiction
        · obtain ⟨rest, same⟩ := ih done
          refine ⟨List.forall_mem_cons.2 ⟨whole, rest⟩, ?_⟩
          rw [same, List.map_cons, List.flatMap_cons, List.append_assoc]
          rfl
      · contradiction

/-- A copied entry fills the length that it names, under the pid that it had. -/
theorem copiedEntry_spec {sec : List UInt8} {pos : Nat} (strip : Bool)
    (whole : entryFits sec pos = true) :
    (copiedEntry sec strip pos).length = 5 + be12 (copiedEntry sec strip pos) 3 ∧
      be13 (copiedEntry sec strip pos) 1 = be13 sec (pos + 1) := by
  rw [entryFits, decide_eq_true_eq] at whole
  have size : (slice sec pos (5 + be12 sec (pos + 3))).length = 5 + be12 sec (pos + 3) :=
    length_slice (by omega)
  have counts : be12 (slice sec pos (5 + be12 sec (pos + 3))) 3 = be12 sec (pos + 3) :=
    be12_slice (by omega)
  have pid : be13 (slice sec pos (5 + be12 sec (pos + 3))) 1 = be13 sec (pos + 1) :=
    be13_slice (by omega)
  rw [copiedEntry]
  generalize slice sec pos (5 + be12 sec (pos + 3)) = entry at size counts pid ⊢
  cases strip with
  | false => exact ⟨by rw [copyEntry, if_neg Bool.false_ne_true, size, counts], pid⟩
  | true =>
      have small := be12_lt sec (pos + 3)
      have header : (entry.take 5).length = 5 := by
        rw [List.length_take]
        omega
      have bound := total_descriptorSlices entry 5 entry.length
      have kept : ((descriptorSlices entry 5 entry.length).filter fun raw =>
          octet raw 0 != 0x09).flatten.length ≤ total (descriptorSlices entry 5 entry.length) :=
        List.filter_sublist.flatten.length_le
      rw [copyEntry, if_pos rfl]
      generalize ((descriptorSlices entry 5 entry.length).filter fun raw =>
        octet raw 0 != 0x09).flatten = rest at kept
      refine ⟨?_, ?_⟩
      · rw [List.length_append, length_setBe12, header,
          be12_append (by rw [length_setBe12]; omega), be12_setBe12 (by omega) (by omega)]
      · have front : be13 (entry.take 5) 1 = be13 entry 1 :=
          @be13_slice entry 0 5 1 (by omega)
        rw [be13_append (by rw [length_setBe12]; omega),
          be13_setBe12_ne (Or.inl (by omega)), front, pid]

/-! ## Read back from the copy -/

theorem offsets_pids {items : List (List UInt8)} {bytes front back : List UInt8}
    (laid : bytes = front ++ (items.flatMap id ++ back))
    (header : ∀ item ∈ items, 5 ≤ item.length) :
    (offsets id front.length items).map (fun pos => be13 bytes (pos + 1)) =
      items.map (be13 · 1) := by
  induction items generalizing front with
  | nil => rfl
  | cons item items ih =>
      obtain ⟨here, rest⟩ := List.forall_mem_cons.1 header
      rw [List.flatMap_cons, List.append_assoc] at laid
      have first : be13 bytes (front.length + 1) = be13 item 1 := by
        rw [laid, be13_append_right, be13_append (by simp only [id]; omega)]
        rfl
      have next : front.length + (id item).length = (front ++ item).length :=
        List.length_append.symm
      have moved : bytes = (front ++ item) ++ (items.flatMap id ++ back) := by
        rw [laid, List.append_assoc]
        rfl
      have later := ih moved rest
      rw [offsets, List.map_cons, List.map_cons, first, next, later]

/-- The streams of a section whose stream loop is filled by entries. -/
theorem streamPids_laid {items : List (List UInt8)} {sec front back : List UInt8}
    (laid : sec = front ++ (items.flatMap id ++ back)) (trailer : back.length = 4)
    (begins : programInfoEnd sec = front.length)
    (sized : ∀ item ∈ items, item.length = 5 + be12 item 3) :
    streamPids sec = items.map (be13 · 1) := by
  have full : sec.length - 4 = front.length + (items.flatMap id).length := by
    rw [laid, List.length_append, List.length_append]
    omega
  have visited : streamEntries sec = offsets id front.length items := by
    rw [streamEntries, begins]
    refine entries_offsets (by decide) laid full fun {front item back} mem laid => ?_
    have size := sized item mem
    rw [laid, be12_append_right, be12_append (by simp only [id]; omega)]
    exact size.symm
  rw [streamPids, visited]
  exact offsets_pids laid fun item mem => by rw [sized item mem]; omega

/-- A header that is given its lengths, entries, and a trailer. -/
theorem pids_assembled {head trailer : List UInt8} {items : List (List UInt8)} (value : Nat)
    (header : 12 ≤ head.length) (short : head.length - 12 < 4096) (four : trailer.length = 4)
    (sized : ∀ item ∈ items, item.length = 5 + be12 item 3) :
    let out := setBe12 (setBe12 head 10 (head.length - 12) ++ items.flatMap id) 1 value ++ trailer
    streamPids out = items.map (be13 · 1) ∧ be13 out 8 = be13 head 8 := by
  intro out
  have laid : out = setBe12 (setBe12 head 10 (head.length - 12)) 1 value ++
      (items.flatMap id ++ trailer) := by
    rw [← List.append_assoc, ← setBe12_append (by rw [length_setBe12]; omega)]
  have counts : be12 out 10 = head.length - 12 := by
    rw [laid, be12_append (by rw [length_setBe12, length_setBe12]; omega),
      be12_setBe12_ne (Or.inr (by omega)), be12_setBe12 (by omega) short]
  refine ⟨streamPids_laid laid four ?_ sized, ?_⟩
  · rw [programInfoEnd, counts, length_setBe12, length_setBe12]
    omega
  · rw [laid, be13_append (by rw [length_setBe12, length_setBe12]; omega),
      be13_setBe12_ne (Or.inr (by omega)), be13_setBe12_ne (Or.inl (by omega))]

/-- The copy lists every stream of the table, under the same PCR pid. -/
theorem rebuildPmt_pids {sec out : List UInt8} {service : UInt16} {strip : Bool}
    (sent : rebuildPmt sec service strip = some out) :
    streamPids out = streamPids sec ∧ be13 out 8 = be13 sec 8 := by
  unfold rebuildPmt at sent
  split at sent
  · rename_i read
    obtain ⟨front, copied, streams⟩ := Option.bind_eq_some_iff.1 sent
    obtain ⟨body, done, same⟩ := Option.bind_eq_some_iff.1 streams
    obtain rfl := Option.some.inj same
    obtain ⟨kept, rfl, short⟩ := copyDescriptors_append copied
    obtain ⟨whole, rfl⟩ := copyStreams_append done
    obtain ⟨pmt, -, small⟩ := read
    have length : 16 ≤ sec.length := by
      rw [isPmtOf, Bool.and_eq_true, Bool.and_eq_true, decide_eq_true_eq] at pmt
      exact pmt.1.1
    have bound := total_descriptorSlices sec 12 (programInfoEnd sec)
    have first : (sec.take 12).length = 12 := List.length_take_of_le (by omega)
    have size : (sec.take 12 ++ kept).length = 12 + kept.length := by
      rw [List.length_append, first]
    have limit : sectionSize = 1024 := rfl
    have sized : ∀ item ∈ (streamEntries sec).map (copiedEntry sec strip),
        item.length = 5 + be12 item 3 := by
      intro item mem
      obtain ⟨pos, entry, rfl⟩ := List.mem_map.1 mem
      exact (copiedEntry_spec strip (whole pos entry)).1
    have header : 12 ≤ (sec.take 12 ++ kept).length := by omega
    have counted : (sec.take 12 ++ kept).length - 12 < 4096 := by omega
    obtain ⟨pids, pcr⟩ := pids_assembled _ header counted (length_crcBytes _) sized
    refine ⟨pids.trans ?_, pcr.trans ?_⟩
    · rw [List.map_map, streamPids]
      exact List.map_congr_left fun pos entry => (copiedEntry_spec strip (whole pos entry)).2
    · have front : be13 (sec.take 12) 8 = be13 sec 8 :=
        @be13_slice sec 0 12 8 (by decide)
      rw [be13_append (by omega), front]
  · contradiction

/-- What is told and what is forwarded: the streams of the table that is sent are
those of the list, under the PCR pid of the list, exactly when every stream behind
the 32nd has the pid of one of the first 32. -/
theorem forwards_what_is_promised {sec out : List UInt8} {service : UInt16} {strip : Bool}
    (fits : sec.length ≤ sectionSize) (sent : rebuildPmt sec service strip = some out)
    (known : Selected) :
    ((∀ pid, pid ∈ streamPids out ↔
          udpTsPidInList pid (sendSelectedPmt sec service known).streams = true) ∧
        (sendSelectedPmt sec service known).pcr = be13 out 8) ↔
      ∀ pid ∈ (streamPids sec).drop maxProgramPids, pid ∈ (streamPids sec).take maxProgramPids := by
  obtain ⟨told, pcr⟩ := rebuildPmt_pids sent
  have some_ : (rebuildPmt sec service strip).isSome = true := by rw [sent]; rfl
  obtain ⟨pmt, inside, taken⟩ := (rebuildPmt_isSome fits service strip known.teletext).1 some_
  obtain ⟨streams, found⟩ := Option.isSome_iff_exists.1 taken
  have listed : streams = (streamPids sec).take maxProgramPids := by
    rw [selectStreams_pids found]
    rfl
  have selected : (sendSelectedPmt sec service known).streams =
        (streamPids sec).take maxProgramPids ∧
      (sendSelectedPmt sec service known).pcr = be13 sec 8 := by
    rw [sendSelectedPmt, if_pos ⟨pmt, inside⟩, ← listed]
    simp only [found]
    exact ⟨rfl, trivial⟩
  rw [selected.1, selected.2, told, pcr]
  simp only [udpTsPidInList_iff, and_true]
  refine ⟨fun same pid behind => (same pid).1 (List.mem_of_mem_drop behind), fun repeats pid => ?_⟩
  refine ⟨fun told => ?_, List.mem_of_mem_take⟩
  rw [← List.take_append_drop maxProgramPids (streamPids sec)] at told
  rcases List.mem_append.1 told with first | behind
  · exact first
  · exact repeats pid behind

/-- A PMT of service 1 with the given streams, its PCR on pid 0x100. -/
def pmtOf (pids : List UInt8) : List UInt8 :=
  [0x02, 0xb0, UInt8.ofNat (13 + 5 * pids.length), 0x00, 0x01, 0xc1, 0x00, 0x00, 0xe1, 0x00, 0xf0,
    0x00] ++ (pids.flatMap fun pid => [0x04, 0xe1, pid, 0xf0, 0x00]) ++ [0, 0, 0, 0]

def noneSelected : Selected := ⟨noPid, noPid, []⟩

theorem forwards_what_is_promised_two : ∃ out, rebuildPmt (pmtOf [1, 2]) 1 true = some out ∧
    ∀ pid, pid ∈ streamPids out ↔
      udpTsPidInList pid (sendSelectedPmt (pmtOf [1, 2]) 1 noneSelected).streams = true := by
  have sent : (rebuildPmt (pmtOf [1, 2]) 1 true).isSome = true := by decide +kernel
  obtain ⟨out, sent⟩ := Option.isSome_iff_exists.1 sent
  have none : (streamPids (pmtOf [1, 2])).drop maxProgramPids = [] := by decide +kernel
  have repeats : ∀ pid ∈ (streamPids (pmtOf [1, 2])).drop maxProgramPids,
      pid ∈ (streamPids (pmtOf [1, 2])).take maxProgramPids :=
    fun pid mem => nomatch (none ▸ mem : pid ∈ ([] : List UInt16))
  exact ⟨out, sent,
    ((forwards_what_is_promised (by decide +kernel) sent noneSelected).2 repeats).1⟩

/-- Of 33 audio streams the last is told of and not forwarded. -/
theorem promised_and_not_forwarded :
    ∃ out ∈ rebuildPmt (pmtOf ((List.range 33).map UInt8.ofNat)) 1 true,
      0x120 ∈ streamPids out ∧ udpTsPidInList 0x120
        (sendSelectedPmt (pmtOf ((List.range 33).map UInt8.ofNat)) 1 noneSelected).streams =
          false := by
  decide +kernel

end Stream
