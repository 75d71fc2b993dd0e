import UsbDvbs2.Bytes.Buffers
import UsbDvbs2.Stream.PmtOutputs

/-! # The datagram under way

`udp_ts_writer` with its array of bytes, and the loop of `udp_ts_send_section` that copies
one packet after the other into it. The writer of packets is what it stands for: it holds
their bytes, and no copy reaches behind the array.
-/

namespace Stream

open Bytes

/-! ## The writer -/

/-- The two ports that a datagram goes to. -/
inductive Port where
  | destination
  | destinationAlt
  deriving DecidableEq

/-- `udp_ts_writer`; the calls to the first port and all datagrams come with it. -/
structure UdpTsWriter where
  hasAlt : Bool
  datagram : List UInt8
  size : Nat
  packets : Nat
  calls : Nat
  sent : List (Port × List UInt8)

/-- `sizeof(writer->datagram)`. -/
def datagramSize : Nat := 7 * 188

/-- `udp_ts_flush`; the second port is best effort. -/
def UdpTsWriter.flush (sendto : Nat → Bool) (writer : UdpTsWriter) : Bool × UdpTsWriter :=
  if writer.size = 0 then (true, writer)
  else
    let bytes := writer.datagram.take writer.size
    (sendto writer.calls, { writer with
      size := 0
      calls := writer.calls + 1
      sent := writer.sent ++ [(.destination, bytes)] ++
        if writer.hasAlt then [(.destinationAlt, bytes)] else [] })

/-- The writer with another packet. -/
def UdpTsWriter.filled (writer : UdpTsWriter) (packet : List UInt8) : UdpTsWriter :=
  { writer with
    datagram := copied writer.datagram writer.size packet
    size := writer.size + 188
    packets := writer.packets + 1 }

/-- `udp_ts_send_packet`, unless the copy would leave the array. -/
def UdpTsWriter.sendPacket (sendto : Nat → Bool) (writer : UdpTsWriter) (packet : List UInt8) :
    Option (Bool × UdpTsWriter) :=
  if writer.datagram.length < writer.size + packet.length then none
  else
    some (if (writer.filled packet).size = datagramSize then (writer.filled packet).flush sendto
      else (true, writer.filled packet))

/-- What goes to the first port: the datagrams so far, and the one under way. -/
def UdpTsWriter.stream (writer : UdpTsWriter) : List UInt8 :=
  (writer.sent.filter (·.1 = .destination)).flatMap Prod.snd ++ writer.datagram.take writer.size

/-- Whole packets, and room for one more. -/
structure UdpTsWriter.Ready (writer : UdpTsWriter) : Prop where
  array : writer.datagram.length = datagramSize
  whole : 188 ∣ writer.size
  room : writer.size < datagramSize

/-! ## The loop -/

/-- `packet`, with the bytes of the section from `used` on. -/
def builtPacket (pid : UInt16) (counter : UInt8) (first : Bool) (sec : List UInt8) (used : Nat) :
    List UInt8 :=
  let payloadOffset := if first then 5 else 4
  let chunk := min (sec.length - used) (188 - payloadOffset)
  let packet := (List.replicate 188 (0xff : UInt8)).set 0 0x47
  let packet := packet.set 1 (pid >>> 8 &&& 0x1f).toUInt8
  let packet := if first then packet.set 1 (packet.getD 1 0 ||| 0x40) else packet
  let packet := packet.set 2 pid.toUInt8
  let packet := packet.set 3 (0x10 ||| (counter &&& 0x0f))
  let packet := if first then packet.set 4 0 else packet
  copied packet payloadOffset ((sec.drop used).take chunk)

/-- The loop of `udp_ts_send_section`. -/
def UdpTsWriter.sendLoop (sendto : Nat → Bool) (pid : UInt16) (sec : List UInt8) (used : Nat)
    (first : Bool) (counter : UInt8) (writer : UdpTsWriter) : Option (Bool × UInt8 × UdpTsWriter) :=
  if used < sec.length then
    match writer.sendPacket sendto (builtPacket pid counter first sec used) with
    | none => none
    | some (false, writer) => some (false, (counter + 1) &&& 0x0f, writer)
    | some (true, writer) =>
        writer.sendLoop sendto pid sec
          (used + min (sec.length - used) (188 - if first then 5 else 4)) false
          ((counter + 1) &&& 0x0f)
  else some (true, counter, writer)
termination_by sec.length - used
decreasing_by split <;> omega

/-- `udp_ts_send_section`. -/
def UdpTsWriter.sendSection (sendto : Nat → Bool) (writer : UdpTsWriter) (pid : UInt16)
    (counter : UInt8) (sec : List UInt8) : Option (Bool × UInt8 × UdpTsWriter) :=
  writer.sendLoop sendto pid sec 0 true counter

/-! ## The packets -/

theorem counted_eq (counter : UInt8) :
    0x10 ||| (counter &&& 0x0f) = UInt8.ofNat (0x10 + counter.toNat % 16) := by
  revert counter
  apply forall_byte
  decide +kernel

theorem next_eq (counter : UInt8) :
    (counter + 1) &&& 0x0f = UInt8.ofNat ((counter.toNat + 1) % 16) := by
  revert counter
  apply forall_byte
  decide +kernel

theorem flagged_eq {byte : UInt8} (small : byte.toNat < 32) :
    byte ||| 0x40 = UInt8.ofNat (byte.toNat + 0x40) := by
  revert small
  revert byte
  apply forall_byte
  decide +kernel

/-- The upper bits of a pid. -/
theorem pidHigh_eq (pid : UInt16) :
    (pid >>> 8 &&& 0x1f).toUInt8 = UInt8.ofNat (pid.toNat / 256 % 32) := by
  have shifted : (pid >>> 8 &&& 0x1f).toNat = pid.toNat / 256 % 32 := by
    have moved : (pid >>> 8).toNat = pid.toNat / 256 := by
      rw [UInt16.toNat_shiftRight]
      exact Nat.shiftRight_eq_div_pow ..
    rw [UInt16.toNat_and, moved]
    exact Nat.and_two_pow_sub_one_eq_mod _ 5
  apply UInt8.toNat_inj.1
  rw [UInt16.toNat_toUInt8, shifted, UInt8.toNat_ofNat']

theorem pidLow_eq (pid : UInt16) : pid.toUInt8 = UInt8.ofNat pid.toNat := by
  apply UInt8.toNat_inj.1
  rw [UInt16.toNat_toUInt8, UInt8.toNat_ofNat']

/-- Bytes copied behind a header, and stuffing behind them. -/
theorem copied_stuffing (header rest : List UInt8) (room : Nat) :
    copied (header ++ List.replicate room 0xff) header.length (rest.take (min rest.length room)) =
      header ++ (rest.take room ++ List.replicate (room - rest.length) 0xff) := by
  have chunk : rest.take (min rest.length room) = rest.take room := by
    rw [Nat.min_comm, ← List.take_take, List.take_length]
  have left : room - min room rest.length = room - rest.length := by omega
  rw [chunk, copied, List.take_left, List.drop_length_add_append, List.drop_replicate,
    List.length_take, left, List.append_assoc]

/-- What is built is a packet of the section. -/
theorem builtPacket_eq (pid : UInt16) (counter : UInt8) (first : Bool) (sec : List UInt8)
    (used : Nat) : builtPacket pid counter first sec used =
      (sectionPacket pid counter first (sec.drop used)).bytes := by
  have left : sec.length - used = (sec.drop used).length := List.length_drop.symm
  unfold builtPacket
  rw [left, pidHigh_eq, pidLow_eq, counted_eq]
  cases first with
  | false => exact copied_stuffing (sectionHeader pid counter false) (sec.drop used) 184
  | true =>
      have flagged : UInt8.ofNat (pid.toNat / 256 % 32) ||| 0x40 =
          UInt8.ofNat (pid.toNat / 256 % 32 + 0x40) := by
        have number : (UInt8.ofNat (pid.toNat / 256 % 32)).toNat = pid.toNat / 256 % 32 := by
          rw [UInt8.toNat_ofNat']
          omega
        rw [flagged_eq (by omega), number]
      have header : [0x47, UInt8.ofNat (pid.toNat / 256 % 32) ||| 0x40, UInt8.ofNat pid.toNat,
          UInt8.ofNat (0x10 + counter.toNat % 16), 0] = sectionHeader pid counter true := by
        rw [flagged]
        rfl
      have filled := copied_stuffing (sectionHeader pid counter true) (sec.drop used) 183
      rw [← header] at filled
      exact filled.trans (congrArg (· ++ _) header)

/-! ## The writer of packets -/

/-- A writer holds the bytes of the packets. -/
structure Represents (packets : Writer) (writer : UdpTsWriter) : Prop where
  array : writer.datagram.length = datagramSize
  size : writer.size = 188 * packets.datagram.length
  bytes : writer.datagram.take writer.size = packets.datagram.flatMap Packet.bytes
  calls : writer.calls = packets.calls

theorem Represents.ready {packets : Writer} {writer : UdpTsWriter}
    (represents : Represents packets writer) :
    writer.Ready where
  array := represents.array
  whole := represents.size ▸ Nat.dvd_mul_right ..
  room := by
    have room := packets.room
    rw [represents.size, datagramSize, Nat.mul_comm]
    exact Nat.mul_lt_mul_of_pos_right room (by decide)

/-- Whole packets of bytes are packets. -/
theorem packets_of_bytes {count : Nat} {bytes : List UInt8} (whole : bytes.length = 188 * count) :
    ∃ packets : List Packet, packets.length = count ∧ packets.flatMap Packet.bytes = bytes := by
  induction count generalizing bytes with
  | zero => exact ⟨[], rfl, (List.eq_nil_of_length_eq_zero whole).symm⟩
  | succ count ih =>
      rw [Nat.mul_succ] at whole
      have first : (bytes.take 188).length = 188 := by rw [List.length_take]; omega
      have rest : (bytes.drop 188).length = 188 * count := by rw [List.length_drop]; omega
      obtain ⟨packets, length, same⟩ := ih rest
      refine ⟨⟨bytes.take 188, first⟩ :: packets, congrArg (· + 1) length, ?_⟩
      rw [List.flatMap_cons, same, List.take_append_drop]

theorem UdpTsWriter.Ready.represents {writer : UdpTsWriter} (ready : writer.Ready) :
    ∃ packets, Represents packets writer := by
  obtain ⟨count, size⟩ := ready.whole
  have room := ready.room
  have array := ready.array
  have whole : (writer.datagram.take writer.size).length = 188 * count := by
    rw [List.length_take]
    omega
  obtain ⟨packets, length, same⟩ := packets_of_bytes whole
  have few : packets.length < datagramRoom := by
    rw [datagramSize] at room
    rw [length, datagramRoom]
    omega
  exact ⟨⟨packets, writer.calls, few⟩, array, size.trans (length ▸ rfl), same.symm, rfl⟩

/-- The datagram goes to the first port, whatever goes to the second. -/
theorem stream_flush (sendto : Nat → Bool) {writer : UdpTsWriter} (some : writer.size ≠ 0) :
    (writer.flush sendto).2.stream = writer.stream := by
  have alt (bytes : List UInt8) : ((if writer.hasAlt then [(Port.destinationAlt, bytes)]
      else []).filter (·.1 = .destination)).flatMap Prod.snd = [] := by
    split <;> rfl
  rw [UdpTsWriter.flush, if_neg some, UdpTsWriter.stream, UdpTsWriter.stream]
  simp only [List.filter_append, List.flatMap_append, alt, List.append_nil, List.take_zero]
  exact congrArg _ (List.append_nil _)

/-- Another packet lies behind the bytes so far. -/
theorem stream_filled {writer : UdpTsWriter} {packet : Packet}
    (inside : writer.size + packet.bytes.length ≤ writer.datagram.length) :
    (writer.filled packet.bytes).datagram.take (writer.size + 188) =
        writer.datagram.take writer.size ++ packet.bytes ∧
      (writer.filled packet.bytes).stream = writer.stream ++ packet.bytes := by
  have grown : (copied writer.datagram writer.size packet.bytes).take (writer.size + 188) =
      writer.datagram.take writer.size ++ packet.bytes :=
    take_copied inside (congrArg _ packet.size.symm)
  refine ⟨grown, ?_⟩
  rw [UdpTsWriter.stream, UdpTsWriter.stream, List.append_assoc, ← grown]
  rfl

/-- One more packet, and its bytes. -/
theorem Represents.sendPacket {packets : Writer} {writer : UdpTsWriter}
    (represents : Represents packets writer) (sendto : Nat → Bool) (packet : Packet) : ∃ next,
      writer.sendPacket sendto packet.bytes =
          some ((udpTsSendPacket sendto packets packet).1, next) ∧
        Represents (udpTsSendPacket sendto packets packet).2 next ∧
          next.stream = writer.stream ++ packet.bytes := by
  obtain ⟨array, size, bytes, calls⟩ := represents
  have room := packets.room
  rw [datagramRoom] at room
  have inside : writer.size + packet.bytes.length ≤ writer.datagram.length := by
    rw [array, packet.size, datagramSize]
    omega
  obtain ⟨grown, onward⟩ := stream_filled inside
  have kept : (writer.filled packet.bytes).datagram.length = datagramSize :=
    (length_copied inside).trans array
  have full : (writer.filled packet.bytes).size = datagramSize ↔
      packets.datagram.length + 1 = datagramRoom := by
    have next : (writer.filled packet.bytes).size = writer.size + 188 := rfl
    rw [next, datagramSize, datagramRoom]
    omega
  rw [UdpTsWriter.sendPacket, if_neg (Nat.not_lt.2 inside), udpTsSendPacket]
  by_cases last : packets.datagram.length + 1 = datagramRoom
  · have some : (writer.filled packet.bytes).size ≠ 0 := Nat.succ_ne_zero _
    have flushed := stream_flush sendto some
    rw [if_pos (full.2 last), dif_pos last]
    refine ⟨((writer.filled packet.bytes).flush sendto).2, ?_, ?_, flushed.trans onward⟩
    · rw [UdpTsWriter.flush, if_neg some, ← calls]
      rfl
    · rw [UdpTsWriter.flush, if_neg some]
      exact ⟨kept, rfl, rfl, congrArg (· + 1) calls⟩
  · rw [if_neg (mt full.1 last), dif_neg last]
    refine ⟨_, rfl, ⟨kept, ?_, ?_, calls⟩, onward⟩
    · rw [List.length_append, List.length_singleton, Nat.mul_add, ← size]
      rfl
    · rw [List.flatMap_append, List.flatMap_singleton, ← bytes]
      exact grown

/-! ## The section -/

/-- The counter behind some packets, of which the first has gone. -/
theorem counted_on (counter : UInt8) (count : Nat) :
    (if count = 0 then (counter + 1) &&& 0x0f
      else UInt8.ofNat ((((counter + 1) &&& 0x0f).toNat + count) % 16)) =
      UInt8.ofNat ((counter.toNat + (count + 1)) % 16) := by
  have number : (UInt8.ofNat ((counter.toNat + 1) % 16)).toNat = (counter.toNat + 1) % 16 := by
    rw [UInt8.toNat_ofNat']
    omega
  rw [next_eq, number, Nat.mod_add_mod, Nat.add_assoc, Nat.add_comm 1 count]
  split
  · rename_i none
    rw [none]
  · rfl

/-- Where the next turn of the loop goes on. -/
theorem drop_next (sec : List UInt8) (used : Nat) (first : Bool) :
    sec.drop (used + min (sec.length - used) (188 - if first then 5 else 4)) =
      (sec.drop used).drop (capacity first) := by
  have room : (188 - if first = true then 5 else 4) = capacity first := by
    cases first <;> rfl
  rw [room, List.drop_drop]
  rcases Nat.le_total (sec.length - used) (capacity first) with last | more
  · rw [Nat.min_eq_left last, List.drop_eq_nil_of_le (by omega),
      List.drop_eq_nil_of_le (by omega)]
  · rw [Nat.min_eq_right more]

/-- The packets of what is left of a section: none, or one and those of the next turn. -/
theorem packets_done (pid : UInt16) (counter : UInt8) (first : Bool) {sec : List UInt8}
    {used : Nat} (done : sec.length ≤ used) :
    (udpTsSendSection pid counter first (sec.drop used)).1 = [] := by
  rw [List.drop_eq_nil_of_le done, udpTsSendSection_eq, if_pos rfl]

theorem packets_turn (pid : UInt16) (counter : UInt8) (first : Bool) {sec : List UInt8}
    {used : Nat} (more : used < sec.length) :
    (udpTsSendSection pid counter first (sec.drop used)).1 =
      sectionPacket pid counter first (sec.drop used) ::
        (udpTsSendSection pid ((counter + 1) &&& 0x0f) false
          (sec.drop (used + min (sec.length - used) (188 - if first then 5 else 4)))).1 := by
  have some : sec.drop used ≠ [] := by
    rw [Ne, List.drop_eq_nil_iff]
    exact Nat.not_le.2 more
  rw [drop_next, next_eq]
  exact congrArg Prod.fst ((udpTsSendSection_eq ..).trans (if_neg some))

/-- The bytes of the packets that are sent up to the first that fails. -/
theorem Represents.sendLoop {packets : Writer} {writer : UdpTsWriter}
    (represents : Represents packets writer) (sendto : Nat → Bool) (pid : UInt16)
    (sec : List UInt8) (used : Nat) (first : Bool) (counter : UInt8) :
    let all := (udpTsSendSection pid counter first (sec.drop used)).1
    let sent := writePackets sendto all packets
    ∃ counted next, writer.sendLoop sendto pid sec used first counter =
          some (sent.1, counted, next) ∧
        Represents sent.2.2 next ∧
          next.stream = writer.stream ++ (all.take sent.2.1).flatMap Packet.bytes ∧
            counted = if sent.2.1 = 0 then counter
              else UInt8.ofNat ((counter.toNat + sent.2.1) % 16) := by
  induction left : sec.length - used using Nat.strongRecOn
    generalizing used first counter packets writer with
  | ind left ih =>
      subst left
      intro all sent
      have written : sent = writePackets sendto all packets := rfl
      rcases Nat.lt_or_ge used sec.length with more | done
      case inr =>
        have nothing : all = [] := packets_done pid counter first done
        rw [nothing] at written
        rw [UdpTsWriter.sendLoop, if_neg (Nat.not_lt.2 done), written, nothing]
        exact ⟨counter, writer, rfl, represents, (List.append_nil _).symm, rfl⟩
      have turn : all = _ := packets_turn pid counter first more
      obtain ⟨next, goes, holds, onward⟩ :=
        represents.sendPacket sendto (sectionPacket pid counter first (sec.drop used))
      rw [UdpTsWriter.sendLoop, if_pos more, builtPacket_eq, goes]
      rw [turn, writePackets] at written
      generalize udpTsSendPacket sendto packets
        (sectionPacket pid counter first (sec.drop used)) = step at goes holds written ⊢
      obtain ⟨ok, later⟩ := step
      cases ok with
      | false =>
          rw [written, turn]
          refine ⟨_, next, rfl, holds, ?_, next_eq counter⟩
          rw [List.take_succ_cons, List.take_zero, List.flatMap_singleton]
          exact onward
      | true =>
          have shorter : sec.length -
              (used + min (sec.length - used) (188 - if first then 5 else 4)) <
                sec.length - used := by
            split <;> omega
          obtain ⟨counted, final, ended, still, behind, modulo⟩ :=
            ih _ shorter holds _ false ((counter + 1) &&& 0x0f) rfl
          rw [written, turn]
          refine ⟨counted, final, ended, still, ?_, ?_⟩
          · rw [behind, onward, List.take_succ_cons, List.flatMap_cons, List.append_assoc]
          · exact modulo.trans (counted_on counter _)

theorem writePackets_count {sendto : Nat → Bool} {packets : List Packet} {writer : Writer}
    (succeeds : (writePackets sendto packets writer).1 = true) :
    (writePackets sendto packets writer).2.1 = packets.length := by
  induction packets generalizing writer with
  | nil => rfl
  | cons packet packets ih =>
      rw [writePackets] at succeeds ⊢
      generalize udpTsSendPacket sendto writer packet = step at succeeds ⊢
      obtain ⟨ok, next⟩ := step
      cases ok with
      | false => contradiction
      | true => exact congrArg (· + 1) (ih succeeds)

/-- While the socket takes every datagram, a section goes out in its packets. -/
theorem UdpTsWriter.Ready.sendSection {writer : UdpTsWriter} (ready : writer.Ready)
    {sendto : Nat → Bool} (succeeds : ∀ call, sendto call = true) (pid : UInt16) (counter : UInt8)
    {sec : List UInt8} (some : sec ≠ []) :
    let packets := (udpTsSendSection pid counter true sec).1
    ∃ next : UdpTsWriter, writer.sendSection sendto pid counter sec =
          Option.some (true, UInt8.ofNat ((counter.toNat + packets.length) % 16), next) ∧
        next.Ready ∧ next.stream = writer.stream ++ packets.flatMap Packet.bytes := by
  intro packets
  obtain ⟨held, represents⟩ := ready.represents
  obtain ⟨counted, next, goes, still, behind, modulo⟩ :=
    represents.sendLoop sendto pid sec 0 true counter
  rw [List.drop_zero] at goes still behind modulo
  have all : (writePackets sendto packets held).1 = true :=
    (writePackets_ok sendto packets held).2 fun call _ => succeeds _
  have count := writePackets_count all
  have present : packets.length ≠ 0 := by
    have turn : packets = _ := congrArg Prod.fst ((udpTsSendSection_eq ..).trans (if_neg some))
    rw [turn]
    exact Nat.succ_ne_zero _
  rw [count, if_neg present] at modulo
  rw [count, List.take_length] at behind
  rw [all, modulo] at goes
  exact ⟨next, goes, still.ready, behind⟩

end Stream
