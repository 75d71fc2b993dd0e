import UsbDvbs2.Scan.Reassembly
import UsbDvbs2.Stream.DatagramWriter
import UsbDvbs2.Stream.SectionPackets

/-! # Sections of the engine in front of both readers

What `udp_ts_send_section` puts into packets, the assembler of the stream thread and the
contexts of the file scanner put together again, whatever they held before.
-/

namespace Scan

open Bytes Mpeg Stream

/-- The continuity counter of a packet. -/
def continuity (packet : Packet) : Nat := octet packet.bytes 3 % 16

theorem continuity_sectionPacket (pid : UInt16) (counter : UInt8) (first : Bool)
    (sec : List UInt8) : continuity (sectionPacket pid counter first sec) = counter.toNat % 16 := by
  change (UInt8.ofNat (0x10 + counter.toNat % 16)).toNat % 16 = counter.toNat % 16
  rw [UInt8.toNat_ofNat']
  omega

/-- Every packet counts one on from the one before. -/
theorem continuity_sendSection (pid : UInt16) (counter : UInt8) (first : Bool)
    (sec : List UInt8) : (udpTsSendSection pid counter first sec).1.map continuity =
      (List.range (udpTsSendSection pid counter first sec).1.length).map fun index =>
        (counter.toNat + index) % 16 := by
  induction size : sec.length using Nat.strongRecOn generalizing counter first sec with
  | ind size ih =>
      subst size
      rw [udpTsSendSection_eq]
      by_cases done : sec = []
      · rw [if_pos done]
        rfl
      · have some := List.length_pos_iff.2 done
        have shorter : (sec.drop (capacity first)).length < sec.length := by
          rw [List.length_drop, capacity]
          split <;> omega
        have later := ih _ shorter (UInt8.ofNat ((counter.toNat + 1) % 16)) false _ rfl
        have number : (UInt8.ofNat ((counter.toNat + 1) % 16)).toNat =
            (counter.toNat + 1) % 16 := by
          rw [UInt8.toNat_ofNat']
          omega
        rw [if_neg done]
        dsimp only
        rw [List.map_cons, later, continuity_sectionPacket, List.length_cons,
          List.range_succ_eq_map, List.map_cons, List.map_map, number]
        refine congrArg _ (List.map_congr_left fun index _ => ?_)
        rw [Function.comp_apply, Nat.mod_add_mod, Nat.succ_eq_add_one, Nat.add_assoc,
          Nat.add_comm 1]

theorem stale_nil (ctx : Context) : stale ctx [] = [] := if_neg fun both => both.2 rfl

/-- A context is given the section once, whatever it held. -/
theorem processPayload_sendSection {sec : List UInt8} (valid : IsSection maxSection sec)
    (pid : UInt16) (counter : UInt8) (ctx : Context) :
    (assemble Context.processPayload ctx
      ((udpTsSendSection pid counter true sec).1.filterMap Packet.payload?)).2 = [sec] := by
  obtain ⟨first, pieces, carried, conforms, -, starts⟩ :=
    udpTsSendSection_conforms pid counter valid.ne_nil
  have sections : ∀ other ∈ [sec], IsSection maxSection other := fun other mem =>
    List.mem_singleton.1 mem ▸ valid
  have every : ∀ piece ∈ first :: pieces, True := fun _ _ => trivial
  rw [carried,
    scan_faithful.assemble_from_start (scan_resyncs ctx) conforms sections every starts,
    stale_nil, List.nil_append]

/-- A section goes out in packets that count on, leaves the writer ready for the next one, and
both readers get it back once, whatever they held. -/
theorem section_reads_back {sec : List UInt8} (header : 4 ≤ sec.length)
    (fits : sec.length ≤ 1024) (consistent : sec.length = declared sec)
    (tableId : sec.head? ≠ some 0xff) (pid : UInt16) (counter : UInt8) {writer : UdpTsWriter}
    (ready : writer.Ready) {sendto : Nat → Bool} (succeeds : ∀ call, sendto call = true) :
    let packets := (udpTsSendSection pid counter true sec).1
    (∃ next : UdpTsWriter, writer.sendSection sendto pid counter sec =
          some (true, UInt8.ofNat ((counter.toNat + packets.length) % 16), next) ∧
        next.Ready ∧ next.stream = writer.stream ++ packets.flatMap Packet.bytes) ∧
      packets.map continuity =
          (List.range packets.length).map (fun index => (counter.toNat + index) % 16) ∧
        (∀ asm, (psiAssembleAll asm packets).2 = [sec]) ∧
          ∀ ctx, (assemble Context.processPayload ctx
            (packets.filterMap Packet.payload?)).2 = [sec] := by
  intro packets
  have valid : IsSection assemblerSize sec :=
    ⟨Nat.le_of_succ_le header, consistent, fits, tableId⟩
  refine ⟨ready.sendSection succeeds pid counter valid.ne_nil, continuity_sendSection ..,
    psiAssembleAll_sendSection valid pid counter, ?_⟩
  exact processPayload_sendSection (valid.mono (by decide)) pid counter

/-- A writer before its first packet. -/
def freshWriter : UdpTsWriter where
  hasAlt := false
  datagram := List.replicate datagramSize 0
  size := 0
  packets := 0
  calls := 0
  sent := []

theorem freshWriter_ready : freshWriter.Ready where
  array := List.length_replicate ..
  whole := Nat.dvd_zero _
  room := by decide

theorem section_reads_back_short : freshWriter.Ready ∧
    ∀ asm, (psiAssembleAll asm (udpTsSendSection 0x500 15 true [0x80, 0x70, 0x01, 0xaa]).1).2 =
      [[0x80, 0x70, 0x01, 0xaa]] :=
  ⟨freshWriter_ready, (section_reads_back (by decide) (by decide) (by decide) (by decide) 0x500 15
    freshWriter_ready (fun _ => rfl : ∀ call : Nat, (fun _ => true) call = true)).2.2.1⟩

end Scan
