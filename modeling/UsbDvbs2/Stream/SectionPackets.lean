import UsbDvbs2.Bytes.Crc
import UsbDvbs2.Stream.Sections

/-! # Sending a section

A section over as many packets as it takes, each but the last one full. Whoever
reassembles them, whatever they held before, gets the section back.
-/

namespace Stream

open Bytes Mpeg

/-- The bytes in front of the payload; a first packet has a pointer to the byte
behind. -/
def sectionHeader (pid : UInt16) (counter : UInt8) (first : Bool) : List UInt8 :=
  [0x47, UInt8.ofNat (pid.toNat / 256 % 32 + if first then 0x40 else 0), UInt8.ofNat pid.toNat,
    UInt8.ofNat (0x10 + counter.toNat % 16)] ++ if first then [0] else []

/-- The bytes of a section that a packet takes. -/
def capacity (first : Bool) : Nat := if first then 183 else 184

/-- A packet with some bytes of a section, filled up with stuffing. -/
def sectionPacket (pid : UInt16) (counter : UInt8) (first : Bool) (sec : List UInt8) : Packet where
  bytes := sectionHeader pid counter first ++
    (sec.take (capacity first) ++ .replicate (capacity first - sec.length) 0xff)
  size := by
    cases first <;> simp [sectionHeader, capacity] <;> omega

/-- At most `fuel` turns of the loop of `udp_ts_send_section`. -/
def sendSectionWithin (pid : UInt16) :
    Nat → UInt8 → Bool → List UInt8 → List Packet × UInt8
  | 0, counter, _, _ => ([], counter)
  | fuel + 1, counter, first, sec =>
      if sec = [] then ([], counter)
      else
        let rest := sendSectionWithin pid fuel (UInt8.ofNat ((counter.toNat + 1) % 16)) false
          (sec.drop (capacity first))
        (sectionPacket pid counter first sec :: rest.1, rest.2)

/-- `udp_ts_send_section` from some byte on: the packets and the next counter. -/
def udpTsSendSection (pid : UInt16) (counter : UInt8) (first : Bool) (sec : List UInt8) :
    List Packet × UInt8 :=
  sendSectionWithin pid sec.length counter first sec

/-- The section of `udp_ts_send_single_pat`, unless it returns -1: the version of
the source and one service. -/
def singlePat (source : List UInt8) (service pmt : UInt16) : Option (List UInt8) :=
  if source.length < 12 ∨ octet source 0 ≠ 0x00 then none
  else
    let body := [0x00, 0xb0, 13, source.getD 3 0, source.getD 4 0, source.getD 5 0, 0, 0,
      UInt8.ofNat (service.toNat / 256), UInt8.ofNat service.toNat,
      UInt8.ofNat (0xe0 + pmt.toNat / 256 % 32), UInt8.ofNat pmt.toNat]
    some (body ++ crcBytes (crc32 body))

/-- Every packet takes some of the section, so there are never too many. -/
theorem sendSectionWithin_enough (pid : UInt16) {fuel more : Nat} {sec : List UInt8}
    (enough : sec.length ≤ fuel) (still : sec.length ≤ more) (counter : UInt8) (first : Bool) :
    sendSectionWithin pid fuel counter first sec =
      sendSectionWithin pid more counter first sec := by
  induction fuel generalizing more sec counter first with
  | zero =>
      have none : sec = [] := List.length_eq_zero_iff.1 (by omega)
      cases more with
      | zero => rfl
      | succ more => rw [sendSectionWithin, sendSectionWithin, if_pos none]
  | succ fuel ih =>
      cases more with
      | zero =>
          have none : sec = [] := List.length_eq_zero_iff.1 (by omega)
          rw [sendSectionWithin, sendSectionWithin, if_pos none]
      | succ more =>
          have shorter : (sec.drop (capacity first)).length ≤ sec.length - 1 := by
            rw [List.length_drop, capacity]
            split <;> omega
          rw [sendSectionWithin, sendSectionWithin, @ih more _ (by omega) (by omega)]

/-- One turn of the loop. -/
theorem udpTsSendSection_eq (pid : UInt16) (counter : UInt8) (first : Bool) (sec : List UInt8) :
    udpTsSendSection pid counter first sec =
      if sec = [] then ([], counter)
      else
        let rest := udpTsSendSection pid (UInt8.ofNat ((counter.toNat + 1) % 16)) false
          (sec.drop (capacity first))
        (sectionPacket pid counter first sec :: rest.1, rest.2) := by
  by_cases none : sec = []
  · rw [if_pos none, udpTsSendSection, none]
    rfl
  · have some : 0 < sec.length := List.length_pos_iff.2 none
    have size : sec.length = sec.length - 1 + 1 := by omega
    have shorter : (sec.drop (capacity first)).length ≤ sec.length - 1 := by
      rw [List.length_drop, capacity]
      split <;> omega
    rw [udpTsSendSection, size, sendSectionWithin, if_neg none, if_neg none, udpTsSendSection,
      sendSectionWithin_enough pid shorter (Nat.le_refl _)]

/-! ## What the packets carry -/

theorem octet_control (pid : UInt16) (counter : UInt8) (first : Bool) (more : List UInt8) :
    octet (sectionHeader pid counter first ++ more) 3 / 16 % 4 = 1 := by
  change (UInt8.ofNat (0x10 + counter.toNat % 16)).toNat / 16 % 4 = 1
  rw [UInt8.toNat_ofNat']
  omega

theorem octet_start (pid : UInt16) (counter : UInt8) (first : Bool) (more : List UInt8) :
    decide (octet (sectionHeader pid counter first ++ more) 1 / 64 % 2 = 1) = first := by
  change decide ((UInt8.ofNat (pid.toNat / 256 % 32 + if first then 0x40 else 0)).toNat / 64 % 2
    = 1) = first
  rw [UInt8.toNat_ofNat']
  cases first with
  | false =>
      rw [if_neg (by decide), decide_eq_false_iff_not]
      omega
  | true =>
      rw [if_pos rfl, decide_eq_true_eq]
      omega

theorem sectionPacket_payload (pid : UInt16) (counter : UInt8) (first : Bool) (sec : List UInt8) :
    (sectionPacket pid counter first sec).payload? =
      some ⟨first, (if first then [0] else []) ++
        (sec.take (capacity first) ++ .replicate (capacity first - sec.length) 0xff)⟩ := by
  unfold Packet.payload?
  simp only [sectionPacket, octet_control, if_true, Option.some.injEq, Payload.mk.injEq]
  exact ⟨octet_start pid counter first _, rfl⟩

/-- A payload that takes the rest of a section. -/
theorem sectionPacket_last {sec : List UInt8} (short : sec.length ≤ capacity false) (pid : UInt16)
    (counter : UInt8) : (sectionPacket pid counter false sec).payload? =
      some (Piece.last sec (capacity false - sec.length)).payload := by
  rw [sectionPacket_payload, List.take_of_length_le short]
  rfl

/-- A payload that leaves some of a section. -/
theorem sectionPacket_middle {sec : List UInt8} (long : capacity false < sec.length) (pid : UInt16)
    (counter : UInt8) : (sectionPacket pid counter false sec).payload? =
      some (Piece.middle (sec.take (capacity false))).payload := by
  rw [sectionPacket_payload, Nat.sub_eq_zero_of_le (Nat.le_of_lt long), List.replicate_zero,
    List.append_nil]
  rfl

theorem sectionPacket_closed {sec : List UInt8} (short : sec.length ≤ capacity true) (pid : UInt16)
    (counter : UInt8) : (sectionPacket pid counter true sec).payload? =
      some (Piece.closed [] [sec] (capacity true - sec.length)).payload := by
  rw [sectionPacket_payload, List.take_of_length_le short]
  simp [Piece.payload, pointed]

theorem sectionPacket_opened {sec : List UInt8} (long : capacity true < sec.length) (pid : UInt16)
    (counter : UInt8) : (sectionPacket pid counter true sec).payload? =
      some (Piece.opened [] [] (sec.take (capacity true))).payload := by
  rw [sectionPacket_payload, Nat.sub_eq_zero_of_le (Nat.le_of_lt long)]
  simp [Piece.payload, pointed]

/-- The packets behind the first carry the rest of the section. -/
theorem udpTsSendSection_rest (pid : UInt16) (counter : UInt8) (rest : List UInt8) :
    ∃ pieces, Carried (udpTsSendSection pid counter false rest).1 pieces ∧
      Conforms rest [] pieces ∧ ∀ piece ∈ pieces, piece.held ≤ 1 := by
  induction size : rest.length using Nat.strongRecOn generalizing rest counter with
  | ind _ ih =>
    rw [udpTsSendSection_eq]
    by_cases done : rest = []
    · subst done
      exact ⟨[], by rw [if_pos rfl]; rfl, .done, fun _ => nofun⟩
    rw [if_neg done]
    have some : 0 < rest.length := List.length_pos_iff.2 done
    by_cases short : rest.length ≤ capacity false
    · have behind : rest.drop (capacity false) = [] := List.drop_eq_nil_of_le short
      have carries : Carries rest (.last rest (capacity false - rest.length)) [] [] := .last
      refine ⟨[.last rest (capacity false - rest.length)], ?_, .next carries .done, ?_⟩
      · rw [Carried, behind, udpTsSendSection_eq, if_pos rfl, List.filterMap_cons,
          sectionPacket_last short]
        rfl
      · intro piece mem
        rw [List.mem_singleton.1 mem]
        exact present_le rest
    · have long : capacity false < rest.length := Nat.lt_of_not_le short
      have shorter : (rest.drop (capacity false)).length < rest.length := by
        rw [List.length_drop, capacity, if_neg (by decide)]
        omega
      have more : rest.drop (capacity false) ≠ [] := by
        rw [Ne, List.drop_eq_nil_iff]
        exact short
      obtain ⟨pieces, carried, conforms, single⟩ :=
        ih _ (size ▸ shorter) (UInt8.ofNat ((counter.toNat + 1) % 16)) _ rfl
      have carries : Carries rest (.middle (rest.take (capacity false))) []
          (rest.drop (capacity false)) := by
        have middle := @Carries.middle (rest.take (capacity false)) _ more
        rwa [List.take_append_drop] at middle
      refine ⟨.middle (rest.take (capacity false)) :: pieces, ?_, .next carries conforms, ?_⟩
      · rw [Carried, List.filterMap_cons, sectionPacket_middle long]
        exact congrArg _ carried
      · intro piece mem
        rcases List.mem_cons.1 mem with rfl | mem
        · exact present_le _
        · exact single piece mem

/-- The packets of a section are a packetization of it, and it starts in the first. -/
theorem udpTsSendSection_conforms (pid : UInt16) (counter : UInt8) {sec : List UInt8}
    (some : sec ≠ []) : ∃ first pieces,
      Carried (udpTsSendSection pid counter true sec).1 (first :: pieces) ∧
        Conforms [] [sec] (first :: pieces) ∧ (∀ piece ∈ first :: pieces, piece.held ≤ 1) ∧
          first.payload.start = true := by
  rw [udpTsSendSection_eq, if_neg some]
  by_cases short : sec.length ≤ capacity true
  · have behind : sec.drop (capacity true) = [] := List.drop_eq_nil_of_le short
    have carries : Carries [] (.closed [] [sec] (capacity true - sec.length)) [sec] [] :=
      .closed (List.cons_ne_nil _ _) (by decide)
    refine ⟨.closed [] [sec] (capacity true - sec.length), [], ?_, .next carries .done, ?_, rfl⟩
    · rw [Carried, behind, udpTsSendSection_eq, if_pos rfl, List.filterMap_cons,
        sectionPacket_closed short]
      rfl
    · intro piece mem
      rw [List.mem_singleton.1 mem]
      exact Nat.le_refl 1
  · have long : capacity true < sec.length := Nat.lt_of_not_le short
    have more : sec.drop (capacity true) ≠ [] := by
      rw [Ne, List.drop_eq_nil_iff]
      exact short
    have starts : sec.take (capacity true) ≠ [] := by
      rw [Ne, List.take_eq_nil_iff]
      simp [capacity, some]
    obtain ⟨pieces, carried, conforms, single⟩ := udpTsSendSection_rest pid
      (UInt8.ofNat ((counter.toNat + 1) % 16)) (sec.drop (capacity true))
    have carries : Carries [] (.opened [] [] (sec.take (capacity true))) [sec]
        (sec.drop (capacity true)) := by
      have opened := @Carries.opened [] [] _ _ starts more (by decide)
      rwa [List.take_append_drop] at opened
    refine ⟨.opened [] [] (sec.take (capacity true)), pieces, ?_, .next carries conforms, ?_, rfl⟩
    · rw [Carried, List.filterMap_cons, sectionPacket_opened long]
      exact congrArg _ carried
    · intro piece mem
      rcases List.mem_cons.1 mem with rfl | mem
      · rw [Piece.held, present_of_ne starts]
        exact Nat.le_refl 1
      · exact single piece mem

/-! ## Getting the section back -/

/-- A start is read alike whatever the assembler holds. -/
theorem psi_resyncs (asm : Assembler) :
    Resyncs Assembler.hand assemblerSize (·.held ≤ 1) Tracks asm fun _ => [] := by
  intro rest rest' piece started carries valid flagged single
  unfold Assembler.hand
  cases carries with
  | middle | last => exact nomatch flagged
  | @closed _ whole stuffing starts points =>
      rw [Piece.held] at single
      obtain ⟨sec, more, rfl⟩ := List.exists_cons_of_ne_nil starts
      rw [List.length_cons] at single
      obtain rfl : more = [] := List.length_eq_zero_iff.1 (by omega)
      rw [Piece.payload, feed_closed points (valid sec (by simp))]
      exact ⟨rfl, tracks_empty⟩
  | @opened _ whole head _ starts more points =>
      rw [Piece.held, present_of_ne starts] at single
      obtain rfl : whole = [] := List.length_eq_zero_iff.1 (by omega)
      rw [Piece.payload, List.flatten_nil, List.nil_append,
        feed_opened points starts more (valid _ (List.mem_singleton_self _))]
      exact ⟨rfl, tracks_of more⟩

/-- The packets of a section, put together, are the section. -/
theorem psiAssembleAll_sendSection {sec : List UInt8} (valid : IsSection assemblerSize sec)
    (pid : UInt16) (counter : UInt8) (asm : Assembler) :
    (psiAssembleAll asm (udpTsSendSection pid counter true sec).1).2 = [sec] := by
  obtain ⟨first, pieces, carried, conforms, single, starts⟩ :=
    udpTsSendSection_conforms pid counter valid.ne_nil
  have sections : ∀ other ∈ [sec], IsSection assemblerSize other := fun other mem =>
    List.mem_singleton.1 mem ▸ valid
  rw [psiAssembleAll_eq, carried,
    psi_faithful.assemble_from_start (psi_resyncs asm) conforms sections single starts,
    List.nil_append]

end Stream
