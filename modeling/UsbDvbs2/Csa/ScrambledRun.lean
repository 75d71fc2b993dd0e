import UsbDvbs2.Csa.Batch
import UsbDvbs2.Stream.BatchDescrambling

/-! # A scrambled stream comes back

A broadcaster scrambles the payloads of its packets with the control words of the two parities,
as `dvbcsa_encrypt` does, and marks them in the headers. `dtv_csa_decrypt_run`, with libdvbcsa
behind it, gives the stream back.
-/

namespace Dvbcsa

open Memory Stream

/-! ## libdvbcsa for the descrambler -/

/-- A payload on its own, as `dvbcsa_decrypt` makes it. -/
def plainDecrypt (cw : Camd.Key) (n : Nat) (bytes : Vector UInt8 n) : Vector UInt8 n :=
  load n (decrypt (keySet cw) (store (fun _ => 0) 0 bytes) 0 n) 0

/-- The library for a batch whose key was set; every call may find something else on the
stack. -/
def batchDecrypt (stack : Camd.Key → Space UInt8 → List Segment → Nat → Stack) (cw : Camd.Key)
    (memory : Space UInt8) (slots : List Segment) (longest : Nat) : Space UInt8 :=
  bsDecrypt (stack cw memory slots longest) (bsKeySet cw) slots longest memory

theorem plainDecrypt_load (cw : Camd.Key) (memory : Space UInt8) (place n : Nat) :
    plainDecrypt cw n (load n memory place) =
      load n (decrypt (keySet cw) memory place n) place := by
  apply load_congr
  intro i inside
  apply decrypt_shift _ _ inside
  intro j low
  rw [store_inside _ 0 _ low, getElem_load]

theorem store_plainDecrypt (cw : Camd.Key) (memory : Space UInt8) (place n : Nat) :
    store memory place (plainDecrypt cw n (load n memory place)) =
      decrypt (keySet cw) memory place n := by
  rw [plainDecrypt_load]
  funext address
  by_cases outside : address < place ∨ place + n ≤ address
  · rw [store_outside _ _ outside, decrypt_outside _ _ outside]
  · obtain ⟨i, rfl⟩ := Nat.exists_eq_add_of_le (show place ≤ address by omega)
    rw [store_inside _ _ _ (by omega), getElem_load]

/-- libdvbcsa does what the descrambler asks of it. -/
theorem batchDecrypt_decrypts (stack : Camd.Key → Space UInt8 → List Segment → Nat → Stack) :
    Decrypts plainDecrypt (batchDecrypt stack) 128 where
  each cw memory slots longest few apart short slot listed := by
    obtain ⟨k, place⟩ := List.mem_iff_getElem?.mp listed
    have done := slotwise_bsDecrypt (stack cw memory slots longest) cw few apart short memory
    rw [plainDecrypt_load]
    exact load_slot_congr (done.inside k slot place)
  rest cw memory slots longest few apart short :=
    (slotwise_bsDecrypt (stack cw memory slots longest) cw few apart short memory).outside

/-! ## The broadcaster -/

/-- Whether a packet has a payload. -/
def carries (memory : Space UInt8) (packet : Nat) : Bool :=
  let adaptation := (memory (packet + 3)).toNat / 16 % 4
  (adaptation = 1 ∨ adaptation = 3) ∧ payloadStart memory packet < 188

/-- The scrambling bits of a parity are set. -/
def flag (odd : Bool) (memory : Space UInt8) (packet : Nat) : Space UInt8 :=
  store memory (packet + 3) #v[memory (packet + 3) ||| if odd then 0xc0 else 0x80]

def scramblePacket (csa : Csa) (odd : Bool) (packet : Nat) (memory : Space UInt8) : Space UInt8 :=
  if carries memory packet then
    encrypt (keySet (csa.ofParity odd).key) (flag odd memory packet)
      (packet + payloadStart memory packet) (188 - payloadStart memory packet)
  else flag odd memory packet

/-- The packets that have a parity are scrambled, the others sent as they are. -/
def scrambledRun (csa : Csa) (parity : Nat → Option Bool) (memory : Space UInt8)
    (packets count : Nat) : Space UInt8 :=
  (List.range count).foldl
    (fun memory index =>
      match parity index with
      | some odd => scramblePacket csa odd (packets + index * 188) memory
      | none => memory)
    memory

/-! ## Work on a packet -/

section Packet

variable {csa : Csa} {odd : Bool} {memory other : Space UInt8} {packet : Nat}

abbrev packetAt (packet : Nat) : Segment := ⟨packet, 188⟩

theorem header_congr (same : ∀ address, (packetAt packet).Covers address →
    memory address = other address) {i : Nat} (inside : i < 188) :
    memory (packet + i) = other (packet + i) :=
  same _ ⟨Nat.le_add_right packet i, Nat.add_lt_add_left inside packet⟩

theorem payloadStart_congr (same : ∀ address, (packetAt packet).Covers address →
    memory address = other address) : payloadStart memory packet = payloadStart other packet := by
  unfold payloadStart
  rw [header_congr same (i := 3) (by decide), header_congr same (i := 4) (by decide)]

theorem carries_congr (same : ∀ address, (packetAt packet).Covers address →
    memory address = other address) : carries memory packet = carries other packet := by
  unfold carries
  rw [payloadStart_congr same, header_congr same (i := 3) (by decide)]

theorem payloadStart_ge (memory : Space UInt8) (packet : Nat) : 4 ≤ payloadStart memory packet := by
  unfold payloadStart
  split <;> omega

theorem encrypt_local (key : DvbcsaKey) (slot : Segment) :
    Local (fun memory => encrypt key memory slot.data slot.len) slot :=
  (decrypt_local key slot).inverse (fun memory => decrypt_encrypt key memory slot.data slot.len)
    fun memory => encrypt_decrypt_data key memory slot.data slot.len

theorem header_local (edit : UInt8 → UInt8) (packet : Nat) :
    Local (fun memory => store memory (packet + 3) #v[edit (memory (packet + 3))])
      (packetAt packet) :=
  local_store (Nat.le_add_right packet 3) (Nat.add_le_add_left (by decide : 4 ≤ 188) packet)
    fun memory other same => by rw [header_congr same (i := 3) (by decide)]

theorem flag_local (odd : Bool) (packet : Nat) :
    Local (fun memory => flag odd memory packet) (packetAt packet) :=
  header_local (· ||| if odd then 0xc0 else 0x80) packet

theorem unflag_local (packet : Nat) :
    Local (fun memory => unflag memory packet) (packetAt packet) :=
  header_local (· &&& 0x3f) packet

theorem scramblePacket_local (csa : Csa) (odd : Bool) (packet : Nat) :
    Local (scramblePacket csa odd packet) (packetAt packet) := by
  -- the payload of one memory is the work of a fixed slot
  have fixed (memory : Space UInt8) (payload : carries memory packet = true) :
      Local (fun memory' => encrypt (keySet (csa.ofParity odd).key) (flag odd memory' packet)
        (packet + payloadStart memory packet) (188 - payloadStart memory packet))
        (packetAt packet) := by
    have bounds : payloadStart memory packet < 188 := by
      unfold carries at payload
      exact (of_decide_eq_true payload).2
    refine (flag_local odd packet).comp ((encrypt_local _ ⟨_, _⟩).mono fun address covers => ?_)
    unfold Segment.Covers at *
    dsimp only at *
    omega
  constructor
  · intro memory address outside
    unfold scramblePacket
    split
    · exact (fixed memory (by assumption)).frame memory address outside
    · exact (flag_local odd packet).frame memory address outside
  · intro memory other same address covers
    unfold scramblePacket
    rw [← carries_congr same, ← payloadStart_congr same]
    split
    · exact (fixed memory (by assumption)).reads memory other same address covers
    · exact (flag_local odd packet).reads memory other same address covers

/-- Taking a packet out of the stream's scrambling is work on it. -/
theorem alone_local (csa : Csa) (packet : Nat) :
    Local (fun memory => alone plainDecrypt csa memory packet) (packetAt packet) where
  frame memory address outside := by
    have apart : ¬ (packet ≤ address ∧ address < packet + 188) := outside
    exact alone_outside (by omega)
  reads memory other same address covers := by
    have fates : fate csa memory packet = fate csa other packet :=
      fate_congr fun i inside => header_congr same inside
    unfold alone
    rw [← fates]
    cases fated : fate csa memory packet with
    | untouched => exact same address covers
    | unflagged => exact (unflag_local packet).reads memory other same address covers
    | payload odd offset =>
        have bounds := fate_payload fated
        dsimp only
        rw [store_plainDecrypt, store_plainDecrypt]
        have within : Local (fun memory => decrypt (keySet (csa.ofParity odd).key) memory
            (packet + offset) (188 - offset)) (packetAt packet) :=
          (decrypt_local _ ⟨packet + offset, 188 - offset⟩).mono fun cell there => by
            unfold Segment.Covers at *
            dsimp only at *
            omega
        exact ((unflag_local packet).comp within).reads memory other same address covers

end Packet

/-! ## A packet comes back -/

section BackAgain

variable {csa : Csa} {odd : Bool} {clear : Space UInt8} {packet : Nat}

theorem flagged_bits {byte : UInt8} (plain : byte.toNat / 64 = 0) (odd : Bool) :
    (byte ||| if odd then 0xc0 else 0x80).toNat / 64 = (if odd then 3 else 2) ∧
      (byte ||| if odd then 0xc0 else 0x80).toNat / 16 % 4 = byte.toNat / 16 % 4 ∧
      (byte ||| if odd then 0xc0 else 0x80) &&& 0x3f = byte := by
  have table : ∀ odd : Bool, ∀ n < 64,
      (UInt8.ofNat n ||| if odd then 0xc0 else 0x80).toNat / 64 = (if odd then 3 else 2) ∧
        (UInt8.ofNat n ||| if odd then 0xc0 else 0x80).toNat / 16 % 4 = n / 16 % 4 ∧
        (UInt8.ofNat n ||| if odd then 0xc0 else 0x80) &&& 0x3f = UInt8.ofNat n := by
    decide
  have known := table odd byte.toNat (by omega)
  rwa [UInt8.ofNat_toNat] at known

theorem flag_here (odd : Bool) (memory : Space UInt8) (packet : Nat) :
    flag odd memory packet (packet + 3) = memory (packet + 3) ||| if odd then 0xc0 else 0x80 :=
  store_inside memory (packet + 3) _ (i := 0) (by decide)

theorem flag_outside (odd : Bool) (memory : Space UInt8) {packet address : Nat}
    (outside : address ≠ packet + 3) : flag odd memory packet address = memory address :=
  store_outside _ _ (by omega)

theorem unflag_flag (plain : (clear (packet + 3)).toNat / 64 = 0) :
    unflag (flag odd clear packet) packet = clear := by
  funext address
  by_cases here : address = packet + 3
  · subst here
    rw [unflag_here, flag_here, (flagged_bits plain odd).2.2]
  · rw [unflag_outside here, flag_outside odd clear here]

/-- The bytes before the payload. -/
theorem scramblePacket_front (memory : Space UInt8) {i : Nat}
    (front : i < payloadStart memory packet) :
    scramblePacket csa odd packet memory (packet + i) = flag odd memory packet (packet + i) := by
  unfold scramblePacket
  split
  · exact encrypt_outside _ _ (.inl (by omega))
  · rfl

/-- What the descrambler makes of a packet that was scrambled. -/
theorem fate_scramblePacket (plain : (clear (packet + 3)).toNat / 64 = 0)
    (sync : clear packet = 0x47) (valid : (csa.ofParity odd).valid = true) :
    fate csa (scramblePacket csa odd packet clear) packet =
      if carries clear packet then .payload odd (payloadStart clear packet) else .unflagged := by
  have start := payloadStart_ge clear packet
  have header : scramblePacket csa odd packet clear (packet + 3) =
      clear (packet + 3) ||| if odd then 0xc0 else 0x80 := by
    rw [scramblePacket_front clear (by omega), flag_here]
  have first : scramblePacket csa odd packet clear packet = 0x47 := by
    have front := @scramblePacket_front csa odd packet clear 0 (by omega)
    rw [Nat.add_zero] at front
    rw [front, flag_outside _ _ (by omega), sync]
  obtain ⟨parity, adaptation, -⟩ := flagged_bits plain odd
  have begins : payloadStart (scramblePacket csa odd packet clear) packet =
      payloadStart clear packet := by
    unfold payloadStart
    rw [header, adaptation]
    split
    · rfl
    · rename_i adapted
      rw [scramblePacket_front clear (by unfold payloadStart; rw [if_neg adapted]; omega),
        flag_outside _ _ (by omega)]
  unfold fate
  dsimp only
  rw [first, header, parity, adaptation, begins]
  have own : (decide ((if odd then 3 else 2) % 2 = 1) : Bool) = odd := by cases odd <;> rfl
  have marked : 2 ≤ if odd then 3 else 2 := by cases odd <;> decide
  rw [own, if_pos ⟨rfl, marked, valid⟩]
  unfold carries
  dsimp only
  simp only [decide_eq_true_eq]

/-- A packet comes back as it was before it was scrambled. -/
theorem alone_scramblePacket (plain : (clear (packet + 3)).toNat / 64 = 0)
    (sync : clear packet = 0x47) (valid : (csa.ofParity odd).valid = true) :
    alone plainDecrypt csa (scramblePacket csa odd packet clear) packet = clear := by
  have fated := fate_scramblePacket plain sync valid
  unfold alone
  cases payload : carries clear packet with
  | false =>
      rw [payload, if_neg Bool.false_ne_true] at fated
      rw [fated]
      dsimp only
      rw [scramblePacket, payload, if_neg Bool.false_ne_true, unflag_flag plain]
  | true =>
      rw [payload, if_pos rfl] at fated
      rw [fated]
      dsimp only
      have start := payloadStart_ge clear packet
      -- the header and the payload are apart, so the order of the two does not matter
      have apart : Segment.Apart ⟨packet + 3, 1⟩
          ⟨packet + payloadStart clear packet, 188 - payloadStart clear packet⟩ := by
        refine .inl ?_
        dsimp only
        omega
      have header : Local (fun memory => unflag memory packet) ⟨packet + 3, 1⟩ :=
        local_store (Nat.le_refl _) (Nat.le_refl _) fun memory other same => by
          rw [same (packet + 3) ⟨Nat.le_refl _, Nat.lt_succ_self _⟩]
      rw [store_plainDecrypt, scramblePacket, payload, if_pos rfl]
      have moved := header.commute (encrypt_local (keySet (csa.ofParity odd).key) _) apart
        (flag odd clear packet)
      dsimp only at moved
      rw [moved, unflag_flag plain, decrypt_encrypt]

end BackAgain

/-! ## The run -/

variable {csa : Csa} {parity : Nat → Option Bool} {packets : Nat}

/-- What the broadcaster does with the packet of an index. -/
def sendPacket (csa : Csa) (parity : Nat → Option Bool) (packets index : Nat)
    (memory : Space UInt8) : Space UInt8 :=
  match parity index with
  | some odd => scramblePacket csa odd (packets + index * 188) memory
  | none => memory

theorem sendPacket_local (index : Nat) :
    Local (sendPacket csa parity packets index) (packetAt (packets + index * 188)) := by
  unfold sendPacket
  cases parity index with
  | none => exact ⟨fun _ _ _ => rfl, fun _ _ same => same⟩
  | some odd => exact scramblePacket_local csa odd _

theorem scrambledRun_succ (memory : Space UInt8) (count : Nat) :
    scrambledRun csa parity memory packets (count + 1) =
      sendPacket csa parity packets count (scrambledRun csa parity memory packets count) := by
  rw [scrambledRun, List.range_succ, List.foldl_append]
  rfl

/-- Descrambling the packets before an address is work on what lies before it. -/
theorem aloneRun_local (csa : Csa) (packets count : Nat) :
    Local (fun memory => aloneRun plainDecrypt csa memory packets count)
      ⟨packets, count * 188⟩ := by
  induction count with
  | zero => exact ⟨fun _ _ _ => rfl, fun _ _ same => same⟩
  | succ count ih =>
      have wide : ∀ address, Segment.Covers ⟨packets, count * 188⟩ address →
          Segment.Covers ⟨packets, (count + 1) * 188⟩ address := by
        unfold Segment.Covers
        dsimp only
        omega
      have last : ∀ address, (packetAt (packets + count * 188)).Covers address →
          Segment.Covers ⟨packets, (count + 1) * 188⟩ address := by
        unfold Segment.Covers packetAt
        dsimp only
        omega
      have both := (ih.mono wide).comp ((alone_local csa (packets + count * 188)).mono last)
      simp only [aloneRun_succ]
      exact both

theorem scrambledRun_outside (memory : Space UInt8) (count : Nat) {address : Nat}
    (outside : packets + count * 188 ≤ address) :
    scrambledRun csa parity memory packets count address = memory address := by
  induction count with
  | zero => rfl
  | succ count ih =>
      rw [scrambledRun_succ, (sendPacket_local count).frame, ih (by omega)]
      unfold Segment.Covers packetAt
      dsimp only
      omega

/-- Every packet of the run is as the broadcaster sends it. -/
theorem scrambledRun_packet (memory : Space UInt8) {index count : Nat} (inside : index < count)
    {i : Nat} (within : i < 188) :
    scrambledRun csa parity memory packets count (packets + index * 188 + i) =
      sendPacket csa parity packets index memory (packets + index * 188 + i) := by
  induction count with
  | zero => exact absurd inside (Nat.not_lt_zero index)
  | succ count ih =>
      rw [scrambledRun_succ]
      rcases Nat.lt_succ_iff_lt_or_eq.mp inside with before | rfl
      · rw [(sendPacket_local count).frame, ih before]
        unfold Segment.Covers packetAt
        dsimp only
        omega
      · refine (sendPacket_local index).reads _ _ (fun address covers => ?_) _ ⟨?_, ?_⟩
        · exact scrambledRun_outside memory index covers.1
        · exact Nat.le_add_right _ i
        · exact Nat.add_lt_add_left within _

section Restored

variable {clear : Space UInt8} {count : Nat}
  (plain : ∀ index < count, (clear (packets + index * 188 + 3)).toNat / 64 = 0)
  (ready : ∀ index < count, ∀ odd, parity index = some odd →
    clear (packets + index * 188) = 0x47 ∧ (csa.ofParity odd).valid = true)
include plain ready

theorem alone_sendPacket {index : Nat} (inside : index < count) :
    alone plainDecrypt csa (sendPacket csa parity packets index clear) (packets + index * 188) =
      clear := by
  unfold sendPacket
  cases sent : parity index with
  | none =>
      apply alone_untouched
      unfold fate
      dsimp only
      rw [plain index inside]
      exact if_neg fun scrambled => absurd scrambled.2.1 (by decide)
  | some odd =>
      obtain ⟨sync, valid⟩ := ready index inside odd sent
      exact alone_scramblePacket (plain index inside) sync valid

theorem aloneRun_scrambledRun :
    aloneRun plainDecrypt csa (scrambledRun csa parity clear packets count) packets count =
      clear := by
  induction count with
  | zero => rfl
  | succ count ih =>
      have before := ih (fun index inside => plain index (Nat.lt_succ_of_lt inside))
        fun index inside => ready index (Nat.lt_succ_of_lt inside)
      have apart : Segment.Apart ⟨packets, count * 188⟩ (packetAt (packets + count * 188)) :=
        .inl (Nat.le_refl _)
      have moved := (aloneRun_local csa packets count).commute
        (@sendPacket_local csa parity packets count) apart
        (scrambledRun csa parity clear packets count)
      rw [aloneRun_succ, scrambledRun_succ]
      refine (congrArg (alone plainDecrypt csa · _) moved).trans ?_
      rw [before]
      exact alone_sendPacket plain ready (Nat.lt_succ_self count)

theorem fate_scrambledRun {index : Nat} (inside : index < count) :
    (fate csa (scrambledRun csa parity clear packets count)
        (packets + index * 188)).decrypts =
      ((parity index).isSome && carries clear (packets + index * 188)) := by
  have same : fate csa (scrambledRun csa parity clear packets count) (packets + index * 188) =
      fate csa (sendPacket csa parity packets index clear) (packets + index * 188) :=
    fate_congr fun i within => scrambledRun_packet clear inside within
  rw [same]
  unfold sendPacket
  cases sent : parity index with
  | none =>
      have untouched : fate csa clear (packets + index * 188) = .untouched := by
        unfold fate
        dsimp only
        rw [plain index inside]
        exact if_neg fun scrambled => absurd scrambled.2.1 (by decide)
      rw [untouched]
      rfl
  | some odd =>
      obtain ⟨sync, valid⟩ := ready index inside odd sent
      dsimp only
      rw [fate_scramblePacket (plain index inside) sync valid]
      cases carries clear (packets + index * 188) <;> rfl

end Restored

/-- A stream that was scrambled packet by packet is given back by the descrambler: in memory as
it was, with every payload that was enciphered counted. -/
theorem csaDecryptRun_scrambledRun
    (stack : Camd.Key → Space UInt8 → List Segment → Nat → Stack) (csa : Csa)
    (parity : Nat → Option Bool) (clear : Space UInt8) (packets count : Nat)
    (plain : ∀ index < count, (clear (packets + index * 188 + 3)).toNat / 64 = 0)
    (ready : ∀ index < count, ∀ odd, parity index = some odd →
      clear (packets + index * 188) = 0x47 ∧ (csa.ofParity odd).valid = true) :
    let done := csaDecryptRun (batchDecrypt stack) 128 csa
      (scrambledRun csa parity clear packets count) packets count
    done.memory = clear ∧
      done.decrypted = ((List.range count).filter fun index =>
        (parity index).isSome && carries clear (packets + index * 188)).length := by
  intro done
  have meets := batchDecrypt_decrypts stack
  obtain ⟨tracks, roomy, decrypted⟩ := @run_tracks _ _ _ csa meets
    (scrambledRun csa parity clear packets count) packets count
  have even := tracks.batchFlush meets false (Nat.le_of_lt (roomy false))
  have both := even.batchFlush meets true (by
    rw [slots_batchFlush, if_neg Bool.false_ne_true.symm]
    exact Nat.le_of_lt (roomy true))
  have idle : ∀ odd, done.slots odd = [] := by
    intro odd
    rw [show done.slots odd = (csaDecryptRun _ _ _ _ _ _).slots odd from rfl, csaDecryptRun,
      slots_batchFlush, slots_batchFlush]
    cases odd <;> rfl
  constructor
  · rw [show done.memory = _ from both.settles.eq idle]
    exact aloneRun_scrambledRun plain ready
  · rw [show done.decrypted = (csaDecryptRun _ _ _ _ _ _).decrypted from rfl, csaDecryptRun,
      decrypted_batchFlush, decrypted_batchFlush, decrypted]
    refine congrArg List.length (List.filter_congr fun index listed => ?_)
    exact fate_scrambledRun plain ready (List.mem_range.mp listed)

/-- Two packets, the first one with a payload and the second one without. -/
def twoPackets : Space UInt8 := fun address =>
  if address = 0 ∨ address = 188 then 0x47
  else if address = 3 then 0x1a
  else if address = 191 then 0x25
  else UInt8.ofNat address

theorem csaDecryptRun_scrambledRun_twoPackets :
    let csa : Csa := ⟨⟨.replicate 8 0x11, true⟩, ⟨.replicate 8 0x22, true⟩⟩
    let done := csaDecryptRun (batchDecrypt fun _ _ _ _ => ⟨fun _ => ⟨7, 9⟩, fun _ _ => ⟨3, 5⟩⟩)
      128 csa (scrambledRun csa (fun index => some (index = 0)) twoPackets 0 2) 0 2
    done.memory = twoPackets ∧ done.decrypted = 1 := by
  intro csa done
  have plain : ∀ index < 2, (twoPackets (0 + index * 188 + 3)).toNat / 64 = 0 := by decide
  have ready : ∀ index < 2, ∀ odd, (some (decide (index = 0)) : Option Bool) = some odd →
      twoPackets (0 + index * 188) = 0x47 ∧ (csa.ofParity odd).valid = true := by
    intro index inside odd _
    refine ⟨(by decide : ∀ index < 2, twoPackets (0 + index * 188) = 0x47) index inside, ?_⟩
    cases odd <;> rfl
  obtain ⟨memory, decrypted⟩ := csaDecryptRun_scrambledRun _ csa _ twoPackets 0 2 plain ready
  exact ⟨memory, decrypted.trans (by decide)⟩

end Dvbcsa
