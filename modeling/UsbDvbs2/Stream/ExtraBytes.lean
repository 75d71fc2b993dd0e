import UsbDvbs2.Stream.ExtraSlots
import UsbDvbs2.Stream.Reader

/-! # The bytes of the extra services

The stream thread's buffer, byte by byte: what a read appends, what the
descrambler of the watched channel writes over in place, and the packets that are
then offered to the extra slots. Every byte remembers how it came and what has
happened to it.
-/

namespace Stream

open Bytes Camd

/-- What the descrambler has done to a byte. -/
inductive Mark where
  | fresh
  /-- the scrambling bits have been taken out of it -/
  | cleared
  /-- it has been deciphered, or cleared and deciphered -/
  | rewritten
  deriving DecidableEq

/-- A byte of the buffer, and as it came from USB. -/
structure Cell where
  byte : UInt8
  raw : UInt8
  mark : Mark
  deriving DecidableEq

def Cell.received (byte : UInt8) : Cell := ⟨byte, byte, .fresh⟩

/-- Take the scrambling bits out. -/
def Cell.clear (cell : Cell) : Cell where
  byte := cell.byte &&& 0x3f
  raw := cell.raw
  mark := if cell.mark = .fresh then .cleared else .rewritten

/-- Bytes written over the cells in front. -/
def rewrite : List Cell → List UInt8 → List Cell
  | cell :: cells, byte :: bytes => ⟨byte, cell.raw, .rewritten⟩ :: rewrite cells bytes
  | cells, [] => cells
  | [], _ => []

/-! ## The descrambler -/

section Descrambling

variable (cipher : Key → List UInt8 → List UInt8)

/-- The batch for the parity of a scrambled packet: bit 0 of the scrambling
control. -/
def Csa.batch (csa : Csa) (packet : List UInt8) : Batch :=
  if octet packet 3 / 64 % 2 = 1 then csa.odd else csa.even

/-- A packet that `dtv_csa_decrypt_run` does not leave alone. -/
def Csa.descrambles (csa : Csa) (packet : List UInt8) : Bool :=
  octet packet 0 == 0x47 && decide (2 ≤ octet packet 3 / 64) && (csa.batch packet).valid

/-- Where the payload begins, if there is one. -/
def payloadOffset (packet : List UInt8) : Option Nat :=
  let adaptation := octet packet 3 / 16 % 4
  if adaptation = 1 then some 4
  else if adaptation = 3 ∧ 5 + octet packet 4 < 188 then some (5 + octet packet 4)
  else none

/-- One packet of the run. -/
def Csa.decryptPacket (csa : Csa) (cells : List Cell) : List Cell :=
  let packet := cells.map Cell.byte
  if csa.descrambles packet then
    let cleared := cells.modify 3 Cell.clear
    match payloadOffset packet with
    | some offset =>
        let payload := cleared.drop offset
        cleared.take offset ++
          rewrite payload (cipher (csa.batch packet).key (payload.map Cell.byte))
    | none => cleared
  else cells

/-- `dtv_csa_decrypt_run`. -/
def Csa.decryptRun (csa : Csa) : Nat → List Cell → List Cell
  | 0, cells => cells
  | count + 1, cells =>
      csa.decryptPacket cipher (cells.take 188) ++ csa.decryptRun count (cells.drop 188)

/-- `find_ts_sync`, from the first byte on. -/
def findTsSync : List UInt8 → Option Nat
  | [] => none
  | byte :: more =>
      if 4 * 188 ≤ more.length ∧
          ∀ k < 5, octet (byte :: more) (188 * k) = 0x47 then some 0
      else (findTsSync more).map (· + 1)

/-- What a read is decrypted to, before its packets are looked at. -/
def Keyring.decryptRead (ring : Keyring) (synced : Bool) (cells : List Cell) : List Cell :=
  if ring.decrypts then
    match if synced then some 0 else findTsSync (cells.map Cell.byte) with
    | some start =>
        cells.take start ++ ring.csa.decryptRun cipher ((cells.length - start) / 188)
          (cells.drop start)
    | none => cells
  else cells

end Descrambling

/-! ## The packets of a read -/

/-- The cells of a packet. -/
structure Frame where
  cells : List Cell
  size : cells.length = 188

/-- The packet as it is sent. -/
def Frame.sent (frame : Frame) : Packet where
  bytes := frame.cells.map Cell.byte
  size := by rw [List.length_map, frame.size]

/-- The packet as it came from USB. -/
def Frame.received (frame : Frame) : Packet where
  bytes := frame.cells.map Cell.raw
  size := by rw [List.length_map, frame.size]

/-- A packet that is offered to the slots. -/
structure Offer where
  frame : Frame
  outs : List ExtraOut

/-- The loop over a read: what is left of the buffer, the thread's variables and
the slots. -/
structure Reading where
  cells : List Cell
  synced : Bool
  work : Work
  outs : List ExtraOut

/-- ECM packets are consumed; all others are offered. -/
def Reading.handle (reading : Reading) (frame : Frame) : Reading × List Offer :=
  let reader := reading.work.reader
  let after := { reading with work := reading.work.packet frame.sent }
  if frame.sent.pid = reader.ecmPid ∧ reader.ecmPid < noPid then (after, [])
  else
    ({ after with outs := reading.outs.map fun out => (out.feed frame.sent).1 },
      [⟨frame, reading.outs⟩])

/-- One turn of the loop, unless it ends here. -/
def Reading.turn (reading : Reading) : Option (Reading × List Offer) :=
  match if reading.synced then some 0 else findTsSync (reading.cells.map Cell.byte) with
  | none => none
  | some skip =>
      let cells := reading.cells.drop skip
      if whole : 188 ≤ cells.length then
        if octet (cells.map Cell.byte) 0 ≠ 0x47 then
          some ({ reading with cells := cells.drop 1, synced := false }, [])
        else
          let frame := ⟨cells.take 188, List.length_take_of_le whole⟩
          some ({ reading with cells := cells.drop 188, synced := true }.handle frame)
      else none

/-- At most `fuel` turns; every turn takes a byte. -/
def Reading.visit : Nat → Reading → Reading × List Offer
  | 0, reading => (reading, [])
  | fuel + 1, reading =>
      match reading.turn with
      | none => (reading, [])
      | some (next, offers) =>
          let rest := visit fuel next
          (rest.1, offers ++ rest.2)

/-- The bytes between two reads. -/
structure Buffer where
  cells : List Cell
  synced : Bool

def Buffer.empty : Buffer := ⟨[], false⟩

/-- What is kept for the next read. -/
def Reading.rest (reading : Reading) : Buffer :=
  let kept :=
    if !reading.synced ∧ 4 * 188 < reading.cells.length then
      reading.cells.drop (reading.cells.length - 4 * 188)
    else reading.cells
  if 5 * 188 < kept.length then .empty else ⟨kept, reading.synced⟩

inductive BufferEvent where
  /-- a read, with the thread's variables and the slots as they are then -/
  | read (bytes : List UInt8) (work : Work) (outs : List ExtraOut)
  /-- the buffer is given up: before a lock, while the FIFO is drained, at a new
  channel -/
  | drop

section Run

variable (cipher : Key → List UInt8 → List UInt8)

def Buffer.next (buffer : Buffer) : BufferEvent → Buffer × List Offer
  | .read bytes work outs =>
      let cells := work.reader.keys.decryptRead cipher buffer.synced
        (buffer.cells ++ bytes.map Cell.received)
      let visited := Reading.visit (cells.length + 1) ⟨cells, buffer.synced, work, outs⟩
      (visited.1.rest, visited.2)
  | .drop => (.empty, [])

/-- Every packet that is offered in a run. -/
def Buffer.offers : Buffer → List BufferEvent → List Offer
  | _, [] => []
  | buffer, event :: events =>
      (buffer.next cipher event).2 ++ (buffer.next cipher event).1.offers events

end Run

/-! ## Which packets a slot passes on -/

/-- The packet is neither a table nor another service's. -/
def ExtraOut.passes (out : ExtraOut) (packet : Packet) : Prop :=
  out.serviceId ≠ 0 ∧ packet.pid ≠ 0 ∧ ¬ (packet.pid = out.pmt ∧ out.pmt < noPid) ∧
    out.streamPids ≠ [] ∧
      (packet.pid ∈ out.streamPids ∨ packet.pid = out.pcrPid ∧ out.pcrPid < noPid)

instance (out : ExtraOut) (packet : Packet) : Decidable (out.passes packet) :=
  inferInstanceAs (Decidable (_ ∧ _))

theorem ExtraOut.feed_of_passes {out : ExtraOut} {packet : Packet} (passes : out.passes packet) :
    out.feed packet = out.send [.passed packet] := by
  obtain ⟨service, table, pmt, streams, named⟩ := passes
  rw [ExtraOut.feed, if_neg service, if_neg table, if_neg pmt, if_neg streams, if_pos named]

/-! ## What the marks say -/

/-- The mark tells the truth. -/
def Cell.Honest (cell : Cell) : Prop :=
  match cell.mark with
  | .fresh => cell.byte = cell.raw
  | .cleared => cell.byte ≠ cell.raw
  | .rewritten => True

theorem Cell.honest_received (byte : UInt8) : (Cell.received byte).Honest := rfl

theorem Cell.honest_rewritten (byte raw : UInt8) : (Cell.mk byte raw .rewritten).Honest := trivial

/-- Taking the scrambling bits out of a scrambled packet changes them. -/
theorem Cell.Honest.clear {cell : Cell} (honest : cell.Honest)
    (scrambled : 2 ≤ cell.byte.toNat / 64) : cell.clear.Honest := by
  obtain ⟨byte, raw, mark⟩ := cell
  cases mark with
  | cleared | rewritten => exact Cell.honest_rewritten _ _
  | fresh =>
      obtain rfl : byte = raw := honest
      have low : (byte &&& 0x3f).toNat = byte.toNat % 64 := by
        rw [UInt8.toNat_and]
        exact Nat.and_two_pow_sub_one_eq_mod byte.toNat 6
      intro same
      rw [← UInt8.toNat_inj] at same
      simp only [Cell.clear] at same
      rw [low] at same
      simp only at scrambled
      omega

theorem honest_rewrite {cells : List Cell} (honest : ∀ cell ∈ cells, cell.Honest)
    (bytes : List UInt8) : ∀ cell ∈ rewrite cells bytes, cell.Honest := by
  induction cells generalizing bytes with
  | nil => cases bytes <;> exact honest
  | cons first cells ih =>
      cases bytes with
      | nil => exact honest
      | cons byte bytes =>
          rw [List.forall_mem_cons] at honest
          rw [rewrite, List.forall_mem_cons]
          exact ⟨Cell.honest_rewritten _ _, ih honest.2 bytes⟩

theorem honest_modify {cells : List Cell} (honest : ∀ cell ∈ cells, cell.Honest)
    (scrambled : 2 ≤ octet (cells.map Cell.byte) 3 / 64) :
    ∀ cell ∈ cells.modify 3 Cell.clear, cell.Honest := by
  intro cell mem
  obtain ⟨pos, inside, rfl⟩ := List.mem_iff_getElem.1 mem
  rw [List.length_modify] at inside
  rw [List.getElem_modify]
  split
  · rename_i third
    refine (honest _ (List.getElem_mem inside)).clear ?_
    subst third
    rwa [octet, List.getD_eq_getElem?_getD, List.getElem?_map, List.getElem?_eq_getElem inside,
      Option.map_some, Option.getD_some] at scrambled
  · exact honest _ (List.getElem_mem inside)

theorem Csa.scrambled_of_descrambles (csa : Csa) {packet : List UInt8}
    (descrambles : csa.descrambles packet = true) : 2 ≤ octet packet 3 / 64 := by
  rw [Csa.descrambles, Bool.and_eq_true, Bool.and_eq_true, decide_eq_true_eq] at descrambles
  exact descrambles.1.2

section Descrambling

variable (cipher : Key → List UInt8 → List UInt8) {cells : List Cell}

theorem Csa.honest_decryptPacket (csa : Csa) (honest : ∀ cell ∈ cells, cell.Honest) :
    ∀ cell ∈ csa.decryptPacket cipher cells, cell.Honest := by
  simp only [decryptPacket]
  split
  · rename_i descrambles
    have cleared := honest_modify honest (csa.scrambled_of_descrambles descrambles)
    split
    · intro cell mem
      rcases List.mem_append.1 mem with front | payload
      · exact cleared cell (List.mem_of_mem_take front)
      · exact honest_rewrite (fun other inside => cleared other (List.mem_of_mem_drop inside)) _
          cell payload
    · exact cleared
  · exact honest

theorem Csa.honest_decryptRun (csa : Csa) (count : Nat) (honest : ∀ cell ∈ cells, cell.Honest) :
    ∀ cell ∈ csa.decryptRun cipher count cells, cell.Honest := by
  induction count generalizing cells with
  | zero => exact honest
  | succ count ih =>
      intro cell mem
      rcases List.mem_append.1 mem with here | later
      · exact csa.honest_decryptPacket cipher
          (fun other inside => honest other (List.mem_of_mem_take inside)) cell here
      · exact ih (fun other inside => honest other (List.mem_of_mem_drop inside)) cell later

theorem Keyring.honest_decryptRead (ring : Keyring) (synced : Bool)
    (honest : ∀ cell ∈ cells, cell.Honest) :
    ∀ cell ∈ ring.decryptRead cipher synced cells, cell.Honest := by
  unfold decryptRead
  split
  · split
    · intro cell mem
      rcases List.mem_append.1 mem with front | run
      · exact honest cell (List.mem_of_mem_take front)
      · exact ring.csa.honest_decryptRun cipher _
          (fun other inside => honest other (List.mem_of_mem_drop inside)) cell run
    · exact honest
  · exact honest

end Descrambling

/-! ## The loop -/

/-- Nothing but cells of the buffer is offered or left. -/
theorem Reading.turn_cells {reading next : Reading} {offers : List Offer}
    (turned : reading.turn = some (next, offers)) : (∀ cell ∈ next.cells, cell ∈ reading.cells) ∧
      ∀ offer ∈ offers, ∀ cell ∈ offer.frame.cells, cell ∈ reading.cells := by
  unfold turn at turned
  split at turned
  · exact nomatch turned
  rename_i skip _
  have inside : ∀ cell ∈ reading.cells.drop skip, cell ∈ reading.cells := fun _ =>
    List.mem_of_mem_drop
  simp only at turned
  split at turned
  · split at turned
    · obtain ⟨rfl, rfl⟩ := Prod.mk.inj (Option.some.inj turned)
      exact ⟨fun cell mem => inside cell (List.mem_of_mem_drop mem), nofun⟩
    · simp only [handle] at turned
      split at turned
      · obtain ⟨rfl, rfl⟩ := Prod.mk.inj (Option.some.inj turned)
        exact ⟨fun cell mem => inside cell (List.mem_of_mem_drop mem), nofun⟩
      · obtain ⟨rfl, rfl⟩ := Prod.mk.inj (Option.some.inj turned)
        refine ⟨fun cell mem => inside cell (List.mem_of_mem_drop mem), fun offer mem => ?_⟩
        rw [List.mem_singleton.1 mem]
        exact fun cell mem => inside cell (List.mem_of_mem_take mem)
  · exact nomatch turned

theorem Reading.visit_cells (fuel : Nat) (reading : Reading) :
    (∀ cell ∈ (reading.visit fuel).1.cells, cell ∈ reading.cells) ∧
      ∀ offer ∈ (reading.visit fuel).2, ∀ cell ∈ offer.frame.cells, cell ∈ reading.cells := by
  induction fuel generalizing reading with
  | zero => exact ⟨fun _ => id, nofun⟩
  | succ fuel ih =>
      rw [visit]
      cases turned : reading.turn with
      | none => exact ⟨fun _ => id, nofun⟩
      | some step =>
          obtain ⟨left, offered⟩ := turn_cells turned
          obtain ⟨rest, later⟩ := ih step.1
          refine ⟨fun cell mem => left cell (rest cell mem), fun offer mem cell inside => ?_⟩
          rcases List.mem_append.1 mem with here | there
          · exact offered offer here cell inside
          · exact left cell (later offer there cell inside)

theorem Reading.rest_cells (reading : Reading) :
    ∀ cell ∈ reading.rest.cells, cell ∈ reading.cells := by
  have either : ∀ kept : List Cell, (∀ cell ∈ kept, cell ∈ reading.cells) →
      ∀ cell ∈ (if 5 * 188 < kept.length then Buffer.empty else ⟨kept, reading.synced⟩).cells,
        cell ∈ reading.cells := by
    intro kept inside
    split
    · exact nofun
    · exact inside
  refine either _ ?_
  split
  · exact fun _ => List.mem_of_mem_drop
  · exact fun _ => id

section Run

variable (cipher : Key → List UInt8 → List UInt8) {buffer : Buffer}

theorem Buffer.honest_next (honest : ∀ cell ∈ buffer.cells, cell.Honest) (event : BufferEvent) :
    (∀ cell ∈ (buffer.next cipher event).1.cells, cell.Honest) ∧
      ∀ offer ∈ (buffer.next cipher event).2, ∀ cell ∈ offer.frame.cells, cell.Honest := by
  cases event with
  | drop => exact ⟨nofun, nofun⟩
  | read bytes work outs =>
      have joined : ∀ cell ∈ buffer.cells ++ bytes.map Cell.received, cell.Honest := by
        intro cell mem
        rcases List.mem_append.1 mem with before | now
        · exact honest cell before
        · obtain ⟨byte, -, rfl⟩ := List.mem_map.1 now
          exact Cell.honest_received byte
      have decrypted := work.reader.keys.honest_decryptRead cipher buffer.synced joined
      obtain ⟨left, offered⟩ := Reading.visit_cells _
        ⟨work.reader.keys.decryptRead cipher buffer.synced
          (buffer.cells ++ bytes.map Cell.received), buffer.synced, work, outs⟩
      refine ⟨fun cell mem => ?_, fun offer mem cell inside => ?_⟩
      · exact decrypted cell (left cell (Reading.rest_cells _ cell mem))
      · exact decrypted cell (offered offer mem cell inside)

theorem Buffer.honest_offers (honest : ∀ cell ∈ buffer.cells, cell.Honest)
    (events : List BufferEvent) :
    ∀ offer ∈ buffer.offers cipher events, ∀ cell ∈ offer.frame.cells, cell.Honest := by
  induction events generalizing buffer with
  | nil => exact nofun
  | cons event events ih =>
      obtain ⟨left, offered⟩ := Buffer.honest_next cipher honest event
      intro offer mem
      rcases List.mem_append.1 mem with here | later
      · exact offered offer here
      · exact ih left offer later

end Run

/-! ## Forwarded as received -/

/-- The descrambler has not touched the packet. -/
def Frame.Fresh (frame : Frame) : Prop := ∀ cell ∈ frame.cells, cell.mark = .fresh

/-- The descrambler has taken scrambling bits out of the packet. -/
def Frame.Struck (frame : Frame) : Prop := ∃ cell ∈ frame.cells, cell.mark = .cleared

theorem Frame.sent_of_fresh {frame : Frame} (honest : ∀ cell ∈ frame.cells, cell.Honest)
    (fresh : frame.Fresh) : frame.sent = frame.received := by
  have same : ∀ cell ∈ frame.cells, cell.byte = cell.raw := by
    intro cell mem
    have told := honest cell mem
    rwa [Cell.Honest, fresh cell mem] at told
  rw [Frame.sent, Frame.received, Packet.mk.injEq]
  exact List.map_congr_left same

theorem Frame.sent_of_struck {frame : Frame} (honest : ∀ cell ∈ frame.cells, cell.Honest)
    (struck : frame.Struck) : frame.sent ≠ frame.received := by
  intro same
  obtain ⟨cell, mem, cleared⟩ := struck
  have bytes : frame.cells.map Cell.byte = frame.cells.map Cell.raw := congrArg Packet.bytes same
  have told := honest cell mem
  rw [Cell.Honest, cleared] at told
  exact told (List.map_inj_left.1 bytes cell mem)

/-- A packet that is not descrambled stays as it is. -/
theorem Csa.decryptPacket_of_not {csa : Csa} {chunk : List Cell}
    (leaves : csa.descrambles (chunk.map Cell.byte) = false)
    (cipher : Key → List UInt8 → List UInt8) : csa.decryptPacket cipher chunk = chunk := by
  simp only [decryptPacket, leaves]
  rfl

/-- A packet that is descrambled loses its scrambling bits. -/
theorem Csa.decryptPacket_struck {csa : Csa} {chunk : List Cell}
    (fresh : ∀ cell ∈ chunk, cell.mark = .fresh)
    (descrambles : csa.descrambles (chunk.map Cell.byte) = true)
    (cipher : Key → List UInt8 → List UInt8) :
    ∃ cell ∈ csa.decryptPacket cipher chunk, cell.mark = .cleared := by
  have scrambled := csa.scrambled_of_descrambles descrambles
  have third : 3 < chunk.length := by
    by_contra short
    have outside : (chunk.map Cell.byte).length ≤ 3 := by
      rw [List.length_map]
      omega
    rw [octet, List.getD_eq_getElem?_getD, List.getElem?_eq_none outside] at scrambled
    exact absurd scrambled (by decide)
  have cleared : chunk[3].clear ∈ (chunk.modify 3 Cell.clear).take 4 := by
    have inside : 3 < ((chunk.modify 3 Cell.clear).take 4).length := by
      rw [List.length_take, List.length_modify]
      omega
    have same : ((chunk.modify 3 Cell.clear).take 4)[3] = chunk[3].clear := by
      rw [List.getElem_take, List.getElem_modify, if_pos rfl]
    exact same ▸ List.getElem_mem inside
  have marked : chunk[3].clear.mark = .cleared := by
    rw [Cell.clear, fresh _ (List.getElem_mem third), if_pos rfl]
  refine ⟨chunk[3].clear, ?_, marked⟩
  simp only [decryptPacket, descrambles, if_true]
  split
  · rename_i offset found
    have behind : 4 ≤ offset := by
      simp only [payloadOffset] at found
      split at found
      · exact Nat.le_of_eq (Option.some.inj found)
      · split at found
        · have at_ := Option.some.inj found
          omega
        · contradiction
    exact List.mem_append_left _ ((List.take_sublist_take_left behind).subset cleared)
  · exact List.mem_of_mem_take cleared

/-- In every run, a packet that a slot passes on is as it was received, scrambling
bits and all, if the descrambler of the watched channel has not touched it. In
step with the descrambler that is so exactly when the packet is not one of those
which the watched channel's keys descramble. -/
theorem extra_forwards_received (cipher : Key → List UInt8 → List UInt8)
    (events : List BufferEvent) : ∀ offer ∈ Buffer.empty.offers cipher events,
      ∀ out ∈ offer.outs, out.passes offer.frame.sent →
        out.feed offer.frame.sent = out.send [.passed offer.frame.sent] ∧
        (offer.frame.Fresh → offer.frame.sent = offer.frame.received ∧
          octet offer.frame.sent.bytes 3 / 64 = octet offer.frame.received.bytes 3 / 64) ∧
        ∀ csa chunk, (∀ cell ∈ chunk, cell.mark = .fresh) →
          offer.frame.cells = Csa.decryptPacket cipher csa chunk →
            (offer.frame.sent = offer.frame.received ↔
              csa.descrambles (chunk.map Cell.byte) = false) := by
  intro offer offered out _ passes
  have none : ∀ cell ∈ Buffer.empty.cells, cell.Honest := nofun
  have honest := Buffer.honest_offers cipher none events offer offered
  refine ⟨ExtraOut.feed_of_passes passes, fun fresh => ?_, fun csa chunk fresh step => ?_⟩
  · have same := Frame.sent_of_fresh honest fresh
    exact ⟨same, by rw [same]⟩
  · cases descrambles : csa.descrambles (chunk.map Cell.byte) with
    | true =>
        have struck : offer.frame.Struck :=
          (congrArg (fun cells => ∃ cell ∈ cells, Cell.mark cell = .cleared) step).mpr
            (Csa.decryptPacket_struck fresh descrambles cipher)
        exact ⟨fun same => (Frame.sent_of_struck honest struck same).elim, nofun⟩
    | false =>
        rw [Csa.decryptPacket_of_not descrambles] at step
        have untouched : offer.frame.Fresh := fun cell mem => fresh cell (step ▸ mem)
        exact ⟨fun _ => rfl, fun _ => Frame.sent_of_fresh honest untouched⟩

/-! ### A tile beside a channel that is descrambled -/

/-- A packet of pid 0x101 that is all adaptation field. -/
def emptyPacket (control : UInt8) : List UInt8 :=
  [0x47, 0x01, 0x01, control, 183] ++ .replicate 183 0xff

/-- The watched channel has an even key. -/
def keyedWork : Work where
  reader := { Reader.fresh with keys := ⟨⟨⟨zeroCw, true⟩, ⟨zeroCw, false⟩⟩, true, 1⟩ }
  camd := none
  sections := []
  handed := []

def tileOut : ExtraOut :=
  { ExtraOut.fresh with serviceId := 1, pmt := 0x100, streamPids := [0x101] }

def tileRead (control : UInt8) : List BufferEvent :=
  [.read (List.replicate 5 (emptyPacket control)).flatten keyedWork [tileOut]]

/-- The cipher of a run without a payload to decrypt. -/
def unused : Key → List UInt8 → List UInt8 := fun _ payload => payload

theorem extra_forwards_received_clear :
    ∃ offer ∈ Buffer.empty.offers unused (tileRead 0x20),
      offer.frame.sent = offer.frame.received := by
  have shown : ∃ offer ∈ Buffer.empty.offers unused (tileRead 0x20),
      tileOut ∈ offer.outs ∧ tileOut.passes offer.frame.sent ∧
        ∀ cell ∈ offer.frame.cells, cell.mark = .fresh := by decide +kernel
  obtain ⟨offer, offered, listens, passes, fresh⟩ := shown
  have carried :=
    extra_forwards_received unused (tileRead 0x20) offer offered tileOut listens passes
  exact ⟨offer, offered, (carried.2.1 fresh).1⟩

/-- A scrambled packet of another service is forwarded as if it were in the clear. -/
theorem extra_forwards_cleared :
    ∃ offer ∈ Buffer.empty.offers unused (tileRead 0xa0), ∃ out ∈ offer.outs,
      out.passes offer.frame.sent ∧ offer.frame.sent ≠ offer.frame.received ∧
        octet offer.frame.received.bytes 3 / 64 = 2 ∧ octet offer.frame.sent.bytes 3 / 64 = 0 := by
  decide +kernel

end Stream
