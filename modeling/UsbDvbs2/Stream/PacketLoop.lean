import UsbDvbs2.Bytes.Pieces
import UsbDvbs2.Stream.ExtraBytes

/-! # The packet loop

How the stream thread cuts its buffer into packets: where it finds the alignment,
when it loses it, and what it carries over into the next read. Nothing of the
loop but the packets it extracts.
-/

namespace Stream

open Bytes Camd

/-! ## The loop -/

/-- Where the next packet should begin. -/
def Buffer.alignment (buffer : Buffer) : Option Nat :=
  if buffer.synced then some 0 else findTsSync (buffer.cells.map Cell.byte)

/-- The 0x47 check, and the packet behind it. -/
def takePacket (cells : List Cell) : Option (Buffer × List Frame) :=
  if whole : 188 ≤ cells.length then
    if octet (cells.map Cell.byte) 0 ≠ 0x47 then some (⟨cells.drop 1, false⟩, [])
    else some (⟨cells.drop 188, true⟩, [⟨cells.take 188, List.length_take_of_le whole⟩])
  else none

/-- One turn of the loop, unless it ends here. -/
def Buffer.turn (buffer : Buffer) : Option (Buffer × List Frame) :=
  buffer.alignment.bind fun skip => takePacket (buffer.cells.drop skip)

/-- At most `fuel` turns; every turn takes a byte. -/
def Buffer.visit : Nat → Buffer → Buffer × List Frame
  | 0, buffer => (buffer, [])
  | fuel + 1, buffer =>
      match buffer.turn with
      | none => (buffer, [])
      | some (next, frames) => ((visit fuel next).1, frames ++ (visit fuel next).2)

/-- The pending bytes. -/
def Buffer.carried (buffer : Buffer) : List Cell :=
  if !buffer.synced ∧ 4 * 188 < buffer.cells.length then
    buffer.cells.drop (buffer.cells.length - 4 * 188)
  else buffer.cells

/-- What the next read finds, with the defensive reset. -/
def Buffer.kept (buffer : Buffer) : Buffer :=
  if 5 * 188 < buffer.carried.length then .empty else ⟨buffer.carried, buffer.synced⟩

section Reads

variable (cipher : Key → List UInt8 → List UInt8) (ring : Keyring)

/-- The buffer when the loop begins. -/
def Buffer.filled (buffer : Buffer) (bytes : List UInt8) : Buffer where
  cells := ring.decryptRead cipher buffer.synced (buffer.cells ++ bytes.map Cell.received)
  synced := buffer.synced

/-- The loop over a read, to its end. -/
def Buffer.looped (buffer : Buffer) (bytes : List UInt8) : Buffer × List Frame :=
  (buffer.filled cipher ring bytes).visit ((buffer.filled cipher ring bytes).cells.length + 1)

/-- A read: the packets, and the buffer for the next one. -/
def Buffer.read (buffer : Buffer) (bytes : List UInt8) : Buffer × List Frame :=
  ((buffer.looped cipher ring bytes).1.kept, (buffer.looped cipher ring bytes).2)

end Reads

section Cases

variable {cells : List Cell}

theorem takePacket_short (short : ¬ 188 ≤ cells.length) : takePacket cells = none := dif_neg short

theorem takePacket_lost (whole : 188 ≤ cells.length)
    (lost : octet (cells.map Cell.byte) 0 ≠ 0x47) :
    takePacket cells = some (⟨cells.drop 1, false⟩, []) := by
  rw [takePacket, dif_pos whole, if_pos lost]

theorem takePacket_frame (whole : 188 ≤ cells.length)
    (sync : octet (cells.map Cell.byte) 0 = 0x47) : takePacket cells =
      some (⟨cells.drop 188, true⟩, [⟨cells.take 188, List.length_take_of_le whole⟩]) := by
  rw [takePacket, dif_pos whole, if_neg (not_not.2 sync)]

end Cases

/-! ## The loop in the stream thread -/

/-- The thread's loop without its variables and slots. -/
def Reading.buffer (reading : Reading) : Buffer := ⟨reading.cells, reading.synced⟩

theorem Reading.handle_spec (reading : Reading) (frame : Frame) :
    (reading.handle frame).1.buffer = reading.buffer ∧
      ((reading.handle frame).2.map Offer.frame).Sublist [frame] := by
  simp only [handle]
  split
  · exact ⟨rfl, List.nil_sublist _⟩
  · exact ⟨rfl, List.Sublist.refl _⟩

/-- A turn of the thread's loop is a turn of the packet loop. -/
theorem Reading.turn_spec (reading : Reading) :
    match reading.turn with
    | none => reading.buffer.turn = none
    | some (next, offers) => ∃ frames, reading.buffer.turn = some (next.buffer, frames) ∧
        (offers.map Offer.frame).Sublist frames := by
  unfold turn
  cases found : reading.buffer.alignment with
  | none =>
      have none_ : (if reading.synced then some 0 else findTsSync (reading.cells.map Cell.byte)) =
        none := found
      rw [none_, Buffer.turn, found]
      rfl
  | some skip =>
      have some_ : (if reading.synced then some 0 else findTsSync (reading.cells.map Cell.byte)) =
        some skip := found
      have turns : reading.buffer.turn = takePacket (reading.cells.drop skip) := by
        rw [Buffer.turn, found]
        rfl
      rw [some_, turns]
      by_cases whole : 188 ≤ (reading.cells.drop skip).length
      · by_cases lost : octet ((reading.cells.drop skip).map Cell.byte) 0 ≠ 0x47
        · simp only [dif_pos whole, if_pos lost]
          exact ⟨[], takePacket_lost whole lost, List.Sublist.refl _⟩
        · simp only [dif_pos whole, if_neg lost]
          obtain ⟨same, sent⟩ := Reading.handle_spec
            { reading with cells := (reading.cells.drop skip).drop 188, synced := true }
            ⟨(reading.cells.drop skip).take 188, List.length_take_of_le whole⟩
          refine ⟨_, ?_, sent⟩
          rw [same]
          exact takePacket_frame whole (not_not.1 lost)
      · simp only [dif_neg whole]
        exact takePacket_short whole

theorem Reading.visit_spec (fuel : Nat) (reading : Reading) :
    (reading.visit fuel).1.buffer = (reading.buffer.visit fuel).1 ∧
      ((reading.visit fuel).2.map Offer.frame).Sublist (reading.buffer.visit fuel).2 := by
  induction fuel generalizing reading with
  | zero => exact ⟨rfl, List.Sublist.refl _⟩
  | succ fuel ih =>
      have step := reading.turn_spec
      rw [visit, Buffer.visit]
      cases turned : reading.turn with
      | none =>
          rw [turned] at step
          rw [step]
          exact ⟨rfl, List.Sublist.refl _⟩
      | some next =>
          rw [turned] at step
          obtain ⟨frames, same, sent⟩ := step
          obtain ⟨last, later⟩ := ih next.1
          rw [same]
          refine ⟨last, ?_⟩
          rw [List.map_append]
          exact sent.append later

/-- A read of the stream thread is a read of the packet loop; all but ECM packets
are offered. -/
theorem Buffer.next_read (cipher : Key → List UInt8 → List UInt8) (buffer : Buffer)
    (bytes : List UInt8) (work : Work) (outs : List ExtraOut) :
    (buffer.next cipher (.read bytes work outs)).1 =
        (buffer.read cipher work.reader.keys bytes).1 ∧
      ((buffer.next cipher (.read bytes work outs)).2.map Offer.frame).Sublist
        (buffer.read cipher work.reader.keys bytes).2 := by
  obtain ⟨last, sent⟩ := Reading.visit_spec
    ((buffer.filled cipher work.reader.keys bytes).cells.length + 1)
    ⟨(buffer.filled cipher work.reader.keys bytes).cells, buffer.synced, work, outs⟩
  exact ⟨congrArg Buffer.kept last, sent⟩

/-! ## Finding the alignment -/

/-- Five packets in a row begin here. -/
def AtSync (bytes : List UInt8) : Prop :=
  4 * 188 < bytes.length ∧ ∀ k < 5, octet bytes (188 * k) = 0x47

instance (bytes : List UInt8) : Decidable (AtSync bytes) := inferInstanceAs (Decidable (_ ∧ _))

theorem AtSync.append {bytes : List UInt8} (sync : AtSync bytes) (more : List UInt8) :
    AtSync (bytes ++ more) := by
  refine ⟨Nat.lt_of_lt_of_le sync.1 (by simp), fun k small => ?_⟩
  rw [octet_append (by have := sync.1; omega)]
  exact sync.2 k small

theorem atSync_append {bytes : List UInt8} (long : 4 * 188 < bytes.length) (more : List UInt8) :
    AtSync (bytes ++ more) ↔ AtSync bytes := by
  refine ⟨fun sync => ⟨long, fun k small => ?_⟩, fun sync => sync.append more⟩
  rw [← octet_append (by omega) more]
  exact sync.2 k small

theorem findTsSync_cons (byte : UInt8) (more : List UInt8) : findTsSync (byte :: more) =
    if AtSync (byte :: more) then some 0 else (findTsSync more).map (· + 1) := by
  rw [findTsSync]
  congr 1
  rw [AtSync, List.length_cons, Nat.lt_succ_iff]

/-- Where it is found there are five packets in a row. -/
theorem findTsSync_spec {bytes : List UInt8} {skip : Nat} (found : findTsSync bytes = some skip) :
    AtSync (bytes.drop skip) := by
  induction bytes generalizing skip with
  | nil => exact nomatch found
  | cons byte bytes ih =>
      rw [findTsSync_cons] at found
      split at found
      · rename_i sync
        obtain rfl := Option.some.inj found
        exact sync
      · obtain ⟨later, behind, rfl⟩ := Option.map_eq_some_iff.1 found
        exact ih behind

theorem findTsSync_lt {bytes : List UInt8} {skip : Nat} (found : findTsSync bytes = some skip) :
    skip + 4 * 188 < bytes.length := by
  have long := (findTsSync_spec found).1
  rw [List.length_drop] at long
  omega

/-- More bytes do not change what was found. -/
theorem findTsSync_append {bytes : List UInt8} {skip : Nat} (found : findTsSync bytes = some skip)
    (more : List UInt8) : findTsSync (bytes ++ more) = some skip := by
  induction bytes generalizing skip with
  | nil => exact nomatch found
  | cons byte bytes ih =>
      rw [findTsSync_cons] at found
      rw [List.cons_append, findTsSync_cons, ← List.cons_append]
      split at found
      · rename_i sync
        rw [if_pos (sync.append more), ← found]
      · rename_i apart
        obtain ⟨later, behind, rfl⟩ := Option.map_eq_some_iff.1 found
        have long := findTsSync_lt behind
        have apart' : ¬ AtSync (byte :: bytes ++ more) := by
          rwa [atSync_append (by rw [List.length_cons]; omega)]
        rw [if_neg apart', ih behind, Option.map_some]

/-- Bytes that were searched in vain need not be searched again. -/
theorem findTsSync_drop {bytes : List UInt8} (none_ : findTsSync bytes = none) (more : List UInt8)
    {count : Nat} (searched : count + 4 * 188 ≤ bytes.length) :
    findTsSync (bytes ++ more) = (findTsSync (bytes.drop count ++ more)).map (· + count) := by
  induction count generalizing bytes with
  | zero => simp only [List.drop_zero, Nat.add_zero, Option.map_id']
  | succ count ih =>
      cases bytes with
      | nil => simp at searched
      | cons byte bytes =>
          rw [List.length_cons] at searched
          rw [findTsSync_cons] at none_
          split at none_
          · exact nomatch none_
          rename_i apart
          have apart' : ¬ AtSync (byte :: bytes ++ more) := by
            rwa [atSync_append (by rw [List.length_cons]; omega)]
          have later := ih (Option.map_eq_none_iff.1 none_) (by omega)
          rw [List.cons_append, findTsSync_cons, ← List.cons_append, if_neg apart', later,
            Option.map_map, List.drop_succ_cons]
          rfl

/-! ## One turn -/

/-- The buffer with more bytes behind it. -/
def Buffer.extend (buffer : Buffer) (more : List Cell) : Buffer :=
  ⟨buffer.cells ++ more, buffer.synced⟩

theorem Buffer.alignment_lt {buffer : Buffer} {skip : Nat}
    (aligned : buffer.alignment = some skip) : skip ≤ buffer.cells.length := by
  unfold alignment at aligned
  split at aligned
  · obtain rfl := Option.some.inj aligned
    exact Nat.zero_le _
  · have inside := findTsSync_lt aligned
    rw [List.length_map] at inside
    omega

theorem Buffer.alignment_extend {buffer : Buffer} {skip : Nat}
    (aligned : buffer.alignment = some skip) (more : List Cell) :
    (buffer.extend more).alignment = some skip := by
  unfold alignment extend at *
  split at aligned
  · rename_i synced
    rw [if_pos synced, aligned]
  · rename_i unsynced
    rw [if_neg unsynced, List.map_append]
    exact findTsSync_append aligned _

theorem takePacket_extend {cells : List Cell} {next : Buffer} {frames : List Frame}
    (taken : takePacket cells = some (next, frames)) (more : List Cell) :
    takePacket (cells ++ more) = some (next.extend more, frames) := by
  unfold takePacket at taken
  split at taken
  · rename_i whole
    have longer : 188 ≤ (cells ++ more).length := by
      rw [List.length_append]
      omega
    have first : octet ((cells ++ more).map Cell.byte) 0 = octet (cells.map Cell.byte) 0 := by
      rw [List.map_append, octet_append (by rw [List.length_map]; omega)]
    split at taken
    · rename_i lost
      obtain ⟨rfl, rfl⟩ := Prod.mk.inj (Option.some.inj taken)
      rw [takePacket_lost longer (by rwa [first]), Buffer.extend,
        List.drop_append_of_le_length (by omega)]
    · rename_i sync
      obtain ⟨rfl, rfl⟩ := Prod.mk.inj (Option.some.inj taken)
      rw [takePacket_frame longer (by rw [first]; exact not_not.1 sync), Buffer.extend]
      simp only [List.drop_append_of_le_length whole, List.take_append_of_le_length whole]
  · contradiction

/-- More bytes do not change a turn. -/
theorem Buffer.turn_extend {buffer next : Buffer} {frames : List Frame}
    (turned : buffer.turn = some (next, frames)) (more : List Cell) :
    (buffer.extend more).turn = some (next.extend more, frames) := by
  obtain ⟨skip, aligned, taken⟩ := Option.bind_eq_some_iff.1 turned
  rw [turn, alignment_extend aligned more, Option.bind_some, extend,
    List.drop_append_of_le_length (alignment_lt aligned)]
  exact takePacket_extend taken more

theorem Buffer.turn_shorter {buffer next : Buffer} {frames : List Frame}
    (turned : buffer.turn = some (next, frames)) : next.cells.length < buffer.cells.length := by
  obtain ⟨skip, -, taken⟩ := Option.bind_eq_some_iff.1 turned
  unfold takePacket at taken
  split at taken
  · rename_i whole
    rw [List.length_drop] at whole
    split at taken
    all_goals
      obtain ⟨rfl, -⟩ := Prod.mk.inj (Option.some.inj taken)
      simp only [List.length_drop]
      omega
  · contradiction

/-- Where the loop ends there is less than a packet, or no alignment. -/
theorem Buffer.turn_eq_none {buffer : Buffer} : buffer.turn = none ↔
    if buffer.synced then buffer.cells.length < 188
    else findTsSync (buffer.cells.map Cell.byte) = none := by
  unfold turn alignment
  split
  · rw [Option.bind_some, List.drop_zero, takePacket]
    split
    · rename_i whole
      refine iff_of_false ?_ (by omega)
      split <;> exact Option.some_ne_none _
    · exact iff_of_true rfl (by omega)
  · refine ⟨fun ended => ?_, fun none_ => by rw [none_]; rfl⟩
    cases found : findTsSync (buffer.cells.map Cell.byte) with
    | none => rfl
    | some skip =>
        have inside := findTsSync_lt found
        have sync := (findTsSync_spec found).2 0 (by omega)
        rw [List.length_map] at inside
        rw [← List.map_drop] at sync
        have room : 188 ≤ (buffer.cells.drop skip).length := by rw [List.length_drop]; omega
        rw [found, Option.bind_some, takePacket_frame room sync] at ended
        contradiction

/-! ## The whole loop -/

/-- The loop runs to its end. -/
inductive Buffer.Drains : Buffer → Buffer → List Frame → Prop
  | stop {buffer : Buffer} (ended : buffer.turn = none) : Drains buffer buffer []
  | step {buffer next last : Buffer} {frames later : List Frame}
      (turned : buffer.turn = some (next, frames)) (drains : Drains next last later) :
      Drains buffer last (frames ++ later)

theorem Buffer.Drains.unique {buffer last other : Buffer} {frames extracted : List Frame}
    (drains : Drains buffer last frames) (again : Drains buffer other extracted) :
    last = other ∧ frames = extracted := by
  induction drains generalizing other extracted with
  | stop ended =>
      cases again with
      | stop => exact ⟨rfl, rfl⟩
      | step turned => rw [ended] at turned; exact nomatch turned
  | step turned drains ih =>
      cases again with
      | stop ended => rw [turned] at ended; exact nomatch ended
      | step turned' again =>
          rw [turned] at turned'
          obtain ⟨rfl, rfl⟩ := Prod.mk.inj (Option.some.inj turned')
          obtain ⟨rfl, rfl⟩ := ih again
          exact ⟨rfl, rfl⟩

/-- Enough turns are enough. -/
theorem Buffer.drains_visit {fuel : Nat} {buffer : Buffer} (enough : buffer.cells.length < fuel) :
    Drains buffer (buffer.visit fuel).1 (buffer.visit fuel).2 := by
  induction fuel generalizing buffer with
  | zero => exact absurd enough (Nat.not_lt_zero _)
  | succ fuel ih =>
      rw [visit]
      cases turned : buffer.turn with
      | none => exact .stop turned
      | some step =>
          have shorter := turn_shorter turned
          exact .step turned (ih (by omega))

theorem Buffer.Drains.ended {buffer last : Buffer} {frames : List Frame}
    (drains : Drains buffer last frames) : last.turn = none := by
  induction drains with
  | stop ended => exact ended
  | step _ _ ih => exact ih

/-- The bytes between two reads are fewer than the search looks at. -/
def Buffer.Settled (buffer : Buffer) : Prop :=
  buffer.cells.length ≤ 4 * 188 ∧ (buffer.synced = true → buffer.cells.length < 188)

theorem Buffer.settled_carried {last : Buffer} (ended : last.turn = none) :
    Settled ⟨last.carried, last.synced⟩ := by
  rw [turn_eq_none] at ended
  unfold carried
  split at ended
  · rename_i synced
    rw [if_neg (by rw [synced]; exact fun both => Bool.false_ne_true both.1)]
    exact ⟨by simp only; omega, fun _ => ended⟩
  · rename_i unsynced
    refine ⟨?_, fun synced => absurd synced unsynced⟩
    split
    · simp only [List.length_drop]
      omega
    · rename_i few
      have short : ¬ 4 * 188 < last.cells.length := fun long => few ⟨by simpa using unsynced, long⟩
      simp only
      omega

/-- The defensive reset never fires. -/
theorem Buffer.kept_eq {last : Buffer} (ended : last.turn = none) :
    last.kept = ⟨last.carried, last.synced⟩ := by
  have settled := (settled_carried ended).1
  rw [kept, if_neg (by simp only at settled; omega)]

theorem Buffer.Settled.ended {buffer : Buffer} (settled : buffer.Settled) : buffer.turn = none := by
  rw [turn_eq_none]
  split
  · rename_i synced
    exact settled.2 synced
  · cases found : findTsSync (buffer.cells.map Cell.byte) with
    | none => rfl
    | some skip =>
        have long := findTsSync_lt found
        have short := settled.1
        rw [List.length_map] at long
        omega

theorem Buffer.Settled.carried {buffer : Buffer} (settled : buffer.Settled) :
    buffer.carried = buffer.cells := by
  have short := settled.1
  rw [Buffer.carried, if_neg (by omega)]

/-! ## Taking up again -/

theorem Buffer.carried_synced (cells : List Cell) : carried ⟨cells, true⟩ = cells :=
  if_neg fun both => Bool.false_ne_true both.1

theorem Buffer.carried_unsynced (cells : List Cell) :
    carried ⟨cells, false⟩ = cells.drop (cells.length - 4 * 188) := by
  unfold carried
  split
  · rfl
  · rename_i few
    have short : ¬ 4 * 188 < cells.length := fun long => few ⟨rfl, long⟩
    rw [Nat.sub_eq_zero_of_le (by omega), List.drop_zero]

section Resume

variable {cells more : List Cell} {buffer last : Buffer} {frames later : List Frame}

/-- Bytes that were searched in vain and given up make no difference. -/
theorem Buffer.Drains.undrop {count : Nat} (none_ : findTsSync (cells.map Cell.byte) = none)
    (searched : count + 4 * 188 ≤ cells.length)
    (drains : Drains ⟨cells.drop count ++ more, false⟩ last frames) :
    ∃ whole, Drains ⟨cells ++ more, false⟩ whole frames ∧
      whole.synced = last.synced ∧ whole.carried = last.carried := by
  have joined : cells.drop count ++ more = (cells ++ more).drop count :=
    (List.drop_append_of_le_length (by omega)).symm
  have search : findTsSync ((cells ++ more).map Cell.byte) =
      (findTsSync ((cells.drop count ++ more).map Cell.byte)).map (· + count) := by
    rw [List.map_append, List.map_append, List.map_drop]
    exact findTsSync_drop none_ _ (by rwa [List.length_map])
  cases drains with
  | stop ended =>
      have nowhere : findTsSync ((cells.drop count ++ more).map Cell.byte) = none :=
        turn_eq_none.1 ended
      have nowhere' : findTsSync ((cells ++ more).map Cell.byte) = none := by
        rw [search, nowhere, Option.map_none]
      refine ⟨⟨cells ++ more, false⟩, .stop (turn_eq_none.2 nowhere'), rfl, ?_⟩
      rw [carried_unsynced, carried_unsynced, joined, List.drop_drop, List.length_drop,
        List.length_append]
      refine congrArg (List.drop · (cells ++ more)) ?_
      omega
  | step turned drains =>
      obtain ⟨skip, aligned, taken⟩ := Option.bind_eq_some_iff.1 turned
      have aligned' : alignment ⟨cells ++ more, false⟩ = some (skip + count) := by
        have found : findTsSync ((cells.drop count ++ more).map Cell.byte) = some skip := aligned
        exact search.trans (by rw [found, Option.map_some])
      rw [joined, List.drop_drop, Nat.add_comm] at taken
      exact ⟨last, .step (Option.bind_eq_some_iff.2 ⟨_, aligned', taken⟩) drains, rfl, rfl⟩

/-- Reading on after a carry is reading on in the whole buffer. -/
theorem Buffer.Drains.resume {final : Buffer} (drains : Drains buffer last frames)
    (again : Drains ⟨last.carried ++ more, last.synced⟩ final later) :
    ∃ whole, Drains (buffer.extend more) whole (frames ++ later) ∧
      whole.synced = final.synced ∧ whole.carried = final.carried := by
  induction drains with
  | @stop buffer ended =>
      obtain ⟨cells, synced⟩ := buffer
      rw [List.nil_append]
      cases synced with
      | true =>
          rw [carried_synced] at again
          exact ⟨final, again, rfl, rfl⟩
      | false =>
          rw [carried_unsynced] at again
          by_cases long : 4 * 188 ≤ cells.length
          · have searched : cells.length - 4 * 188 + 4 * 188 ≤ cells.length := by omega
            exact again.undrop (turn_eq_none.1 ended) searched
          · have all : cells.length - 4 * 188 = 0 := by omega
            rw [all, List.drop_zero] at again
            exact ⟨final, again, rfl, rfl⟩
  | step turned _ ih =>
      obtain ⟨whole, drains, same⟩ := ih again
      rw [List.append_assoc]
      exact ⟨whole, .step (turn_extend turned more) drains, same⟩

end Resume

/-! ## The reads -/

section Reads

variable (cipher : Key → List UInt8 → List UInt8) {ring : Keyring}

theorem Buffer.drains_looped (ring : Keyring) (buffer : Buffer) (bytes : List UInt8) :
    Drains (buffer.filled cipher ring bytes) (buffer.looped cipher ring bytes).1
      (buffer.looped cipher ring bytes).2 :=
  drains_visit (Nat.lt_succ_self _)

theorem Buffer.read_of_drains {buffer last : Buffer} {bytes : List UInt8} {frames : List Frame}
    (drains : Drains (buffer.filled cipher ring bytes) last frames) :
    buffer.read cipher ring bytes = (⟨last.carried, last.synced⟩, frames) := by
  obtain ⟨same, frames_⟩ := (drains_looped cipher ring buffer bytes).unique drains
  rw [read, same, frames_, kept_eq drains.ended]

theorem Buffer.filled_keyless (keyless : ring.decrypts = false) (buffer : Buffer)
    (bytes : List UInt8) :
    buffer.filled cipher ring bytes = buffer.extend (bytes.map Cell.received) := by
  rw [filled, Keyring.decryptRead, keyless, extend]
  rfl

/-- Without a key the loop may be interrupted anywhere. -/
theorem resumes_read (keyless : ring.decrypts = false) :
    Resumes (Buffer.read cipher ring) Buffer.Settled where
  settles buffer bytes _ := by
    have drains := buffer.drains_looped cipher ring bytes
    rw [Buffer.read_of_drains cipher drains]
    exact Buffer.settled_carried drains.ended
  nothing buffer settled := by
    have same : buffer.filled cipher ring [] = buffer := by
      rw [Buffer.filled_keyless cipher keyless, Buffer.extend, List.map_nil, List.append_nil]
    have drains : Buffer.Drains (buffer.filled cipher ring []) buffer [] := by
      rw [same]
      exact .stop settled.ended
    rw [Buffer.read_of_drains cipher drains, settled.carried]
  append buffer front back _ := by
    have first := buffer.drains_looped cipher ring front
    have here := Buffer.read_of_drains cipher first
    have second := (buffer.read cipher ring front).1.drains_looped cipher ring back
    have there := Buffer.read_of_drains cipher second
    rw [Buffer.filled_keyless cipher keyless] at first second
    rw [here] at second
    obtain ⟨whole, drains, synced, carried⟩ := first.resume second
    have both : Buffer.Drains (buffer.filled cipher ring (front ++ back)) whole
        ((buffer.looped cipher ring front).2 ++
          ((buffer.read cipher ring front).1.looped cipher ring back).2) := by
      rw [Buffer.filled_keyless cipher keyless, List.map_append, here]
      simpa only [Buffer.extend, List.append_assoc] using drains
    rw [Buffer.read_of_drains cipher both, synced, carried, there, here]

/-- However the stream is cut into reads, the same packets are extracted; and the
pending bytes never exceed the spare ones of the buffer, so that the defensive
reset never fires. -/
theorem packets_independent_of_reads (keyless : ring.decrypts = false)
    {reads others : List (List UInt8)} (same : reads.flatten = others.flatten) :
    (inPieces (Buffer.read cipher ring) .empty reads).2 =
        (inPieces (Buffer.read cipher ring) .empty others).2 ∧
      ∀ before bytes, before ++ [bytes] <+: reads →
        ((inPieces (Buffer.read cipher ring) .empty before).1.looped cipher ring
          bytes).1.carried.length ≤ 5 * 188 := by
  have resumes := resumes_read cipher keyless
  have settled : Buffer.empty.Settled := ⟨Nat.zero_le _, nofun⟩
  refine ⟨by rw [resumes.inPieces_congr settled same], fun before bytes _ => ?_⟩
  have drains :=
    (inPieces (Buffer.read cipher ring) .empty before).1.drains_looped cipher ring bytes
  have few := (Buffer.settled_carried drains.ended).1
  simp only at few
  omega

end Reads

/-- Six packets at once, and cut within the second and the fourth. -/
theorem packets_independent_of_reads_cut :
    let bytes := (List.replicate 6 (emptyPacket 0x20)).flatten
    (inPieces (Buffer.read unused .create) .empty [bytes]).2 =
      (inPieces (Buffer.read unused .create) .empty
        [bytes.take 300, (bytes.drop 300).take 300, (bytes.drop 300).drop 300]).2 :=
  (packets_independent_of_reads unused rfl (by
    simp only [List.flatten_cons, List.flatten_nil, List.append_nil,
      List.take_append_drop])).1

end Stream
