import Mathlib.Data.PNat.Basic
import UsbDvbs2.Bytes.Queued
import UsbDvbs2.Stream.Descrambler

/-! # Descrambling in batches

`dtv_csa_decrypt_run` sorts the payloads of a run of packets into a batch for each parity and
hands a batch to libdvbcsa when it is full. The headers are edited as the packets are passed.
-/

namespace Stream

open Camd Memory

/-- The batch of a parity. -/
def Csa.ofParity (csa : Csa) (odd : Bool) : Batch := if odd then csa.odd else csa.even

/-- The scrambling bits are cleared. -/
def unflag (memory : Space UInt8) (packet : Nat) : Space UInt8 :=
  store memory (packet + 3) #v[memory (packet + 3) &&& 0x3f]

/-- A run under way: memory, the slots in use of the even and of the odd batch, and how many
payloads were queued. -/
structure CsaRun where
  memory : Space UInt8
  slots : Bool → List Segment
  decrypted : Nat

def CsaRun.start (memory : Space UInt8) : CsaRun :=
  { memory := memory, slots := fun _ => [], decrypted := 0 }

section Code

variable (bsDecrypt : Key → Space UInt8 → List Segment → Nat → Space UInt8) (batchSize : ℕ+)
  (csa : Csa)

/-- The run with a payload put into its batch. -/
def CsaRun.queued (run : CsaRun) (packet : Nat) (odd : Bool) (offset : Nat) : CsaRun where
  memory := unflag run.memory packet
  slots := Function.update run.slots odd (run.slots odd ++ [⟨packet + offset, 188 - offset⟩])
  decrypted := run.decrypted + 1

/-- `batch_flush`; `bsDecrypt` is given the key, the slots and the longest length. -/
def CsaRun.batchFlush (run : CsaRun) (odd : Bool) : CsaRun :=
  if run.slots odd = [] then run
  else
    { run with
      memory := bsDecrypt (csa.ofParity odd).key run.memory (run.slots odd) 184
      slots := Function.update run.slots odd [] }

/-- The payload of a packet, from an offset on, goes to a batch. -/
def CsaRun.queue (run : CsaRun) (packet : Nat) (odd : Bool) (offset : Nat) : CsaRun :=
  let queued := run.queued packet odd offset
  if (queued.slots odd).length ≥ batchSize then queued.batchFlush bsDecrypt csa odd else queued

/-- A turn of the loop of `dtv_csa_decrypt_run`, at the address of a packet. -/
def CsaRun.visit (run : CsaRun) (packet : Nat) : CsaRun :=
  let scrambling := (run.memory (packet + 3)).toNat / 64
  let adaptation := (run.memory (packet + 3)).toNat / 16 % 4
  let odd : Bool := scrambling % 2 = 1
  if run.memory packet ≠ 0x47 ∨ scrambling < 2 then run
  else if (csa.ofParity odd).valid = false then run
  else if adaptation = 1 then run.queue bsDecrypt batchSize csa packet odd 4
  else if adaptation = 3 then
    if 5 + (run.memory (packet + 4)).toNat ≥ 188 then
      { run with memory := unflag run.memory packet }
    else run.queue bsDecrypt batchSize csa packet odd (5 + (run.memory (packet + 4)).toNat)
  else { run with memory := unflag run.memory packet }

def csaDecryptRun (memory : Space UInt8) (packets count : Nat) : CsaRun :=
  let filled := (List.range count).foldl
    (fun (run : CsaRun) index => run.visit bsDecrypt batchSize csa (packets + index * 188))
    (CsaRun.start memory)
  (filled.batchFlush bsDecrypt csa false).batchFlush bsDecrypt csa true

end Code

/-! ## Packet by packet -/

/-- What is to be done with a packet. -/
inductive Fate where
  | untouched
  | unflagged
  | payload (odd : Bool) (offset : Nat)
  deriving DecidableEq

def Fate.decrypts : Fate → Bool
  | .payload _ _ => true
  | _ => false

/-- Where the payload begins that the adaptation field control speaks of. -/
def payloadStart (memory : Space UInt8) (packet : Nat) : Nat :=
  if (memory (packet + 3)).toNat / 16 % 4 = 1 then 4 else 5 + (memory (packet + 4)).toNat

/-- A packet that is scrambled with a key that is known: its payload, if it has one. -/
def fate (csa : Csa) (memory : Space UInt8) (packet : Nat) : Fate :=
  let scrambling := (memory (packet + 3)).toNat / 64
  let adaptation := (memory (packet + 3)).toNat / 16 % 4
  let odd : Bool := scrambling % 2 = 1
  let offset := payloadStart memory packet
  if memory packet = 0x47 ∧ 2 ≤ scrambling ∧ (csa.ofParity odd).valid then
    if (adaptation = 1 ∨ adaptation = 3) ∧ offset < 188 then .payload odd offset else .unflagged
  else .untouched

section Spec

variable (decrypt : Key → (n : Nat) → Vector UInt8 n → Vector UInt8 n) (csa : Csa)

/-- A packet decrypted alone: its payload, with the key of its parity, and no scrambling bits. -/
def alone (memory : Space UInt8) (packet : Nat) : Space UInt8 :=
  match fate csa memory packet with
  | .untouched => memory
  | .unflagged => unflag memory packet
  | .payload odd offset =>
      store (unflag memory packet) (packet + offset)
        (decrypt (csa.ofParity odd).key (188 - offset)
          (load (188 - offset) (unflag memory packet) (packet + offset)))

def aloneRun (memory : Space UInt8) (packets count : Nat) : Space UInt8 :=
  (List.range count).foldl (fun memory index => alone decrypt csa memory (packets + index * 188))
    memory

end Spec

/-- What libdvbcsa does with at most as many slots as a batch has, each no longer than it is
told: it decrypts each of them, and touches nothing else. -/
structure Decrypts (decrypt : Key → (n : Nat) → Vector UInt8 n → Vector UInt8 n)
    (bsDecrypt : Key → Space UInt8 → List Segment → Nat → Space UInt8) (batchSize : ℕ+) : Prop where
  each : ∀ key memory (slots : List Segment) longest, slots.length ≤ batchSize →
    slots.Pairwise Segment.Apart → (∀ slot ∈ slots, slot.len ≤ longest) → ∀ slot ∈ slots,
    load slot.len (bsDecrypt key memory slots longest) slot.data =
      decrypt key slot.len (load slot.len memory slot.data)
  rest : ∀ key memory (slots : List Segment) longest, slots.length ≤ batchSize →
    slots.Pairwise Segment.Apart → (∀ slot ∈ slots, slot.len ≤ longest) →
    ∀ address, (∀ slot ∈ slots, ¬ slot.Covers address) →
      bsDecrypt key memory slots longest address = memory address

/-! ## A packet on its own -/

section Alone

variable {decrypt : Key → (n : Nat) → Vector UInt8 n → Vector UInt8 n} {csa : Csa}
  {memory : Space UInt8} {packet : Nat}

theorem fate_congr {other : Space UInt8}
    (same : ∀ i < 188, memory (packet + i) = other (packet + i)) :
    fate csa memory packet = fate csa other packet := by
  have sync : memory packet = other packet := same 0 (by decide)
  unfold fate payloadStart
  rw [sync, same 3 (by decide), same 4 (by decide)]

theorem fate_payload {odd : Bool} {offset : Nat}
    (payload : fate csa memory packet = .payload odd offset) : 4 ≤ offset ∧ offset < 188 := by
  unfold fate at payload
  dsimp only at payload
  split at payload
  · split at payload
    · rename_i fits
      obtain ⟨-, rfl⟩ := Fate.payload.inj payload
      refine ⟨?_, fits.2⟩
      unfold payloadStart
      split <;> omega
    · exact nomatch payload
  · exact nomatch payload

theorem unflag_outside {address : Nat} (outside : address ≠ packet + 3) :
    unflag memory packet address = memory address :=
  store_outside _ _ (by omega)

theorem unflag_here : unflag memory packet (packet + 3) = memory (packet + 3) &&& 0x3f :=
  store_inside _ (packet + 3) _ (i := 0) (by decide)

/-- A packet alone changes no byte of another. -/
theorem alone_outside {address : Nat} (outside : address < packet ∨ packet + 188 ≤ address) :
    alone decrypt csa memory packet address = memory address := by
  unfold alone
  cases fated : fate csa memory packet with
  | untouched => rfl
  | unflagged => exact unflag_outside (by omega)
  | payload odd offset =>
      have bounds := fate_payload fated
      exact (store_outside _ _ (by omega)).trans (unflag_outside (by omega))

/-- The packet is left alone when it is met again. -/
theorem fate_alone : fate csa (alone decrypt csa memory packet) packet = .untouched := by
  have cleared (after : Space UInt8)
      (header : after (packet + 3) = memory (packet + 3) &&& 0x3f) :
      fate csa after packet = .untouched := by
    have low : (after (packet + 3)).toNat / 64 = 0 := by
      rw [header, UInt8.toNat_and]
      exact Nat.div_eq_of_lt (Nat.lt_of_le_of_lt Nat.and_le_right (by decide))
    unfold fate
    dsimp only
    rw [low]
    exact if_neg fun scrambled => absurd scrambled.2.1 (by decide)
  unfold alone
  cases fated : fate csa memory packet with
  | untouched => exact fated
  | unflagged => exact cleared _ unflag_here
  | payload odd offset =>
      have bounds := fate_payload fated
      exact cleared _ ((store_outside _ _ (by omega)).trans unflag_here)

theorem alone_untouched (untouched : fate csa memory packet = .untouched) :
    alone decrypt csa memory packet = memory := by
  rw [alone, untouched]

end Alone

section Runs

variable {decrypt : Key → (n : Nat) → Vector UInt8 n → Vector UInt8 n} {csa : Csa}
  {memory : Space UInt8} {packets : Nat}

theorem aloneRun_succ (count : Nat) :
    aloneRun decrypt csa memory packets (count + 1) =
      alone decrypt csa (aloneRun decrypt csa memory packets count) (packets + count * 188) := by
  rw [aloneRun, List.range_succ, List.foldl_append]
  rfl

/-- What follows the packets of a run, or lies before them, is not touched. -/
theorem aloneRun_outside (count : Nat) {address : Nat}
    (outside : address < packets ∨ packets + count * 188 ≤ address) :
    aloneRun decrypt csa memory packets count address = memory address := by
  induction count with
  | zero => rfl
  | succ count ih => rw [aloneRun_succ, alone_outside (by omega), ih (by omega)]

/-- Later packets do not change what was made of earlier ones. -/
theorem aloneRun_before {first : Nat} (more : Nat) {address : Nat}
    (before : address < packets + first * 188) :
    aloneRun decrypt csa memory packets (first + more) address =
      aloneRun decrypt csa memory packets first address := by
  induction more with
  | zero => rfl
  | succ more ih => rw [← Nat.add_assoc, aloneRun_succ, alone_outside (by omega), ih]

theorem fate_aloneRun (count : Nat) :
    fate csa (aloneRun decrypt csa memory packets count) (packets + count * 188) =
      fate csa memory (packets + count * 188) :=
  fate_congr fun i _ => aloneRun_outside count (by omega)

/-- After the run every packet of it is left alone. -/
theorem fate_after {count index : Nat} (inside : index < count) :
    fate csa (aloneRun decrypt csa memory packets count) (packets + index * 188) =
      .untouched := by
  obtain ⟨more, rfl⟩ := Nat.exists_eq_add_of_lt inside
  rw [Nat.add_right_comm]
  have same : fate csa (aloneRun decrypt csa memory packets (index + 1 + more))
      (packets + index * 188) =
      fate csa (aloneRun decrypt csa memory packets (index + 1)) (packets + index * 188) :=
    fate_congr fun i _ => aloneRun_before more (by omega)
  rw [same, aloneRun_succ, fate_alone]

theorem aloneRun_again {count : Nat}
    (untouched : ∀ index < count, fate csa memory (packets + index * 188) = .untouched) :
    aloneRun decrypt csa memory packets count = memory := by
  induction count with
  | zero => rfl
  | succ count ih =>
      rw [aloneRun_succ, ih fun index inside => untouched index (Nat.lt_succ_of_lt inside),
        alone_untouched (untouched count (Nat.lt_succ_self count))]

end Runs

/-! ## Batches -/

section Batches

variable {decrypt : Key → (n : Nat) → Vector UInt8 n → Vector UInt8 n}
  {bsDecrypt : Key → Space UInt8 → List Segment → Nat → Space UInt8} {batchSize : ℕ+} {csa : Csa}

/-- A turn of the loop, by the fate of its packet. -/
theorem visit_eq (run : CsaRun) (packet : Nat) :
    run.visit bsDecrypt batchSize csa packet =
      match fate csa run.memory packet with
      | .untouched => run
      | .unflagged => { run with memory := unflag run.memory packet }
      | .payload odd offset => run.queue bsDecrypt batchSize csa packet odd offset := by
  by_cases known : run.memory packet = 0x47 ∧ 2 ≤ (run.memory (packet + 3)).toNat / 64 ∧
      (csa.ofParity ((run.memory (packet + 3)).toNat / 64 % 2 = 1)).valid = true
  · have fated : fate csa run.memory packet = _ := if_pos known
    have valid : ¬ (csa.ofParity ((run.memory (packet + 3)).toNat / 64 % 2 = 1)).valid = false :=
      fun unknown => absurd (unknown.symm.trans known.2.2) Bool.false_ne_true
    have scrambled : ¬ (run.memory packet ≠ 0x47 ∨ (run.memory (packet + 3)).toNat / 64 < 2) :=
      not_or.mpr ⟨not_not_intro known.1, Nat.not_lt.mpr known.2.1⟩
    rw [fated, CsaRun.visit, if_neg scrambled, if_neg valid, payloadStart]
    by_cases plain : (run.memory (packet + 3)).toNat / 16 % 4 = 1
    · rw [if_pos plain, if_pos plain, if_pos ⟨.inl plain, by decide⟩]
    · rw [if_neg plain, if_neg plain]
      by_cases adapted : (run.memory (packet + 3)).toNat / 16 % 4 = 3
      · rw [if_pos adapted]
        by_cases filled : 5 + (run.memory (packet + 4)).toNat ≥ 188
        · rw [if_pos filled, if_neg fun fits => absurd fits.2 (Nat.not_lt.mpr filled)]
        · rw [if_neg filled, if_pos ⟨.inr adapted, Nat.lt_of_not_le filled⟩]
      · rw [if_neg adapted, if_neg fun fits => fits.1.elim plain adapted]
  · have fated : fate csa run.memory packet = .untouched := if_neg known
    rw [fated, CsaRun.visit]
    split
    · rfl
    · rename_i scrambled
      obtain ⟨sync, bits⟩ := not_or.mp scrambled
      refine if_pos (Bool.eq_false_iff.mpr fun valid => known ?_)
      exact ⟨not_not.mp sync, Nat.le_of_not_lt bits, valid⟩

/-- What the slots of the two batches wait for. -/
abbrev waitingWork (decrypt : Key → (n : Nat) → Vector UInt8 n → Vector UInt8 n) (csa : Csa)
    (odd : Bool) : (n : Nat) → Vector UInt8 n → Vector UInt8 n :=
  decrypt (csa.ofParity odd).key

/-- The slots lie below the packets still to come, and memory settles to what decrypting the
packets alone has made of it. -/
structure CsaRun.Tracks (run : CsaRun) (decrypt : Key → (n : Nat) → Vector UInt8 n → Vector UInt8 n)
    (csa : Csa) (target : Space UInt8) (limit : Nat) : Prop where
  settles : Settles (waitingWork decrypt csa) run.slots run.memory target
  separate : Separate run.slots
  below : ∀ odd, ∀ slot ∈ run.slots odd, slot.data + slot.len ≤ limit
  short : ∀ odd, ∀ slot ∈ run.slots odd, slot.len ≤ 184

variable {run : CsaRun} {target : Space UInt8} {limit : Nat}

namespace CsaRun.Tracks

/-- Behind the packets that were passed, everything is free. -/
theorem free (tracks : run.Tracks decrypt csa target limit) {start n : Nat}
    (behind : limit ≤ start) : Free run.slots ⟨start, n⟩ :=
  fun odd slot listed => .inl (Nat.le_trans (tracks.below odd slot listed) behind)

theorem same (tracks : run.Tracks decrypt csa target limit) {address : Nat}
    (behind : limit ≤ address) : target address = run.memory address := by
  have covers : Segment.Covers ⟨limit, address - limit + 1⟩ address := by
    refine ⟨behind, ?_⟩
    change address < limit + (address - limit + 1)
    omega
  exact tracks.settles.at_free (tracks.free (Nat.le_refl limit)) covers

theorem unflag (tracks : run.Tracks decrypt csa target limit) :
    CsaRun.Tracks { run with memory := Stream.unflag run.memory limit } decrypt csa
      (Stream.unflag target limit) limit where
  settles := by
    unfold Stream.unflag
    rw [tracks.same (Nat.le_add_right limit 3)]
    exact tracks.settles.both _ (tracks.free (Nat.le_add_right limit 3))
  separate := tracks.separate
  below := tracks.below
  short := tracks.short

theorem mono (tracks : run.Tracks decrypt csa target limit) {further : Nat}
    (later : limit ≤ further) : run.Tracks decrypt csa target further where
  settles := tracks.settles
  separate := tracks.separate
  below odd slot listed := Nat.le_trans (tracks.below odd slot listed) later
  short := tracks.short

/-- A payload behind all that waits may wait as well. -/
theorem queued (tracks : run.Tracks decrypt csa target limit) (odd : Bool) {offset : Nat}
    (bounds : 4 ≤ offset ∧ offset < 188) :
    (run.queued limit odd offset).Tracks decrypt csa
      (store (Stream.unflag target limit) (limit + offset)
        (decrypt (csa.ofParity odd).key (188 - offset)
          (load (188 - offset) (Stream.unflag target limit) (limit + offset)))) (limit + 188) := by
  have cleared := tracks.unflag
  have free : Free run.slots ⟨limit + offset, 188 - offset⟩ :=
    tracks.free (Nat.le_add_right limit offset)
  have source : load (188 - offset) (Stream.unflag target limit) (limit + offset) =
      load (188 - offset) (Stream.unflag run.memory limit) (limit + offset) :=
    load_congr fun i _ => cleared.same (by omega)
  rw [source]
  refine ⟨cleared.settles.enqueue odd free, tracks.separate.enqueue odd free, ?_, ?_⟩
  · intro other slot listed
    have later := tracks.mono (Nat.le_add_right limit 188)
    rcases mem_update listed with ⟨rfl, there⟩ | ⟨-, there⟩
    · rcases List.mem_append.mp there with old | new
      · exact later.below _ slot old
      · obtain rfl := List.mem_singleton.mp new
        change limit + offset + (188 - offset) ≤ limit + 188
        omega
    · exact later.below _ slot there
  · intro other slot listed
    rcases mem_update listed with ⟨rfl, there⟩ | ⟨-, there⟩
    · rcases List.mem_append.mp there with old | new
      · exact tracks.short _ slot old
      · obtain rfl := List.mem_singleton.mp new
        change 188 - offset ≤ 184
        omega
    · exact tracks.short _ slot there

/-- Handing a batch to the library brings its slots to the target. -/
theorem batchFlush (tracks : run.Tracks decrypt csa target limit)
    (meets : Decrypts decrypt bsDecrypt batchSize) (odd : Bool)
    (fits : (run.slots odd).length ≤ batchSize) :
    (run.batchFlush bsDecrypt csa odd).Tracks decrypt csa target limit := by
  unfold CsaRun.batchFlush
  split
  · exact tracks
  · have done := meets.each (csa.ofParity odd).key run.memory (run.slots odd) 184 fits
      (tracks.separate.own odd) (tracks.short odd)
    have rest := meets.rest (csa.ofParity odd).key run.memory (run.slots odd) 184 fits
      (tracks.separate.own odd) (tracks.short odd)
    refine ⟨tracks.settles.flush tracks.separate odd done rest, tracks.separate.flush odd, ?_, ?_⟩
    · intro other slot listed
      rcases mem_update listed with ⟨-, there⟩ | ⟨-, there⟩
      · exact nomatch there
      · exact tracks.below other slot there
    · intro other slot listed
      rcases mem_update listed with ⟨-, there⟩ | ⟨-, there⟩
      · exact nomatch there
      · exact tracks.short other slot there

end CsaRun.Tracks

theorem length_slots_queued (run : CsaRun) (packet : Nat) (odd : Bool) (offset : Nat) :
    ((run.queued packet odd offset).slots odd).length = (run.slots odd).length + 1 := by
  change (Function.update run.slots odd _ odd).length = _
  rw [Function.update_self, List.length_append, List.length_singleton]

theorem slots_queued_of_ne (run : CsaRun) (packet offset : Nat) {odd other : Bool}
    (differs : other ≠ odd) : (run.queued packet odd offset).slots other = run.slots other :=
  Function.update_of_ne differs ..

theorem slots_batchFlush (run : CsaRun) (odd other : Bool) :
    (run.batchFlush bsDecrypt csa odd).slots other =
      if other = odd then [] else run.slots other := by
  unfold CsaRun.batchFlush
  split
  · rename_i idle
    split
    · rename_i own
      rw [own, idle]
    · rfl
  · split
    · rename_i own
      rw [own]
      exact Function.update_self ..
    · exact Function.update_of_ne ‹_› ..

theorem decrypted_batchFlush (run : CsaRun) (odd : Bool) :
    (run.batchFlush bsDecrypt csa odd).decrypted = run.decrypted := by
  unfold CsaRun.batchFlush
  split <;> rfl

/-- Between two packets there is room in both batches. -/
def CsaRun.Roomy (run : CsaRun) (batchSize : ℕ+) : Prop :=
  ∀ odd, (run.slots odd).length < batchSize

/-- A payload that joins its batch, which is handed on when that fills it. -/
theorem queue_tracks (meets : Decrypts decrypt bsDecrypt batchSize)
    (tracks : run.Tracks decrypt csa target limit) (roomy : run.Roomy batchSize) {odd : Bool}
    {offset : Nat} (bounds : 4 ≤ offset ∧ offset < 188) :
    (run.queue bsDecrypt batchSize csa limit odd offset).Tracks decrypt csa
        (store (unflag target limit) (limit + offset)
          (decrypt (csa.ofParity odd).key (188 - offset)
            (load (188 - offset) (unflag target limit) (limit + offset)))) (limit + 188) ∧
      (run.queue bsDecrypt batchSize csa limit odd offset).Roomy batchSize ∧
      (run.queue bsDecrypt batchSize csa limit odd offset).decrypted = run.decrypted + 1 := by
  have queued := tracks.queued odd bounds
  have size := length_slots_queued run limit odd offset
  have room := roomy odd
  unfold CsaRun.queue
  dsimp only
  split
  · refine ⟨queued.batchFlush meets odd (by rw [size]; exact room), fun other => ?_,
      decrypted_batchFlush _ odd⟩
    rw [slots_batchFlush]
    split
    · exact batchSize.pos
    · rename_i differs
      rw [slots_queued_of_ne run limit offset differs]
      exact roomy other
  · rename_i spare
    refine ⟨queued, fun other => ?_, rfl⟩
    by_cases own : other = odd
    · subst own
      exact Nat.lt_of_not_le spare
    · rw [slots_queued_of_ne run limit offset own]
      exact roomy other

/-- A turn of the loop does, in the end, what decrypting its packet alone does. -/
theorem visit_tracks (meets : Decrypts decrypt bsDecrypt batchSize)
    (tracks : run.Tracks decrypt csa target limit) (roomy : run.Roomy batchSize) :
    (run.visit bsDecrypt batchSize csa limit).Tracks decrypt csa (alone decrypt csa target limit)
        (limit + 188) ∧
      (run.visit bsDecrypt batchSize csa limit).Roomy batchSize ∧
      (run.visit bsDecrypt batchSize csa limit).decrypted =
        run.decrypted + if (fate csa target limit).decrypts then 1 else 0 := by
  have seen : fate csa run.memory limit = fate csa target limit :=
    fate_congr fun i _ => (tracks.same (Nat.le_add_right limit i)).symm
  rw [visit_eq, alone, seen]
  cases fated : fate csa target limit with
  | untouched => exact ⟨tracks.mono (Nat.le_add_right limit 188), roomy, rfl⟩
  | unflagged => exact ⟨tracks.unflag.mono (Nat.le_add_right limit 188), roomy, rfl⟩
  | payload odd offset => exact queue_tracks meets tracks roomy (fate_payload fated)

/-- The run of the loop over the first packets. -/
theorem run_tracks (meets : Decrypts decrypt bsDecrypt batchSize) (memory : Space UInt8)
    (packets count : Nat) :
    let filled := (List.range count).foldl
      (fun (run : CsaRun) index => run.visit bsDecrypt batchSize csa (packets + index * 188))
      (CsaRun.start memory)
    filled.Tracks decrypt csa (aloneRun decrypt csa memory packets count)
        (packets + count * 188) ∧
      filled.Roomy batchSize ∧
      filled.decrypted = ((List.range count).filter fun index =>
        (fate csa memory (packets + index * 188)).decrypts).length := by
  induction count with
  | zero => exact ⟨⟨.start, .start, nofun, nofun⟩, fun _ => batchSize.pos, rfl⟩
  | succ count ih =>
      obtain ⟨tracks, roomy, decrypted⟩ := ih
      obtain ⟨next, room, more⟩ := visit_tracks meets tracks roomy
      rw [fate_aloneRun, decrypted] at more
      rw [aloneRun_succ, List.range_succ, List.foldl_append, List.filter_append,
        List.length_append, Nat.succ_mul, ← Nat.add_assoc]
      refine ⟨next, room, more.trans (congrArg _ ?_)⟩
      rw [List.filter_singleton]
      split <;> simp [*]

end Batches

/-- Descrambling in batches leaves what descrambling every packet alone leaves, counts the
payloads, leaves the batches empty and has nothing to do a second time. -/
theorem csaDecryptRun_alone {decrypt : Key → (n : Nat) → Vector UInt8 n → Vector UInt8 n}
    {bsDecrypt : Key → Space UInt8 → List Segment → Nat → Space UInt8} {batchSize : ℕ+}
    (meets : Decrypts decrypt bsDecrypt batchSize) (csa : Csa) (memory : Space UInt8)
    (packets count : Nat) :
    let done := csaDecryptRun bsDecrypt batchSize csa memory packets count
    done.memory = aloneRun decrypt csa memory packets count ∧
      done.decrypted = ((List.range count).filter fun index =>
        (fate csa memory (packets + index * 188)).decrypts).length ∧
      (∀ odd, done.slots odd = []) ∧
      (csaDecryptRun bsDecrypt batchSize csa done.memory packets count).memory = done.memory := by
  have leaves (memory : Space UInt8) :
      (csaDecryptRun bsDecrypt batchSize csa memory packets count).memory =
          aloneRun decrypt csa memory packets count ∧
        (csaDecryptRun bsDecrypt batchSize csa memory packets count).decrypted =
          ((List.range count).filter fun index =>
            (fate csa memory (packets + index * 188)).decrypts).length ∧
        ∀ odd, (csaDecryptRun bsDecrypt batchSize csa memory packets count).slots odd = [] := by
    obtain ⟨tracks, roomy, decrypted⟩ := @run_tracks _ _ _ csa meets memory packets count
    have even := tracks.batchFlush meets false (Nat.le_of_lt (roomy false))
    have both := even.batchFlush meets true (by
      rw [slots_batchFlush, if_neg Bool.false_ne_true.symm]
      exact Nat.le_of_lt (roomy true))
    have idle : ∀ odd, (csaDecryptRun bsDecrypt batchSize csa memory packets count).slots odd =
        [] := by
      intro odd
      rw [csaDecryptRun, slots_batchFlush, slots_batchFlush]
      cases odd <;> rfl
    refine ⟨both.settles.eq idle, ?_, idle⟩
    rw [csaDecryptRun, decrypted_batchFlush, decrypted_batchFlush, decrypted]
  obtain ⟨first, decrypted, idle⟩ := leaves memory
  refine ⟨first, decrypted, idle, ?_⟩
  rw [(leaves _).1, first]
  exact aloneRun_again fun index inside => fate_after inside

/-- A packet of the even parity that has no payload, and a clear one. -/
def lonely : Space UInt8 := fun address =>
  if address = 0 ∨ address = 188 then 0x47
  else if address = 3 then 0xa7
  else if address = 191 then 0x17
  else 0xff

theorem csaDecryptRun_alone_lonely :
    let csa : Csa := ⟨⟨zeroCw, true⟩, ⟨zeroCw, false⟩⟩
    let bsDecrypt : Key → Space UInt8 → List Segment → Nat → Space UInt8 :=
      fun _ memory _ _ => memory
    let done := csaDecryptRun bsDecrypt 32 csa lonely 0 2
    done.memory 3 = 0x27 ∧ done.memory 191 = 0x17 ∧ done.decrypted = 0 ∧ done.slots false = [] := by
  intro csa bsDecrypt done
  have meets : Decrypts (fun _ _ block => block) bsDecrypt 32 :=
    ⟨fun _ _ _ _ _ _ _ _ _ => rfl, fun _ _ _ _ _ _ _ _ _ => rfl⟩
  obtain ⟨left, decrypted, idle, -⟩ := csaDecryptRun_alone meets csa lonely 0 2
  refine ⟨?_, ?_, decrypted.trans rfl, idle false⟩
  · rw [left]
    subst csa
    decide +kernel
  · rw [left]
    subst csa
    decide +kernel

end Stream
