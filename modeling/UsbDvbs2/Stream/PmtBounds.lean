import Mathlib.Data.List.TakeWhile
import UsbDvbs2.Stream.PmtOutputs
import UsbDvbs2.Stream.PsiBounds

/-! # The rebuilt PMT stays in its buffer

`udp_ts_send_selected_pmt` with every read of the source and every write to the section of 1024
bytes where the code has it. What has been written is the list of the bytes so far.
-/

namespace Stream

open Bytes Mpeg

variable {sec : List UInt8}

/-! ## Writes -/

/-- `memcpy(section + output_pos, ...)`. -/
def append? (out bytes : List UInt8) : Option (List UInt8) :=
  if out.length + bytes.length ≤ sectionSize then some (out ++ bytes) else none

/-- A length of 12 bits written behind the four high bits of a byte of the source. -/
def putLength? (out : List UInt8) (pos high value : Nat) : Option (List UInt8) :=
  if pos + 1 < out.length ∧ pos + 1 < sectionSize then
    some ((out.set pos (UInt8.ofNat (high / 16 * 16 + value / 256 % 16))).set (pos + 1)
      (UInt8.ofNat value))
  else none

/-- An entry of the array of pids that were found. -/
def pushPid? (found : List UInt16) (pid : UInt16) : Option (List UInt16) :=
  if found.length < maxProgramPids then some (found ++ [pid]) else none

theorem append?_eq {out bytes : List UInt8} (room : out.length + bytes.length ≤ sectionSize) :
    append? out bytes = some (out ++ bytes) := if_pos room

theorem putLength?_eq {out : List UInt8} {pos : Nat} (inside : pos + 1 < out.length)
    (room : out.length ≤ sectionSize) (value : Nat) :
    putLength? out pos (octet out pos) value = some (setBe12 out pos value) :=
  if_pos ⟨inside, Nat.lt_of_lt_of_le inside room⟩

/-! ## The programme -/

/-- The descriptors of a loop that are visited end within it. -/
theorem whole_of_mem {start limit d : Nat}
    (mem : d ∈ (descriptors sec start limit).takeWhile fun d =>
      d + 2 + octet sec (d + 1) ≤ limit) : d + 2 + octet sec (d + 1) ≤ limit := by
  simpa using List.mem_takeWhile_imp mem

/-- A descriptor of the programme, unless the loop has returned -1. -/
def copyDescriptor? (sec : List UInt8) (strip : Bool) (tag length d : Nat)
    (copied : Option (List UInt8 × Nat)) : Option (Bool × Option (List UInt8 × Nat)) :=
  match copied with
  | none => some (false, none)
  | some (out, kept) =>
      if strip && tag == 0x09 then some (true, some (out, kept))
      else if sectionSize < out.length + (2 + length) + 4 then some (false, none)
      else do
        let raw ← slice? sec d (2 + length)
        let out ← append? out raw
        return (true, some (out, kept + (2 + length)))

/-- A turn of the loop over the descriptors of the programme, in the model. -/
def copyTurn (sec : List UInt8) (strip : Bool) (d : Nat) :
    Option (List UInt8 × Nat) → Bool × Option (List UInt8 × Nat)
  | none => (false, none)
  | some (out, kept) =>
      if strip && octet sec d == 0x09 then (true, some (out, kept))
      else if sectionSize < out.length + (2 + octet sec (d + 1)) + 4 then (false, none)
      else (true, some (out ++ slice sec d (2 + octet sec (d + 1)),
        kept + (2 + octet sec (d + 1))))

theorem copyDescriptor?_eq {d : Nat} (inside : d + 2 + octet sec (d + 1) ≤ sec.length)
    (strip : Bool) (copied : Option (List UInt8 × Nat)) :
    copyDescriptor? sec strip (octet sec d) (octet sec (d + 1)) d copied =
      some (copyTurn sec strip d copied) := by
  have size : (slice sec d (2 + octet sec (d + 1))).length = 2 + octet sec (d + 1) :=
    length_slice (by omega)
  cases copied with
  | none => rfl
  | some copied =>
      obtain ⟨out, kept⟩ := copied
      simp only [copyDescriptor?, copyTurn]
      split
      · rfl
      · split
        · rfl
        · rw [slice?_eq (by omega), Option.bind_eq_bind, Option.bind_some, append?_eq (by omega)]
          rfl

/-- The copy begins with what was there, and leaves room for the checksum. -/
theorem copyDescriptors_some {strip : Bool} {raws : List (List UInt8)} {out copied : List UInt8}
    (done : copyDescriptors strip raws out = some copied) :
    out <+: copied ∧ (out.length + 4 ≤ sectionSize → copied.length + 4 ≤ sectionSize) := by
  induction raws generalizing out with
  | nil =>
      obtain rfl := Option.some.inj done
      exact ⟨List.prefix_rfl, id⟩
  | cons raw raws ih =>
      rw [copyDescriptors] at done
      split at done
      · exact ih done
      · split at done
        · contradiction
        · obtain ⟨front, room⟩ := ih done
          refine ⟨(List.prefix_append _ _).trans front, fun _ => room ?_⟩
          rw [List.length_append]
          omega

theorem walk_copyTurn {strip : Bool} {positions : List Nat}
    (whole : ∀ d ∈ positions, d + 2 + octet sec (d + 1) ≤ sec.length) (out : List UInt8)
    (kept : Nat) :
    walk (copyTurn sec strip) positions (some (out, kept)) =
      (copyDescriptors strip (positions.map fun d => slice sec d (2 + octet sec (d + 1))) out).map
        fun copied => (copied, kept + (copied.length - out.length)) := by
  induction positions generalizing out kept with
  | nil => simp [walk, copyDescriptors]
  | cons d later ih =>
      have inside := whole d (List.mem_cons_self ..)
      have size : (slice sec d (2 + octet sec (d + 1))).length = 2 + octet sec (d + 1) :=
        length_slice (by omega)
      have onward := ih fun other mem => whole other (List.mem_cons_of_mem _ mem)
      have drops : dropped strip (slice sec d (2 + octet sec (d + 1))) =
          (strip && octet sec d == 0x09) := by
        rw [dropped, octet_slice (by omega)]
        rfl
      rw [walk, List.map_cons, copyDescriptors, copyTurn, drops, size]
      by_cases named : (strip && octet sec d == 0x09) = true
      · rw [if_pos named, if_pos named]
        exact onward out kept
      · rw [if_neg named, if_neg named]
        by_cases full : sectionSize < out.length + (2 + octet sec (d + 1)) + 4
        · rw [if_pos full, if_pos full]
          rfl
        · rw [if_neg full, if_neg full]
          refine (onward _ _).trans ?_
          cases done : copyDescriptors strip
              (later.map fun d => slice sec d (2 + octet sec (d + 1)))
              (out ++ slice sec d (2 + octet sec (d + 1))) with
          | none => rfl
          | some copied =>
              have longer := (copyDescriptors_some done).1.length_le
              rw [List.length_append, size] at longer
              simp only [Option.map_some, List.length_append, size]
              congr 2
              omega

/-! ## The streams -/

/-- A descriptor of a stream that is sent stripped. -/
def keepDescriptor? (sec : List UInt8) (tag length d : Nat) (copied : List UInt8 × Nat) :
    Option (Bool × List UInt8 × Nat) :=
  if tag ≠ 0x09 then do
    let raw ← slice? sec d (2 + length)
    let out ← append? copied.1 raw
    return (true, out, copied.2 + (2 + length))
  else some (true, copied)

/-- What is sent for the stream entry at a position. -/
def copyWhole? (sec : List UInt8) (strip : Bool) (pos length : Nat) (out : List UInt8) :
    Option (List UInt8) :=
  if strip then do
    let header ← slice? sec pos 5
    let begun ← append? out header
    let (copied, kept) ← descriptorLoop? sec (pos + 5) (pos + 5 + length) (keepDescriptor? sec)
      (begun, 0)
    let high ← octet? sec (pos + 3)
    putLength? copied (out.length + 3) high kept
  else do
    let entry ← slice? sec pos (5 + length)
    append? out entry

/-- A turn of the loop over the descriptors of a stream, in the model. -/
def keepTurn (sec : List UInt8) (d : Nat) (copied : List UInt8 × Nat) : Bool × List UInt8 × Nat :=
  if octet sec d ≠ 0x09 then
    (true, copied.1 ++ slice sec d (2 + octet sec (d + 1)), copied.2 + (2 + octet sec (d + 1)))
  else (true, copied)

/-- What stays of a descriptor loop that is stripped. -/
def keptDescriptors (sec : List UInt8) (start limit : Nat) : List UInt8 :=
  ((descriptorSlices sec start limit).filter fun raw => octet raw 0 != 0x09).flatten

theorem length_keptDescriptors (sec : List UInt8) (start limit : Nat) :
    (keptDescriptors sec start limit).length ≤ limit - start :=
  Nat.le_trans List.filter_sublist.flatten.length_le (total_descriptorSlices sec start limit)

theorem walk_keepTurn {positions : List Nat}
    (whole : ∀ d ∈ positions, d + 2 + octet sec (d + 1) ≤ sec.length) (out : List UInt8)
    (kept : Nat) :
    walk (keepTurn sec) positions (out, kept) =
      (out ++ ((positions.map fun d => slice sec d (2 + octet sec (d + 1))).filter fun raw =>
          octet raw 0 != 0x09).flatten,
        kept + ((positions.map fun d => slice sec d (2 + octet sec (d + 1))).filter fun raw =>
          octet raw 0 != 0x09).flatten.length) := by
  induction positions generalizing out kept with
  | nil => simp [walk]
  | cons d later ih =>
      have inside := whole d (List.mem_cons_self ..)
      have size : (slice sec d (2 + octet sec (d + 1))).length = 2 + octet sec (d + 1) :=
        length_slice (by omega)
      have onward := ih fun other mem => whole other (List.mem_cons_of_mem _ mem)
      have tag : octet (slice sec d (2 + octet sec (d + 1))) 0 = octet sec d :=
        octet_slice (by omega)
      by_cases named : octet sec d = 0x09
      · have drops : ¬ (octet (slice sec d (2 + octet sec (d + 1))) 0 != 0x09) = true := by
          simp [tag, named]
        have turned : keepTurn sec d (out, kept) = (true, out, kept) :=
          if_neg (not_not_intro named)
        rw [walk, turned, List.map_cons, List.filter_cons_of_neg (p := (octet · 0 != 0x09)) drops]
        exact onward out kept
      · have keeps : (octet (slice sec d (2 + octet sec (d + 1))) 0 != 0x09) = true := by
          simp [tag, named]
        have turned : keepTurn sec d (out, kept) =
            (true, out ++ slice sec d (2 + octet sec (d + 1)), kept + (2 + octet sec (d + 1))) :=
          if_pos named
        rw [walk, turned, List.map_cons, List.filter_cons_of_pos (p := (octet · 0 != 0x09)) keeps]
        refine (onward _ _).trans ?_
        simp only [List.flatten_cons, List.length_append, size, List.append_assoc, Nat.add_assoc]

theorem descriptorSlices_eq (sec : List UInt8) (start limit : Nat) :
    descriptorSlices sec start limit =
      if start + 2 ≤ limit ∧ start + 2 + octet sec (start + 1) ≤ limit then
        slice sec start (2 + octet sec (start + 1)) ::
          descriptorSlices sec (start + 2 + octet sec (start + 1)) limit
      else [] := by
  rw [descriptorSlices, descriptors, entries_eq (by decide)]
  by_cases inside : start + 2 ≤ limit
  · rw [if_pos inside, List.takeWhile_cons]
    by_cases fits : start + 2 + octet sec (start + 1) ≤ limit
    · rw [if_pos (decide_eq_true fits), if_pos ⟨inside, fits⟩, List.map_cons]
      rfl
    · rw [if_neg (by simpa using fits), if_neg fun both => fits both.2, List.map_nil]
  · rw [if_neg inside, if_neg fun both => inside both.1]
    rfl

/-- The descriptors of an entry, in the section that it lies in. -/
theorem descriptorSlices_slice {pos size : Nat} (start : Nat) :
    descriptorSlices (slice sec pos size) start size =
      descriptorSlices sec (pos + start) (pos + size) := by
  induction left : size - start using Nat.strongRecOn generalizing start with
  | ind _ ih =>
    rw [descriptorSlices_eq, descriptorSlices_eq sec]
    by_cases inside : start + 2 ≤ size
    · have length : octet (slice sec pos size) (start + 1) = octet sec (pos + start + 1) := by
        rw [octet_slice (by omega), Nat.add_assoc]
      rw [length]
      by_cases fits : start + 2 + octet sec (pos + start + 1) ≤ size
      · have onward : pos + (start + 2 + octet sec (pos + start + 1)) =
            pos + start + 2 + octet sec (pos + start + 1) := by omega
        rw [if_pos ⟨inside, fits⟩, if_pos (by omega), slice_slice (by omega),
          ih _ (by omega) _ rfl, onward]
      · rw [if_neg fun both => fits both.2, if_neg (by omega)]
    · rw [if_neg fun both => inside both.1, if_neg (by omega)]

/-- What is sent of an entry that is stripped. -/
theorem copyEntry_slice {pos length : Nat} (inside : pos + (5 + length) ≤ sec.length) :
    copyEntry true (slice sec pos (5 + length)) =
      setBe12 (slice sec pos 5) 3 (keptDescriptors sec (pos + 5) (pos + 5 + length)).length ++
        keptDescriptors sec (pos + 5) (pos + 5 + length) := by
  have front : (slice sec pos (5 + length)).take 5 = slice sec pos 5 := by
    rw [slice, List.take_take, Nat.min_eq_left (Nat.le_add_right 5 length), slice]
  have slices : descriptorSlices (slice sec pos (5 + length)) 5 (5 + length) =
      descriptorSlices sec (pos + 5) (pos + 5 + length) := by
    rw [descriptorSlices_slice, Nat.add_assoc]
  simp only [copyEntry, if_true, length_slice inside, front, slices, keptDescriptors]

theorem keepDescriptor?_eq {d : Nat} (inside : d + 2 + octet sec (d + 1) ≤ sec.length)
    {copied : List UInt8 × Nat}
    (room : copied.1.length + (2 + octet sec (d + 1)) ≤ sectionSize) :
    keepDescriptor? sec (octet sec d) (octet sec (d + 1)) d copied =
      some (keepTurn sec d copied) := by
  have size : (slice sec d (2 + octet sec (d + 1))).length = 2 + octet sec (d + 1) :=
    length_slice (by omega)
  unfold keepDescriptor? keepTurn
  by_cases other : octet sec d ≠ 0x09
  · rw [if_pos other, if_pos other, slice?_eq (by omega), Option.bind_eq_bind, Option.bind_some,
      append?_eq (by omega)]
    rfl
  · rw [if_neg other, if_neg other]

/-- The copy is never ahead of what has been read of the loop. -/
theorem keepTurn_behind {d start size : Nat} (inside : d + 2 + octet sec (d + 1) ≤ sec.length)
    {copied : List UInt8 × Nat} (here : copied.1.length + start ≤ size + d) :
    (keepTurn sec d copied).2.1.length + start ≤ size + (d + 2 + octet sec (d + 1)) := by
  have short : (slice sec d (2 + octet sec (d + 1))).length = 2 + octet sec (d + 1) :=
    length_slice (by omega)
  unfold keepTurn
  split
  · rw [List.length_append, short]
    omega
  · change copied.1.length + start ≤ _
    omega

theorem keepDescriptors?_eq {start limit : Nat} (inside : limit ≤ sec.length)
    (begins : start ≤ limit) {out : List UInt8}
    (room : out.length + (limit - start) ≤ sectionSize) :
    descriptorLoop? sec start limit (keepDescriptor? sec) (out, 0) =
      some (out ++ keptDescriptors sec start limit, (keptDescriptors sec start limit).length) := by
  have looped := @descriptorLoop?_holds _ _ limit inside (keepDescriptor? sec) (keepTurn sec)
    (fun d copied => copied.1.length + start ≤ out.length + d)
    (fun fits here => keepDescriptor?_eq (by omega) (by omega))
    (fun fits here _ => keepTurn_behind (Nat.le_trans fits inside) here) start (out, 0)
    (Nat.le_refl _)
  rw [walk_keepTurn fun d mem => Nat.le_trans (whole_of_mem mem) inside, Nat.zero_add] at looped
  exact looped

/-- An entry that fits into the buffer as it is fits in when it is stripped. -/
theorem copyWhole?_eq {pos length : Nat} (inside : pos + (5 + length) ≤ sec.length)
    {out : List UInt8} (room : out.length + (5 + length) + 4 ≤ sectionSize) (strip : Bool) :
    copyWhole? sec strip pos length out =
      some (out ++ copyEntry strip (slice sec pos (5 + length))) := by
  cases strip with
  | false =>
      have size := length_slice inside
      unfold copyWhole?
      rw [if_neg Bool.false_ne_true, slice?_eq inside, Option.bind_eq_bind, Option.bind_some,
        append?_eq (by omega)]
      rfl
  | true =>
      have size : (slice sec pos 5).length = 5 := length_slice (by omega)
      have front : slice? sec pos 5 = some (slice sec pos 5) := slice?_eq (by omega)
      have begun : append? out (slice sec pos 5) = some (out ++ slice sec pos 5) :=
        append?_eq (by omega)
      have high : octet? sec (pos + 3) = some (octet sec (pos + 3)) := octet?_eq (by omega)
      have looped := @keepDescriptors?_eq sec (pos + 5) (pos + 5 + length) (by omega) (by omega)
        (out ++ slice sec pos 5) (by rw [List.length_append, size]; omega)
      have short := length_keptDescriptors sec (pos + 5) (pos + 5 + length)
      rw [copyEntry_slice inside]
      generalize keptDescriptors sec (pos + 5) (pos + 5 + length) = kept at looped short ⊢
      have header : octet (out ++ slice sec pos 5 ++ kept) (out.length + 3) =
          octet sec (pos + 3) := by
        rw [List.append_assoc, octet_middle (by omega), octet_slice (by decide)]
      have written := @putLength?_eq (out ++ slice sec pos 5 ++ kept) (out.length + 3)
        (by rw [List.length_append, List.length_append, size]; omega)
        (by rw [List.length_append, List.length_append, size]; omega) kept.length
      rw [header, List.append_assoc, setBe12_append_right, setBe12_append (by omega)] at written
      simp only [copyWhole?, if_true, front, begun, looped, high, Option.bind_eq_bind,
        Option.bind_some, List.append_assoc, written]

/-- The teletext pid behind a stream entry. -/
def streamTeletext? (sec : List UInt8) (streamType : Nat) (pid : UInt16) (start limit : Nat)
    (teletext : UInt16) : Option UInt16 :=
  if streamType = 0x06 then teletextLoop? sec pid start limit teletext else some teletext

/-- The pids that are found, as far as there is room for them. -/
def findPid? (found : List UInt16) (capacity : Nat) (pid : UInt16) : Option (List UInt16) :=
  if found.length < capacity then pushPid? found pid else some found

/-- An entry of the stream loop. The flag goes down when the function returns -1. -/
def copyStream? (sec : List UInt8) (strip : Bool) (capacity limit pos : Nat)
    (carried : StreamLoop × Bool) : Option (Option Nat × StreamLoop × Bool) := do
  let loop := carried.1
  let pid ← be13? sec (pos + 1)
  let length ← be12? sec (pos + 3)
  if limit < pos + (5 + length) then return (none, loop, false)
  else
    let streamType ← octet? sec pos
    let teletext ← streamTeletext? sec streamType pid (pos + 5) (pos + 5 + length) loop.teletext
    let found ← findPid? loop.found capacity pid
    if sectionSize < loop.out.length + (5 + length) + 4 then
      return (none, ⟨teletext, found, loop.out⟩, false)
    else
      let out ← copyWhole? sec strip pos length loop.out
      return (some (pos + 5 + length), ⟨teletext, found, out⟩, true)

/-- A turn of the stream loop, in the model. -/
def streamTurn (sec : List UInt8) (strip : Bool) (capacity pos : Nat)
    (carried : StreamLoop × Bool) : Bool × StreamLoop × Bool :=
  if entryFits sec pos then
    if sectionSize < carried.1.out.length + (entryAt sec pos).length + 4 then
      (false, carried.1.read sec capacity pos, false)
    else (true, (carried.1.read sec capacity pos).copy strip (entryAt sec pos), true)
  else (false, carried.1, false)

theorem walk_streamTurn (sec : List UInt8) (strip : Bool) (capacity : Nat) (positions : List Nat)
    (loop : StreamLoop) :
    walk (streamTurn sec strip capacity) positions (loop, true) =
      runStreams sec strip capacity positions loop := by
  induction positions generalizing loop with
  | nil => rfl
  | cons pos later ih =>
      rw [walk, runStreams, streamTurn]
      by_cases fits : entryFits sec pos = true
      · simp only [if_pos fits]
        by_cases full : sectionSize < loop.out.length + (entryAt sec pos).length + 4
        · simp only [if_pos full]
          rfl
        · simp only [if_neg full]
          exact ih _
      · simp only [if_neg fits]
        rfl

/-- The buffer holds the header at least, and has room for the checksum. -/
def HasRoom (out : List UInt8) : Prop := 12 ≤ out.length ∧ out.length + 4 ≤ sectionSize

theorem HasRoom.streamTurn {strip : Bool} {capacity pos : Nat} {carried : StreamLoop × Bool}
    (room : HasRoom carried.1.out) (inside : 4 ≤ sec.length) :
    HasRoom (streamTurn sec strip capacity pos carried).2.1.out := by
  unfold Stream.streamTurn
  by_cases fits : entryFits sec pos = true
  · rw [if_pos fits]
    rw [entryFits, decide_eq_true_eq] at fits
    have size : (entryAt sec pos).length = 5 + be12 sec (pos + 3) := length_slice (by omega)
    by_cases full : sectionSize < carried.1.out.length + (entryAt sec pos).length + 4
    · rw [if_pos full]
      exact room
    · have short := length_copyEntry strip (entryAt sec pos) (by omega)
      rw [if_neg full]
      change HasRoom (carried.1.out ++ copyEntry strip (entryAt sec pos))
      obtain ⟨long, _⟩ := room
      rw [HasRoom, List.length_append]
      omega
  · rw [if_neg fits]
    exact room

theorem findPid?_eq {found : List UInt16} {capacity : Nat} (few : capacity ≤ maxProgramPids)
    (pid : UInt16) :
    findPid? found capacity pid =
      some (if found.length < capacity then found ++ [pid] else found) := by
  unfold findPid?
  by_cases room : found.length < capacity
  · rw [if_pos room, if_pos room]
    exact if_pos (Nat.lt_of_lt_of_le room few)
  · rw [if_neg room, if_neg room]

theorem streamTeletext?_eq {pos : Nat} (inside : pos + 5 + be12 sec (pos + 3) ≤ sec.length)
    (pid teletext : UInt16) :
    streamTeletext? sec (octet sec pos) pid (pos + 5) (pos + 5 + be12 sec (pos + 3)) teletext =
      some (if isTeletext sec pos then pid else teletext) := by
  unfold streamTeletext?
  by_cases unnamed : octet sec pos = 0x06
  · rw [if_pos unnamed, teletextLoop?_eq inside unnamed]
  · have other : isTeletext sec pos = false := by
      rw [isTeletext, beq_false_of_ne unnamed, Bool.false_and]
    rw [if_neg unnamed, other, if_neg Bool.false_ne_true]

theorem copyStream_walks (inside : 4 ≤ sec.length) (strip : Bool) {capacity : Nat}
    (few : capacity ≤ maxProgramPids) :
    Walks 5 (sec.length - 4) (fun pos => be12 sec (pos + 3))
      (copyStream? sec strip capacity (sec.length - 4)) (streamTurn sec strip capacity)
      (fun _ carried => HasRoom carried.1.out) where
  positive := by decide
  turns := by
    intro pos carried begins room
    have pid : be13? sec (pos + 1) = some (be13 sec (pos + 1)) := be13?_eq (by omega)
    have length : be12? sec (pos + 3) = some (be12 sec (pos + 3)) := be12?_eq (by omega)
    simp only [copyStream?, pid, length, Option.bind_eq_bind, Option.bind_some]
    by_cases overruns : sec.length - 4 < pos + (5 + be12 sec (pos + 3))
    · have cut : ¬ entryFits sec pos = true := by
        rw [entryFits, decide_eq_true_eq]
        omega
      have turned : streamTurn sec strip capacity pos carried = (false, carried.1, false) :=
        if_neg cut
      rw [if_pos overruns, onward, turned]
      rfl
    · have within : pos + (5 + be12 sec (pos + 3)) ≤ sec.length := by omega
      have fits : entryFits sec pos = true := by
        rw [entryFits, decide_eq_true_eq]
        omega
      have size : (entryAt sec pos).length = 5 + be12 sec (pos + 3) := length_slice within
      have type : octet? sec pos = some (octet sec pos) := octet?_eq (by omega)
      have turned : streamTurn sec strip capacity pos carried = _ := if_pos fits
      have teletext := @streamTeletext?_eq sec pos (by omega) (be13 sec (pos + 1))
        carried.1.teletext
      have found := @findPid?_eq carried.1.found capacity few (be13 sec (pos + 1))
      simp only [if_neg overruns, type, teletext, found, Option.bind_some, onward, turned, size]
      by_cases full : sectionSize < carried.1.out.length + (5 + be12 sec (pos + 3)) + 4
      · simp only [if_pos full]
        rfl
      · simp only [if_neg full, copyWhole?_eq within (Nat.not_lt.mp full)]
        rfl
  keeps := fun _ room _ => room.streamTurn inside

/-! ## The table -/

/-- The length and the checksum of the table. -/
def finish? (out : List UInt8) : Option (List UInt8) := do
  let behind ← sub? out.length 3
  let high ← octet? out 1
  let body ← putLength? out 1 high (behind + 4)
  append? body (crcBytes (crc32 body))

/-- `udp_ts_send_selected_pmt` behind the descriptors of the programme. -/
def sendStreams? (sec : List UInt8) (pid : UInt16) (strip : Bool) (streamCapacity : Nat)
    (sendto : Nat → Bool) (counter : UInt8) (writer : Writer) (outputs : PmtOutputs)
    (out : List UInt8) (kept : Nat) : Option PmtResult := do
  let length ← be12? sec 10
  let limit ← sub? sec.length 4
  let high ← octet? sec 10
  let front ← putLength? out 10 high kept
  let pcr ← be13? sec 8
  let (loop, done) ←
    scan? 5 limit (copyStream? sec strip (min streamCapacity maxProgramPids) limit) (12 + length)
      (⟨outputs.teletextPid, [], front⟩, true)
  let named := outputs.name pcr loop.teletext
  if done = false then return ⟨-1, named, counter, writer⟩
  else
    let table ← finish? loop.out
    let sent := sendSection sendto pid counter table writer
    return ⟨if sent.1 then 0 else -1, named.handOver loop.found, sent.2.1, sent.2.2⟩

def udpTsSendSelectedPmt? (sec : List UInt8) (service pid : UInt16) (strip : Bool)
    (streamCapacity : Nat) (sendto : Nat → Bool) (counter : UInt8) (writer : Writer)
    (outputs : PmtOutputs) : Option PmtResult := do
  let wanted ← isPmtOf? sec service
  if wanted = false then return ⟨-1, outputs, counter, writer⟩
  else
    let length ← be12? sec 10
    let limit ← sub? sec.length 4
    if limit < 12 + length ∨ sectionSize - 4 < 12 + length then
      return ⟨-1, outputs, counter, writer⟩
    else
      let header ← slice? sec 0 12
      let begun ← append? [] header
      let copied ← descriptorLoop? sec 12 (12 + length) (copyDescriptor? sec strip)
        (some (begun, 0))
      match copied with
      | none => return ⟨-1, outputs, counter, writer⟩
      | some (out, kept) =>
          sendStreams? sec pid strip streamCapacity sendto counter writer outputs out kept

theorem copyProgram?_eq (long : 12 ≤ sec.length) (inside : programInfoEnd sec ≤ sec.length)
    (strip : Bool) :
    descriptorLoop? sec 12 (12 + be12 sec 10) (copyDescriptor? sec strip) (some (sec.take 12, 0)) =
      some ((copyDescriptors strip (descriptorSlices sec 12 (programInfoEnd sec))
        (sec.take 12)).map fun copied => (copied, copied.length - 12)) := by
  have size : (sec.take 12).length = 12 := List.length_take_of_le long
  have looped := @descriptorLoop?_eq _ _ (programInfoEnd sec) inside (copyDescriptor? sec strip)
    (copyTurn sec strip) (fun fits => copyDescriptor?_eq (Nat.le_trans fits inside) strip _) 12
    (some (sec.take 12, 0))
  rw [walk_copyTurn fun d mem => Nat.le_trans (whole_of_mem mem) inside, size] at looped
  simp only [Nat.zero_add] at looped
  exact looped

/-- The table is closed within the buffer. -/
theorem finish?_eq {out : List UInt8} (room : HasRoom out) : finish? out = some (finish out) := by
  obtain ⟨long, short⟩ := room
  have behind : sub? out.length 3 = some (out.length - 3) := sub?_eq (by omega)
  have high : octet? out 1 = some (octet out 1) := octet?_eq (by omega)
  have body : putLength? out 1 (octet out 1) (out.length - 3 + 4) =
      some (setBe12 out 1 (out.length - 3 + 4)) := putLength?_eq (by omega) (by omega) _
  simp only [finish?, behind, high, body, Option.bind_eq_bind, Option.bind_some]
  refine append?_eq ?_
  rw [length_setBe12, length_crcBytes]
  exact short

theorem HasRoom.setBe12 {out : List UInt8} (room : HasRoom out) {pos value : Nat} :
    HasRoom (setBe12 out pos value) := by
  rw [HasRoom, length_setBe12]
  exact room

/-- The copy of the programme begins with the header. -/
theorem copyDescriptors_front {strip : Bool} {raws : List (List UInt8)} {front : List UInt8}
    (long : 12 ≤ sec.length) (done : copyDescriptors strip raws (sec.take 12) = some front) :
    octet front 10 = octet sec 10 ∧ HasRoom front := by
  have size : (sec.take 12).length = 12 := List.length_take_of_le long
  obtain ⟨⟨behind, rfl⟩, room⟩ := copyDescriptors_some done
  refine ⟨?_, ?_, room (by rw [size]; decide)⟩
  · have inside : 10 < (sec.take 12).length := by omega
    have header : octet (sec.take 12) 10 = octet sec (0 + 10) :=
      @octet_slice sec 0 12 10 (by decide)
    rw [octet_append inside, header]
  · rw [List.length_append, size]
    exact Nat.le_add_right 12 _

theorem runStreams?_eq (inside : 4 ≤ sec.length) (strip : Bool) {capacity : Nat}
    (few : capacity ≤ maxProgramPids) {loop : StreamLoop} (room : HasRoom loop.out) :
    scan? 5 (sec.length - 4) (copyStream? sec strip capacity (sec.length - 4))
        (12 + be12 sec 10) (loop, true) =
      some (runStreams sec strip capacity (streamEntries sec) loop) := by
  rw [← walk_streamTurn]
  exact (copyStream_walks inside strip few).scan room

theorem walk_streamTurn_room (inside : 4 ≤ sec.length) (strip : Bool) (capacity : Nat)
    (positions : List Nat) {carried : StreamLoop × Bool} (room : HasRoom carried.1.out) :
    HasRoom (walk (streamTurn sec strip capacity) positions carried).1.out := by
  induction positions generalizing carried with
  | nil => exact room
  | cons pos later ih =>
      have after := @HasRoom.streamTurn sec strip capacity pos carried room inside
      rw [walk]
      split
      · exact ih after
      · exact after

section Sending

variable (sec : List UInt8) (service pid : UInt16) (strip : Bool) (streamCapacity : Nat)
  (sendto : Nat → Bool) (counter : UInt8) (writer : Writer) (outputs : PmtOutputs)

theorem sendStreams?_eq {out : List UInt8} (long : 16 ≤ sec.length)
    (same : octet out 10 = octet sec 10) (room : HasRoom out)
    (front : copyProgram sec service strip = some (setBe12 out 10 (out.length - 12))) :
    sendStreams? sec pid strip streamCapacity sendto counter writer outputs out
        (out.length - 12) =
      some (udpTsSendSelectedPmt sec service pid strip streamCapacity sendto counter writer
        outputs) := by
  have length : be12? sec 10 = some (be12 sec 10) := be12?_eq (by omega)
  have limit : sub? sec.length 4 = some (sec.length - 4) := sub?_eq (by omega)
  have high : octet? sec 10 = some (octet sec 10) := octet?_eq (by omega)
  have pcr : be13? sec 8 = some (be13 sec 8) := be13?_eq (by omega)
  have counted := @putLength?_eq out 10 (Nat.lt_of_lt_of_le (by decide) room.1)
    (Nat.le_trans (Nat.le_add_right _ 4) room.2) (out.length - 12)
  have begun : HasRoom (setBe12 out 10 (out.length - 12)) := room.setBe12
  rw [same] at counted
  generalize setBe12 out 10 (out.length - 12) = start at front counted begun
  have ran := @runStreams?_eq sec (by omega) strip (min streamCapacity maxProgramPids)
    (Nat.min_le_right _ _) ⟨outputs.teletextPid, [], start⟩ begun
  have roomy := @walk_streamTurn_room sec (by omega) strip (min streamCapacity maxProgramPids)
    (streamEntries sec) (⟨outputs.teletextPid, [], start⟩, true) begun
  rw [walk_streamTurn] at roomy
  simp only [sendStreams?, udpTsSendSelectedPmt, front, length, limit, high, pcr, counted, ran,
    finish?_eq roomy, Option.bind_eq_bind, Option.bind_some]
  cases (runStreams sec strip (min streamCapacity maxProgramPids) (streamEntries sec)
    ⟨outputs.teletextPid, [], start⟩).2 with
  | false => rfl
  | true => rfl

theorem udpTsSendSelectedPmt?_eq :
    udpTsSendSelectedPmt? sec service pid strip streamCapacity sendto counter writer outputs =
      some (udpTsSendSelectedPmt sec service pid strip streamCapacity sendto counter writer
        outputs) := by
  have turned (nothing : copyProgram sec service strip = none) :
      udpTsSendSelectedPmt sec service pid strip streamCapacity sendto counter writer outputs =
        ⟨-1, outputs, counter, writer⟩ := by
    rw [udpTsSendSelectedPmt, nothing]
  rw [udpTsSendSelectedPmt?, isPmtOf?_eq]
  cases read : isPmtOf sec service with
  | false =>
      rw [turned (if_neg fun all => Bool.false_ne_true (read.symm.trans all.1))]
      rfl
  | true =>
      have long := isPmtOf_length read
      have length : be12? sec 10 = some (be12 sec 10) := be12?_eq (by omega)
      have limit : sub? sec.length 4 = some (sec.length - 4) := sub?_eq (by omega)
      simp only [Option.bind_eq_bind, Option.bind_some, length, limit, Bool.true_eq_false, if_false]
      by_cases overruns : sec.length - 4 < 12 + be12 sec 10 ∨ sectionSize - 4 < 12 + be12 sec 10
      · rw [if_pos overruns, turned]
        · rfl
        · refine if_neg fun all => ?_
          rw [programInfoEnd] at all
          omega
      · have inside : programInfoEnd sec ≤ sec.length - 4 ∧
            programInfoEnd sec ≤ sectionSize - 4 := by
          rw [programInfoEnd]
          omega
        have header : slice? sec 0 12 = some (sec.take 12) := slice?_eq (by omega)
        have begun : append? [] (sec.take 12) = some (sec.take 12) := append?_eq (by
          rw [List.length_nil, List.length_take_of_le (by omega)]
          decide)
        have copied := copyProgram?_eq (show 12 ≤ sec.length by omega)
          (Nat.le_trans inside.1 (Nat.sub_le sec.length 4)) strip
        have program : copyProgram sec service strip = _ := if_pos ⟨read, inside⟩
        simp only [if_neg overruns, header, begun, copied, Option.bind_some]
        cases done : copyDescriptors strip (descriptorSlices sec 12 (programInfoEnd sec))
            (sec.take 12) with
        | none =>
            rw [turned (by rw [program, done]; rfl)]
            rfl
        | some front =>
            obtain ⟨same, room⟩ := copyDescriptors_front (by omega) done
            rw [done] at program
            exact sendStreams?_eq sec service pid strip streamCapacity sendto counter writer outputs
              long same room program

end Sending

end Stream
