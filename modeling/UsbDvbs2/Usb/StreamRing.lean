import Mathlib.Data.List.Induction
import Mathlib.Data.PNat.Basic
import UsbDvbs2.Store.Circular

/-! # The ring between the USB transfers and their reader

`stream_store` runs on the event thread and `dtv_usb_stream_read` on the consumer's, each
under the lock of the stream. Together they keep a queue of whole chunks.
-/

namespace Usb

open Circular Memory

/-- The part of `dtv_usb_stream` under its lock. -/
structure UsbStream where
  ring : Space UInt8
  ringSize : ℕ+
  head : Nat
  tail : Nat
  used : Nat
  peak : Nat
  dropped : UInt64

/-- The ring is allocated with room and whatever lies there. -/
def UsbStream.opened (ringBytes : ℕ+) (ring : Space UInt8) : UsbStream where
  ring := ring
  ringSize := ringBytes
  head := 0
  tail := 0
  used := 0
  peak := 0
  dropped := 0

namespace UsbStream

def streamStore (s : UsbStream) (data : List UInt8) : UsbStream :=
  if data.length > s.ringSize - s.used then
    { s with dropped := s.dropped + UInt64.ofNat data.length }
  else
    { s with
      ring := write s.ringSize s.ring s.head data
      head := (s.head + data.length) % s.ringSize
      used := s.used + data.length
      peak := if s.used + data.length > s.peak then s.used + data.length else s.peak }

/-- The bytes copied to the destination, whose number is returned. A reader that waits gives
the lock back meanwhile; this is what it does when it has it again. -/
def streamRead (s : UsbStream) (capacity : Nat) : List UInt8 × UsbStream :=
  let copied := if s.used < capacity then s.used else capacity
  if copied = 0 then ([], s)
  else
    (readOut s.ringSize s.ring s.tail copied,
      { s with tail := (s.tail + copied) % s.ringSize, used := s.used - copied })

def streamFlush (s : UsbStream) : UsbStream := { s with head := 0, tail := 0, used := 0 }

end UsbStream

inductive StreamInput where
  | store (data : List UInt8)
  | read (capacity : Nat)
  | flush

/-- The stream, and what every read returned so far. -/
structure StreamSession where
  stream : UsbStream
  results : List (List UInt8)

def StreamSession.take (session : StreamSession) : StreamInput → StreamSession
  | .store data => { session with stream := session.stream.streamStore data }
  | .read capacity =>
      { stream := (session.stream.streamRead capacity).2
        results := session.results ++ [(session.stream.streamRead capacity).1] }
  | .flush => { session with stream := session.stream.streamFlush }

def StreamSession.run (ringBytes : ℕ+) (ring : Space UInt8) (inputs : List StreamInput) :
    StreamSession :=
  inputs.foldl StreamSession.take { stream := .opened ringBytes ring, results := [] }

/-! ## The queue it stands for -/

/-- Bytes leave a queue to a reader or by a flush. -/
inductive Departure where
  | returned (bytes : List UInt8)
  | discarded (bytes : List UInt8)

def Departure.bytes : Departure → List UInt8
  | .returned bytes => bytes
  | .discarded bytes => bytes

def Departure.result : Departure → Option (List UInt8)
  | .returned bytes => some bytes
  | .discarded _ => none

/-- A bounded queue of bytes with its history: the chunks it took and those it did not, and
what left it, in order. -/
structure Fifo where
  queue : List UInt8
  accepted : List (List UInt8)
  refused : List (List UInt8)
  departures : List Departure

namespace Fifo

def start : Fifo := { queue := [], accepted := [], refused := [], departures := [] }

def take (bound : Nat) (fifo : Fifo) : StreamInput → Fifo
  | .store data =>
      if fifo.queue.length + data.length ≤ bound then
        { fifo with queue := fifo.queue ++ data, accepted := fifo.accepted ++ [data] }
      else { fifo with refused := fifo.refused ++ [data] }
  | .read capacity =>
      { fifo with
        queue := fifo.queue.drop capacity
        departures := fifo.departures ++ [.returned (fifo.queue.take capacity)] }
  | .flush =>
      { fifo with queue := [], departures := fifo.departures ++ [.discarded fifo.queue] }

def run (bound : Nat) (inputs : List StreamInput) : Fifo := inputs.foldl (take bound) start

/-- Nothing is lost or doubled: what was accepted is what left, and then what waits. -/
def Balanced (fifo : Fifo) : Prop :=
  fifo.accepted.flatten = fifo.departures.flatMap Departure.bytes ++ fifo.queue

theorem Balanced.take {fifo : Fifo} (balanced : fifo.Balanced) (bound : Nat)
    (input : StreamInput) : (fifo.take bound input).Balanced := by
  unfold Balanced at balanced ⊢
  cases input with
  | store data =>
      rw [Fifo.take]
      split
      · rw [List.flatten_append, List.flatten_singleton, balanced, List.append_assoc]
      · exact balanced
  | read capacity =>
      rw [Fifo.take, List.flatMap_append, List.flatMap_singleton, balanced, Departure.bytes,
        List.append_assoc, List.take_append_drop]
  | flush =>
      rw [Fifo.take, List.flatMap_append, List.flatMap_singleton, balanced, Departure.bytes,
        List.append_nil]

theorem run_balanced (bound : Nat) (inputs : List StreamInput) : (run bound inputs).Balanced := by
  induction inputs using List.reverseRecOn with
  | nil => rfl
  | append_singleton inputs input ih =>
      rw [run, List.foldl_append]
      exact ih.take bound input

end Fifo

/-! ## The ring keeps that queue -/

/-- The ring holds the queue, and its counters are those of the history. -/
structure StreamSession.Holds (session : StreamSession) (fifo : Fifo) : Prop where
  inside : session.stream.tail < session.stream.ringSize
  head : session.stream.head =
    (session.stream.tail + session.stream.used) % session.stream.ringSize
  used : session.stream.used ≤ session.stream.ringSize
  peak : session.stream.used ≤ session.stream.peak
  queue : contents session.stream.ringSize session.stream.ring session.stream.tail
    session.stream.used = fifo.queue
  results : session.results = fifo.departures.filterMap Departure.result
  dropped : session.stream.dropped = UInt64.ofNat (fifo.refused.map List.length).sum

namespace StreamSession.Holds

variable {session : StreamSession} {fifo : Fifo}

theorem length (holds : session.Holds fifo) : fifo.queue.length = session.stream.used := by
  rw [← holds.queue, length_contents]

theorem opened (ringBytes : ℕ+) (ring : Space UInt8) :
    StreamSession.Holds { stream := .opened ringBytes ring, results := [] } .start where
  inside := ringBytes.pos
  head := (Nat.zero_mod _).symm
  used := Nat.zero_le _
  peak := Nat.le_refl _
  queue := rfl
  results := rfl
  dropped := rfl

theorem store (holds : session.Holds fifo) (data : List UInt8) :
    (session.take (.store data)).Holds (fifo.take session.stream.ringSize (.store data)) := by
  have room := holds.used
  rw [StreamSession.take, UsbStream.streamStore, Fifo.take, holds.length]
  by_cases fits : session.stream.used + data.length ≤ session.stream.ringSize
  · rw [if_pos fits, if_neg (by omega)]
    refine ⟨holds.inside, ?_, fits, ?_, ?_, holds.results, holds.dropped⟩
    · change (session.stream.head + data.length) % _ = (_ + (_ + data.length)) % _
      rw [holds.head, Nat.mod_add_mod, Nat.add_assoc]
    · change session.stream.used + data.length ≤ if _ then _ else _
      split
      · exact Nat.le_refl _
      · exact Nat.le_of_not_lt ‹_›
    · change contents _ (write _ _ session.stream.head data) _ _ = _
      rw [holds.head, contents_write holds.inside fits, holds.queue]
  · rw [if_neg fits, if_pos (by omega)]
    refine ⟨holds.inside, holds.head, holds.used, holds.peak, holds.queue, holds.results, ?_⟩
    change session.stream.dropped + _ = _
    rw [holds.dropped, List.map_append, List.sum_append, UInt64.ofNat_add]
    rfl

/-- What a reader with some capacity is given, and what stays for the next. -/
theorem cut (holds : session.Holds fifo) (capacity : Nat) :
    fifo.queue.take capacity = contents session.stream.ringSize session.stream.ring
        session.stream.tail (min session.stream.used capacity) ∧
      fifo.queue.drop capacity = contents session.stream.ringSize session.stream.ring
        ((session.stream.tail + min session.stream.used capacity) % session.stream.ringSize)
        (session.stream.used - min session.stream.used capacity) := by
  have parts := @contents_add _ session.stream.ringSize session.stream.ring session.stream.tail
    (min session.stream.used capacity)
    (session.stream.used - min session.stream.used capacity)
  rw [Nat.add_sub_cancel' (Nat.min_le_left ..), holds.queue] at parts
  have front := @length_contents _ session.stream.ringSize session.stream.ring
    session.stream.tail (min session.stream.used capacity)
  by_cases all : session.stream.used ≤ capacity
  · rw [Nat.min_eq_left all] at parts front ⊢
    rw [Nat.sub_self] at parts ⊢
    have long : fifo.queue.length ≤ capacity := by rwa [holds.length]
    rw [List.take_of_length_le long, List.drop_eq_nil_of_le long]
    exact ⟨parts.trans (List.append_nil _), rfl⟩
  · rw [Nat.min_eq_right (Nat.le_of_not_le all)] at parts front ⊢
    rw [parts]
    exact ⟨List.take_left' front, List.drop_left' front⟩

theorem read (holds : session.Holds fifo) (capacity : Nat) :
    (session.take (.read capacity)).Holds (fifo.take session.stream.ringSize (.read capacity)) := by
  obtain ⟨given, left⟩ := holds.cut capacity
  have fits := holds.used
  have inside := holds.inside
  have copied : (if session.stream.used < capacity then session.stream.used else capacity) =
      min session.stream.used capacity := by
    split <;> omega
  have returned : (session.results ++
      [contents session.stream.ringSize session.stream.ring session.stream.tail
        (min session.stream.used capacity)]) =
      (fifo.departures ++ [Departure.returned (fifo.queue.take capacity)]).filterMap
        Departure.result := by
    rw [List.filterMap_append, holds.results, given]
    rfl
  rw [StreamSession.take, UsbStream.streamRead, Fifo.take, copied]
  by_cases nothing : min session.stream.used capacity = 0
  · rw [nothing, Nat.add_zero, Nat.mod_eq_of_lt inside, Nat.sub_zero] at left
    rw [nothing] at returned
    rw [if_pos nothing]
    exact ⟨inside, holds.head, fits, holds.peak, left.symm, returned, holds.dropped⟩
  · rw [if_neg nothing, readOut_eq inside (by omega)]
    refine ⟨Nat.mod_lt _ session.stream.ringSize.pos, ?_, ?_, ?_, left.symm, returned,
      holds.dropped⟩
    · change session.stream.head = ((_ + _) % _ + (_ - _)) % _
      rw [holds.head, Nat.mod_add_mod, Nat.add_assoc, Nat.add_sub_cancel' (Nat.min_le_left ..)]
    · exact Nat.le_trans (Nat.sub_le ..) fits
    · exact Nat.le_trans (Nat.sub_le ..) holds.peak

theorem flush (holds : session.Holds fifo) :
    (session.take .flush).Holds (fifo.take session.stream.ringSize .flush) where
  inside := session.stream.ringSize.pos
  head := (Nat.zero_mod _).symm
  used := Nat.zero_le _
  peak := Nat.zero_le _
  queue := rfl
  results := by
    rw [Fifo.take, List.filterMap_append]
    exact holds.results.trans (List.append_nil _).symm
  dropped := holds.dropped

theorem take (holds : session.Holds fifo) (input : StreamInput) :
    (session.take input).Holds (fifo.take session.stream.ringSize input) := by
  cases input with
  | store data => exact holds.store data
  | read capacity => exact holds.read capacity
  | flush => exact holds.flush

end StreamSession.Holds

theorem ringSize_take (session : StreamSession) (input : StreamInput) :
    (session.take input).stream.ringSize = session.stream.ringSize := by
  cases input with
  | store data =>
      rw [StreamSession.take, UsbStream.streamStore]
      split <;> rfl
  | read capacity =>
      simp only [StreamSession.take, UsbStream.streamRead]
      split <;> split <;> rfl
  | flush => rfl

/-- In every run the ring holds the queue of the same run. -/
theorem run_holds (ringBytes : ℕ+) (ring : Space UInt8) (inputs : List StreamInput) :
    (StreamSession.run ringBytes ring inputs).Holds (Fifo.run ringBytes inputs) ∧
      (StreamSession.run ringBytes ring inputs).stream.ringSize = ringBytes := by
  induction inputs using List.reverseRecOn with
  | nil => exact ⟨.opened ringBytes ring, rfl⟩
  | append_singleton inputs input ih =>
      obtain ⟨holds, size⟩ := ih
      have next := holds.take input
      rw [size] at next
      rw [StreamSession.run, Fifo.run, List.foldl_append, List.foldl_append]
      exact ⟨next, (ringSize_take _ input).trans size⟩

/-- The ring is a lossless queue of the accepted chunks. -/
theorem ring_is_fifo (ringBytes : ℕ+) (ring : Space UInt8) (inputs : List StreamInput) :
    let session := StreamSession.run ringBytes ring inputs
    let fifo := Fifo.run ringBytes inputs
    session.results = fifo.departures.filterMap Departure.result ∧
      fifo.accepted.flatten = fifo.departures.flatMap Departure.bytes ++ fifo.queue ∧
      contents ringBytes session.stream.ring session.stream.tail session.stream.used =
        fifo.queue ∧
      session.stream.dropped.toNat = (fifo.refused.map List.length).sum % 2 ^ 64 ∧
      session.stream.head = (session.stream.tail + session.stream.used) % ringBytes ∧
      session.stream.used ≤ ringBytes ∧ session.stream.used ≤ session.stream.peak := by
  intro session fifo
  obtain ⟨holds, size⟩ := run_holds ringBytes ring inputs
  have dropped := congrArg UInt64.toNat holds.dropped
  rw [UInt64.toNat_ofNat'] at dropped
  refine ⟨holds.results, Fifo.run_balanced ringBytes inputs, ?_, dropped, ?_, ?_, holds.peak⟩
  · rw [← size]
    exact holds.queue
  · rw [← size]
    exact holds.head
  · rw [← size]
    exact holds.used

end Usb
