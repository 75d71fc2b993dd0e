import Mathlib.Init

/-! # The socket of a card server

`dtv_camd_read_all` over what the socket still brings: the server's bytes in whatever
pieces `recv` hands them out, with receive timeouts and errors anywhere between them.
-/

namespace Camd

/-- What one wait on the socket brings. -/
inductive Chunk where
  | bytes (first : UInt8) (more : List UInt8)
  | timeout
  | failure

/-- What is still to come; behind it the server has closed the connection. -/
abbrev Socket : Type := List Chunk

def Chunk.content : Chunk → List UInt8
  | .bytes first more => first :: more
  | .timeout | .failure => []

/-- The bytes still to come. -/
def incoming (socket : Socket) : List UInt8 := socket.flatMap Chunk.content

/-- The bytes that come before the next timeout or error. -/
def delivered : Socket → List UInt8
  | .bytes first more :: later => (first :: more) ++ delivered later
  | _ => []

/-- What `recv` returns. -/
inductive Got where
  | bytes (data : List UInt8)
  | closed
  | timeout
  | failure

/-- What is left of a chunk goes back in front of the others. -/
def giveBack : List UInt8 → Socket → Socket
  | [], later => later
  | first :: more, later => .bytes first more :: later

def recv (want : Nat) : Socket → Got × Socket
  | [] => (.closed, [])
  | .bytes first more :: later =>
      (.bytes ((first :: more).take want), giveBack ((first :: more).drop want) later)
  | .timeout :: later => (.timeout, later)
  | .failure :: later => (.failure, later)

/-- What `dtv_camd_read_all` returns: the count, `DTV_CAMD_IO_TIMEOUT`, or -1. -/
inductive Read where
  | all (data : List UInt8)
  | timeout
  | broken

/-- The loop of `dtv_camd_read_all`. Every turn brings a byte, so `size` turns are enough. -/
def readLoop (size : Nat) : Nat → List UInt8 → Socket → Read × Socket
  | 0, done, socket => (.all done, socket)
  | turns + 1, done, socket =>
      if done.length < size then
        match recv (size - done.length) socket with
        | (.bytes data, later) => readLoop size turns (done ++ data) later
        | (.timeout, later) => (if done = [] then .timeout else .broken, later)
        | (.failure, later) => (.broken, later)
        | (.closed, later) => (.broken, later)
      else (.all done, socket)

def readAll (size : Nat) (socket : Socket) : Read × Socket := readLoop size size [] socket

/-! ## One wait -/

theorem incoming_giveBack (rest : List UInt8) (later : Socket) :
    incoming (giveBack rest later) = rest ++ incoming later := by
  cases rest <;> rfl

theorem delivered_giveBack (rest : List UInt8) (later : Socket) :
    delivered (giveBack rest later) = rest ++ delivered later := by
  cases rest <;> rfl

/-- Nothing is lost between what a wait brings and what is still to come. -/
theorem recv_bytes {want : Nat} {socket later : Socket} {data : List UInt8}
    (got : recv want socket = (.bytes data, later)) :
    incoming socket = data ++ incoming later ∧ data.length ≤ want ∧
      (0 < want → data ≠ []) := by
  match socket with
  | .bytes first more :: others =>
      simp only [recv, Prod.mk.injEq, Got.bytes.injEq] at got
      obtain ⟨rfl, rfl⟩ := got
      refine ⟨?_, List.length_take_le _ _, fun some empty => ?_⟩
      · rw [incoming_giveBack, ← List.append_assoc, List.take_append_drop]
        rfl
      · cases want with
        | zero => exact Nat.lt_irrefl _ some
        | succ want => exact List.cons_ne_nil _ _ empty

theorem recv_timeout {want : Nat} {socket later : Socket}
    (got : recv want socket = (.timeout, later)) : incoming socket = incoming later := by
  match socket with
  | .timeout :: others =>
      cases got
      rfl

/-! ## Reading all that is wanted -/

variable {size : Nat} {socket later : Socket} {data : List UInt8}

theorem readLoop_all {turns : Nat} {done : List UInt8}
    (enough : size ≤ done.length + turns) (fits : done.length ≤ size)
    (read : readLoop size turns done socket = (.all data, later)) :
    data.length = size ∧ done ++ incoming socket = data ++ incoming later := by
  induction turns generalizing done socket with
  | zero =>
      cases read
      exact ⟨Nat.le_antisymm fits enough, rfl⟩
  | succ turns ih =>
      rw [readLoop] at read
      split at read
      · rename_i missing
        split at read
        · rename_i chunk after got
          obtain ⟨same, most, some⟩ := recv_bytes got
          have more : 0 < chunk.length :=
            List.length_pos_iff.2 (some (Nat.sub_pos_of_lt missing))
          obtain ⟨full, parted⟩ := ih (by rw [List.length_append]; omega)
            (by rw [List.length_append]; omega) read
          rw [same, ← List.append_assoc]
          exact ⟨full, parted⟩
        · split at read <;> exact nomatch read
        · exact nomatch read
        · exact nomatch read
      · cases read
        exact ⟨Nat.le_antisymm fits (Nat.le_of_not_lt ‹_›), rfl⟩

/-- What was read came from the front of what was to come. -/
theorem readAll_all (read : readAll size socket = (.all data, later)) :
    data.length = size ∧ incoming socket = data ++ incoming later :=
  readLoop_all (Nat.le_add_left _ _) (Nat.zero_le _) read

theorem readLoop_timeout {turns : Nat} {done : List UInt8}
    (read : readLoop size turns done socket = (.timeout, later)) :
    done = [] ∧ incoming socket = incoming later := by
  induction turns generalizing done socket with
  | zero => exact nomatch read
  | succ turns ih =>
      rw [readLoop] at read
      split at read
      · rename_i missing
        split at read
        · rename_i chunk after got
          -- once something was read, a timeout is an error
          have nothing := (ih read).1
          exact ((recv_bytes got).2.2 (Nat.sub_pos_of_lt missing)
            (List.append_eq_nil_iff.1 nothing).2).elim
        · rename_i after got
          split at read
          · cases read
            exact ⟨‹_›, recv_timeout got⟩
          · exact nomatch read
        · exact nomatch read
        · exact nomatch read
      · exact nomatch read

/-- A timeout is only reported when nothing was read. -/
theorem readAll_timeout (read : readAll size socket = (.timeout, later)) :
    incoming socket = incoming later :=
  (readLoop_timeout read).2

/-! ## Reading what comes without a pause -/

theorem recv_delivered {want : Nat} (some : 0 < want) (there : want ≤ (delivered socket).length) :
    ∃ data later, recv want socket = (.bytes data, later) ∧ data.length ≤ want ∧ data ≠ [] ∧
      delivered socket = data ++ delivered later := by
  match socket with
  | .bytes first more :: others =>
      obtain ⟨-, most, nonempty⟩ := @recv_bytes want (.bytes first more :: others) _ _ rfl
      refine ⟨_, _, rfl, most, nonempty some, ?_⟩
      rw [delivered_giveBack, ← List.append_assoc, List.take_append_drop]
      rfl
  | [] => exact (Nat.not_le_of_lt some there).elim
  | .timeout :: _ => exact (Nat.not_le_of_lt some there).elim
  | .failure :: _ => exact (Nat.not_le_of_lt some there).elim

theorem readLoop_delivered {turns : Nat} {done : List UInt8}
    (fits : done.length ≤ size) (there : size ≤ done.length + (delivered socket).length) :
    ∃ data later, readLoop size turns done socket = (.all data, later) ∧
      done ++ delivered socket = data ++ delivered later := by
  induction turns generalizing done socket with
  | zero => exact ⟨done, socket, rfl, rfl⟩
  | succ turns ih =>
      by_cases missing : done.length < size
      · have left : size - done.length ≤ (delivered socket).length := by omega
        obtain ⟨chunk, after, got, most, -, same⟩ :=
          recv_delivered (Nat.sub_pos_of_lt missing) left
        rw [same, List.length_append] at there
        have room : (done ++ chunk).length ≤ size := by rw [List.length_append]; omega
        have rest : size ≤ (done ++ chunk).length + (delivered after).length := by
          rw [List.length_append]
          omega
        obtain ⟨data, later, read, parted⟩ := ih room rest
        refine ⟨data, later, ?_, ?_⟩
        · rw [readLoop, if_pos missing, got]
          exact read
        · rw [same, ← List.append_assoc]
          exact parted
      · exact ⟨done, socket, by rw [readLoop, if_neg missing], rfl⟩

/-- What comes without a pause is read, in whatever pieces it comes. -/
theorem readAll_delivered (there : size ≤ (delivered socket).length) :
    ∃ data later, readAll size socket = (.all data, later) ∧ data.length = size ∧
      delivered socket = data ++ delivered later ∧ incoming socket = data ++ incoming later := by
  have enough : size ≤ ([] : List UInt8).length + (delivered socket).length :=
    Nat.le_trans there (Nat.le_add_left _ _)
  obtain ⟨data, later, read, same⟩ := @readLoop_delivered size socket size [] (Nat.zero_le _) enough
  obtain ⟨full, all⟩ := readAll_all read
  exact ⟨data, later, read, full, same, all⟩

/-- What stands at the front is what is read. -/
theorem readAll_front {front rest : List UInt8} (there : delivered socket = front ++ rest) :
    ∃ later, readAll front.length socket = (.all front, later) ∧ delivered later = rest ∧
      incoming socket = front ++ incoming later := by
  have enough : front.length ≤ (delivered socket).length := by
    rw [there, List.length_append]
    exact Nat.le_add_right _ _
  obtain ⟨data, later, read, full, same, all⟩ := readAll_delivered enough
  obtain ⟨rfl, rest⟩ := List.append_inj (there.symm.trans same) full.symm
  exact ⟨later, read, rest.symm, all⟩

/-! ## Pauses -/

/-- What comes behind the first timeout, when only bytes stand in front of it. -/
def behindPause : Socket → Option Socket
  | .bytes _ _ :: later => behindPause later
  | .timeout :: later => some later
  | _ => none

theorem behindPause_giveBack (rest : List UInt8) (later : Socket) :
    behindPause (giveBack rest later) = behindPause later := by
  cases rest <;> rfl

theorem recv_behindPause {want : Nat} (got : recv want socket = (.bytes data, later)) :
    behindPause later = behindPause socket := by
  match socket with
  | .bytes first more :: others =>
      simp only [recv, Prod.mk.injEq] at got
      rw [← got.2, behindPause_giveBack]
      rfl

theorem readLoop_behindPause {turns : Nat} {done : List UInt8}
    (read : readLoop size turns done socket = (.all data, later)) :
    behindPause later = behindPause socket := by
  induction turns generalizing done socket with
  | zero =>
      cases read
      rfl
  | succ turns ih =>
      rw [readLoop] at read
      split at read
      · split at read
        · rename_i got
          exact (ih read).trans (recv_behindPause got)
        · split at read <;> cases read
        · cases read
        · cases read
      · cases read
        rfl

/-- Reading what comes in front of a pause leaves the pause. -/
theorem readAll_behindPause (read : readAll size socket = (.all data, later)) :
    behindPause later = behindPause socket :=
  readLoop_behindPause read

/-- The bytes between the timeouts, one stretch after the other. -/
def stretches : Socket → List (List UInt8)
  | .bytes first more :: later =>
      match stretches later with
      | [] => [first :: more]
      | next :: others => ((first :: more) ++ next) :: others
  | .timeout :: later => [] :: stretches later
  | _ => [[]]

/-- The first stretch is what comes without a pause, and the others come behind it. -/
theorem stretches_eq (socket : Socket) : stretches socket =
    delivered socket :: ((behindPause socket).map stretches).getD [] := by
  induction socket with
  | nil => rfl
  | cons chunk later ih =>
      cases chunk with
      | bytes first more =>
          rw [stretches, ih]
          rfl
      | timeout => rfl
      | failure => rfl

theorem stretches_giveBack (front : List UInt8) (later : Socket) :
    stretches (giveBack front later) =
      (front ++ delivered later) :: ((behindPause later).map stretches).getD [] := by
  rw [stretches_eq, delivered_giveBack, behindPause_giveBack]

/-- Whoever reads a front of the first stretch leaves the rest of it, and the others. -/
theorem stretches_read {front rest : List UInt8} {others : List (List UInt8)}
    (before : stretches socket = (front ++ rest) :: others) :
    delivered socket = front ++ rest ∧ ∀ later, delivered later = rest →
      behindPause later = behindPause socket → stretches later = rest :: others := by
  rw [stretches_eq, List.cons.injEq] at before
  refine ⟨before.1, fun later left pause => ?_⟩
  rw [stretches_eq, left, pause, before.2]

theorem stretches_paused {next : List UInt8} {others : List (List UInt8)}
    (before : stretches socket = [] :: next :: others) :
    ∃ later, socket = .timeout :: later ∧ stretches later = next :: others := by
  rw [stretches_eq, List.cons.injEq] at before
  obtain ⟨nothing, behind⟩ := before
  cases pause : behindPause socket with
  | none =>
      rw [pause] at behind
      cases behind
  | some later =>
      rw [pause] at behind
      match socket with
      | .timeout :: others =>
          cases pause
          exact ⟨later, rfl, behind⟩

/-! ## Whole messages -/

/-- Between two states of the socket so many whole messages were taken from it. -/
def Passed (whole : List UInt8 → Prop) (count : Nat) (before after : Socket) : Prop :=
  ∃ messages : List (List UInt8), messages.length = count ∧
    (∀ message ∈ messages, whole message) ∧ incoming before = messages.flatten ++ incoming after

section Passed

variable {whole : List UInt8 → Prop} {before between after : Socket} {first second : Nat}

theorem passed_none (same : incoming before = incoming after) : Passed whole 0 before after :=
  ⟨[], rfl, nofun, same⟩

theorem passed_one {message : List UInt8} (entire : whole message)
    (parted : incoming before = message ++ incoming after) : Passed whole 1 before after := by
  refine ⟨[message], rfl, fun other listed => ?_, ?_⟩
  · rwa [List.mem_singleton.1 listed]
  · rw [parted, List.flatten_cons, List.flatten_nil, List.append_nil]

theorem Passed.trans (one : Passed whole first before between)
    (two : Passed whole second between after) : Passed whole (first + second) before after := by
  obtain ⟨messages, count, all, parted⟩ := one
  obtain ⟨others, count', all', parted'⟩ := two
  refine ⟨messages ++ others, ?_, fun message listed => ?_, ?_⟩
  · rw [List.length_append, count, count']
  · rcases List.mem_append.1 listed with here | there
    · exact all message here
    · exact all' message there
  · rw [parted, parted', List.flatten_append, List.append_assoc]

end Passed

end Camd
