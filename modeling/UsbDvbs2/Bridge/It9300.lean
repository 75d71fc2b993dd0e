import UsbDvbs2.Bytes.Entries
import UsbDvbs2.Concurrency.Walk

/-! # Commands to the USB bridge

`it9300_ctrl_msg` and the device at the other end. The device answers a command
with one reply that echoes its sequence byte; replies wait in order until a
transfer takes them, which may be long after the host has given up on them. The
host looks at the checksum and the status of what it is brought, and at nothing
else.
-/

namespace Bridge

open Bytes Concurrency

def bufLen : Nat := 255
def reqHdrLen : Nat := 4
def ackHdrLen : Nat := 3
def checksumLen : Nat := 2

def cmdIrGet : UInt8 := 0x18
def cmdFwDl : UInt8 := 0x21

/-! ## Messages -/

/-- Every other byte goes into the high half. -/
def sumFrom : Bool → List UInt8 → UInt16
  | _, [] => 0
  | high, byte :: bytes =>
      (if high then byte.toUInt16 <<< 8 else byte.toUInt16) + sumFrom (!high) bytes

/-- `it9300_checksum`, over all of the bytes but the first. -/
def it9300Checksum (bytes : List UInt8) : UInt16 := ~~~ sumFrom true (bytes.drop 1)

structure Command where
  cmd : UInt8
  mbox : UInt8
  wbuf : List UInt8
  rlen : Nat
  deriving DecidableEq

/-- Too long for the buffer. -/
def Command.oversized (command : Command) : Prop :=
  bufLen - reqHdrLen - checksumLen < command.wbuf.length ∨
    bufLen - ackHdrLen - checksumLen < command.rlen

instance (command : Command) : Decidable command.oversized := inferInstanceAs (Decidable (_ ∨ _))

/-- The message that is sent. -/
def Command.request (command : Command) (seq : UInt8) : List UInt8 :=
  let head := [UInt8.ofNat (reqHdrLen + command.wbuf.length + checksumLen - 1), command.mbox,
    command.cmd, seq] ++ command.wbuf
  let checksum := it9300Checksum head
  head ++ [(checksum >>> 8).toUInt8, checksum.toUInt8]

/-- The bytes that are asked for in reply. -/
def Command.rtot (command : Command) : Nat := ackHdrLen + command.rlen + checksumLen

/-- A reply, with the sequence byte of its command in its place. -/
structure Reply where
  first : UInt8
  seq : UInt8
  rest : List UInt8
  deriving DecidableEq

def Reply.bytes (reply : Reply) : List UInt8 := reply.first :: reply.seq :: reply.rest

def Reply.status (reply : Reply) : UInt8 := reply.bytes.getD 2 0

/-! ## One exchange -/

/-- The host's counter, and the replies that no transfer has taken. -/
structure Link where
  seq : UInt8
  outstanding : List Reply

/-- A transfer towards the host. -/
inductive Transfer where
  /-- the next reply, or only its first bytes -/
  | brings (count : Nat)
  /-- an error; the next reply may be lost with it -/
  | fails (code : Nat) (loses : Bool)
  deriving DecidableEq

/-- A call, and what the device and the bus do about it. -/
structure Exchange where
  command : Command
  /-- an error of the transfer towards the device -/
  unsent : Option Nat
  /-- the device has the command in spite of it -/
  reached : Bool
  /-- what the device puts around the sequence byte -/
  first : UInt8
  rest : List UInt8
  transfer : Transfer
  /-- what the buffer holds behind the request -/
  stack : List UInt8

/-- What comes of a call: its return value, the reply that it took with the number
of bytes that were transferred, and the payload. -/
structure Outcome where
  code : Int
  taken : Option (Reply × Nat)
  rbuf : List UInt8
  deriving DecidableEq

/-- The checks on the buffer. -/
def Command.accept (command : Command) (buf : List UInt8) : Int :=
  let checksum := (buf.getD (command.rtot - 2) 0).toUInt16 <<< 8 |||
    (buf.getD (command.rtot - 1) 0).toUInt16
  if checksum ≠ it9300Checksum (buf.take (command.rtot - 2)) then -2
  else if buf.getD 2 0 ≠ 0 then
    if command.cmd = cmdIrGet ∨ buf.getD 2 0 = 1 then 1 else -3
  else 0

/-- The replies that wait once the command is sent. -/
def Link.waiting (link : Link) (exchange : Exchange) : List Reply :=
  if (exchange.unsent.isNone || exchange.reached) && exchange.command.cmd != cmdFwDl then
    link.outstanding ++ [⟨exchange.first, link.seq, exchange.rest⟩]
  else link.outstanding

/-- The bytes of a reply that a transfer brings. -/
def Exchange.received (exchange : Exchange) (reply : Reply) (count : Nat) : List UInt8 :=
  reply.bytes.take (min count exchange.command.rtot)

/-- `it9300_ctrl_msg`. -/
def Link.ctrlMsg (link : Link) (exchange : Exchange) : Link × Outcome :=
  let command := exchange.command
  if command.oversized then (link, ⟨-1, none, []⟩)
  else
    let waiting := link.waiting exchange
    let sent : Link := ⟨link.seq + 1, waiting⟩
    match exchange.unsent with
    | some code => (sent, ⟨.negSucc code, none, []⟩)
    | none =>
        if command.cmd = cmdFwDl then (sent, ⟨0, none, []⟩)
        else
          match exchange.transfer, waiting with
          | .brings count, reply :: later =>
              let received := exchange.received reply count
              let buf := received ++
                (command.request link.seq ++ exchange.stack).drop received.length
              let code := command.accept buf
              ({ sent with outstanding := later },
                ⟨code, some (reply, received.length),
                  if code = 0 then (buf.drop ackHdrLen).take command.rlen else []⟩)
          | .brings _, [] => (sent, ⟨-7, none, []⟩)
          | .fails code loses, waiting =>
              ({ sent with outstanding := if loses then waiting.tail else waiting },
                ⟨.negSucc code, none, []⟩)

def Link.next (link : Link) (exchange : Exchange) : Link := (link.ctrlMsg exchange).1

def Link.outcome (link : Link) (exchange : Exchange) : Outcome := (link.ctrlMsg exchange).2

/-- A call that returns 0 with a reply has taken its own, with all of the payload. -/
def Link.Matched (link : Link) (exchange : Exchange) : Prop :=
  (link.outcome exchange).code = 0 → ∀ reply count,
    (link.outcome exchange).taken = some (reply, count) →
      reply.seq = link.seq ∧ ackHdrLen + exchange.command.rlen ≤ count

/-! ### What a run may do -/

/-- The host reads a reply. -/
def Exchange.Reads (exchange : Exchange) : Prop :=
  ¬ exchange.command.oversized ∧ exchange.unsent = none ∧ exchange.command.cmd ≠ cmdFwDl

/-- The reply to the command stays behind: the device has a command that seemed not to
be sent, or the read fails without losing the reply. -/
def Exchange.LeavesReply (exchange : Exchange) : Prop :=
  ¬ exchange.command.oversized ∧ exchange.command.cmd ≠ cmdFwDl ∧
    match exchange.unsent, exchange.transfer with
    | some _, _ => exchange.reached = true
    | none, .fails _ loses => loses = false
    | none, .brings _ => False

/-- The bytes that a read can bring of the reply to the command. -/
def Exchange.ownCount (exchange : Exchange) (count : Nat) : Nat :=
  min (min count exchange.command.rtot) (exchange.rest.length + 2)

/-- No reply stays behind, and a read that succeeds brings the header and, of a reply that
reports success, the payload. -/
structure Exchange.Prompt (exchange : Exchange) : Prop where
  leaves : ¬ exchange.LeavesReply
  whole : exchange.Reads → ∀ count, exchange.transfer = .brings count →
    ackHdrLen ≤ exchange.ownCount count ∧
      (exchange.rest.getD 0 0 = 0 → ackHdrLen + exchange.command.rlen ≤ exchange.ownCount count)

/-! ## What a call takes -/

theorem Command.accept_status {command : Command} {buf : List UInt8}
    (accepted : command.accept buf = 0) : buf.getD 2 0 = 0 := by
  simp only [accept] at accepted
  split at accepted
  · exact nomatch accepted
  · split at accepted
    · split at accepted <;> exact nomatch accepted
    · rename_i clear
      exact not_not.1 clear

variable {link final : Link} {exchange : Exchange} {reply : Reply} {count : Nat}

/-- A call takes the reply that is next in line, and returns what the checks on the
buffer say. -/
theorem Link.outcome_taken (taken : (link.outcome exchange).taken = some (reply, count)) :
    exchange.Reads ∧ ∃ brought, exchange.transfer = .brings brought ∧
      reply ∈ (link.waiting exchange).head? ∧
      count = (exchange.received reply brought).length ∧
      (link.outcome exchange).code = exchange.command.accept (exchange.received reply brought ++
        (exchange.command.request link.seq ++ exchange.stack).drop count) := by
  simp only [outcome, ctrlMsg] at taken ⊢
  split at taken
  · exact nomatch taken
  rename_i fits
  rw [if_neg fits]
  split at taken
  · exact nomatch taken
  rename_i sent
  split at taken
  · exact nomatch taken
  rename_i answered
  simp only [if_neg answered]
  split at taken
  · rename_i brought next later transfer waiting
    obtain ⟨rfl, rfl⟩ := Prod.mk.inj (Option.some.inj taken)
    exact ⟨⟨fits, sent, answered⟩, brought, transfer, by rw [waiting]; rfl, rfl, rfl⟩
  · exact nomatch taken
  · exact nomatch taken

/-- Once the header is there, the status is the reply's. -/
theorem Exchange.received_status
    (header : ackHdrLen ≤ (exchange.received reply count).length) (behind : List UInt8) :
    (exchange.received reply count ++ behind).getD 2 0 = reply.status := by
  have third : 2 < (exchange.received reply count).length := header
  have inside : 2 < min count exchange.command.rtot := by
    rw [received, List.length_take] at third
    omega
  rw [List.getD_eq_getElem?_getD, List.getElem?_append_left third, received,
    List.getElem?_take_of_lt inside, ← List.getD_eq_getElem?_getD]
  rfl

theorem Exchange.length_received (seq : UInt8) :
    (exchange.received ⟨exchange.first, seq, exchange.rest⟩ count).length =
      exchange.ownCount count := by
  rw [received, List.length_take]
  rfl

/-- Behind what is outstanding comes the reply to the command. -/
theorem Link.waiting_reads (reads : exchange.Reads) : link.waiting exchange =
    link.outstanding ++ [⟨exchange.first, link.seq, exchange.rest⟩] := by
  obtain ⟨-, sent, answered⟩ := reads
  rw [waiting, sent, Option.isNone_none, Bool.true_or, Bool.true_and,
    if_pos (bne_iff_ne.2 answered)]

/-- With nothing outstanding a call can only take its own reply. -/
theorem Link.matched_of_nothing (nothing : link.outstanding = []) (prompt : exchange.Prompt) :
    link.Matched exchange := by
  intro accepted reply count taken
  obtain ⟨reads, brought, transfer, next, size, code⟩ := outcome_taken taken
  rw [waiting_reads reads, nothing] at next
  obtain rfl := Option.some.inj next
  obtain ⟨header, payload⟩ := prompt.whole reads brought transfer
  rw [← Exchange.length_received link.seq] at header payload
  have status : exchange.rest.getD 0 0 = 0 := by
    have third := Exchange.received_status header
      ((exchange.command.request link.seq ++ exchange.stack).drop count)
    rw [code] at accepted
    exact third.symm.trans (Command.accept_status accepted)
  rw [size]
  exact ⟨rfl, payload status⟩

/-! ## What stays outstanding -/

theorem Link.next_reads (reads : exchange.Reads) : (link.next exchange).outstanding =
    match exchange.transfer with
    | .brings _ => (link.waiting exchange).tail
    | .fails _ loses =>
        if loses then (link.waiting exchange).tail else link.waiting exchange := by
  obtain ⟨fits, sent, answered⟩ := reads
  simp only [next, ctrlMsg, if_neg fits, sent, if_neg answered]
  cases exchange.transfer with
  | brings count => cases link.waiting exchange <;> rfl
  | fails code loses => rfl

theorem Link.next_unread (unread : ¬ exchange.Reads) : (link.next exchange).outstanding =
    if exchange.command.oversized then link.outstanding else link.waiting exchange := by
  simp only [next, ctrlMsg]
  split
  · rfl
  rename_i fits
  cases sent : exchange.unsent with
  | some code => rfl
  | none =>
      have silent : exchange.command.cmd = cmdFwDl :=
        by_contra fun answered => unread ⟨fits, sent, answered⟩
      simp only [if_pos silent]

/-- An exchange keeps the order of the replies that wait. -/
theorem Link.waiting_late (late : link.outstanding ≠ []) :
    (link.waiting exchange).head? = link.outstanding.head? := by
  unfold waiting
  split
  · obtain ⟨first, others, same⟩ := List.exists_cons_of_ne_nil late
    rw [same]
    rfl
  · rfl

/-- A link that is behind stays behind: what a read takes is made up for by the reply to
its own command. -/
theorem Link.next_late (late : link.outstanding ≠ []) : (link.next exchange).outstanding ≠ [] := by
  obtain ⟨first, others, same⟩ := List.exists_cons_of_ne_nil late
  by_cases reads : exchange.Reads
  · rw [next_reads reads, waiting_reads reads, same]
    cases exchange.transfer with
    | brings count => exact List.append_ne_nil_of_right_ne_nil _ (List.cons_ne_nil _ _)
    | fails code loses =>
        cases loses with
        | true => exact List.append_ne_nil_of_right_ne_nil _ (List.cons_ne_nil _ _)
        | false => exact List.cons_ne_nil _ _
  · rw [next_unread reads]
    split
    · exact late
    · intro nothing
      have head := @Link.waiting_late link exchange late
      rw [nothing, same] at head
      exact nomatch head

/-- With nothing outstanding, something is outstanding afterwards exactly when the reply to
the command stays behind. -/
theorem Link.next_nothing_iff (nothing : link.outstanding = []) :
    (link.next exchange).outstanding = [] ↔ ¬ exchange.LeavesReply := by
  unfold Exchange.LeavesReply
  by_cases reads : exchange.Reads
  · rw [next_reads reads, waiting_reads reads, nothing, reads.2.1]
    cases exchange.transfer with
    | brings count => exact iff_of_true rfl fun leaves => leaves.2.2
    | fails code loses =>
        cases loses with
        | true => exact iff_of_true rfl fun leaves => nomatch leaves.2.2
        | false => exact iff_of_false nofun fun stays => stays ⟨reads.1, reads.2.2, rfl⟩
  · rw [next_unread reads]
    split
    · rename_i oversized
      exact iff_of_true nothing fun leaves => leaves.1 oversized
    · rename_i fits
      by_cases answered : exchange.command.cmd = cmdFwDl
      · rw [waiting, answered, bne_self_eq_false, Bool.and_false, if_neg Bool.false_ne_true]
        exact iff_of_true nothing fun leaves => leaves.2.1 rfl
      · cases sent : exchange.unsent with
        | none => exact (reads ⟨fits, sent, answered⟩).elim
        | some code =>
            rw [waiting, sent, bne_iff_ne.2 answered, nothing]
            cases exchange.reached with
            | true => exact iff_of_false nofun fun stays => stays ⟨fits, answered, rfl⟩
            | false => exact iff_of_true rfl fun leaves => nomatch leaves.2.2

/-! ## Runs -/

/-- **Replies are matched while none stays behind.** In every run of calls from a link with
nothing outstanding, in which no reply stays behind and no read is short of the payload of
a success, every call that returns 0 with a reply has taken the one with its own sequence
number and all of its payload. -/
theorem replies_matched {seq : UInt8} {final : Link} {runs : List (Moved Link Exchange)}
    (walk : Walk (stepOf Link.next) ⟨seq, []⟩ runs final)
    (prompt : ∀ moved ∈ runs, moved.event.Prompt) :
    ∀ moved ∈ runs, moved.before.Matched moved.event := by
  refine walk.wanted_of_allowed (fun link => link.outstanding = [])
    (fun moved => moved.event.Prompt) _ (fun moved step allowed nothing => ?_) rfl prompt
  have after : moved.after = moved.before.next moved.event := step
  refine ⟨?_, Link.matched_of_nothing nothing allowed⟩
  rw [after]
  exact (Link.next_nothing_iff nothing).2 allowed.leaves

/-- Once a reply stayed behind, every reply that is taken is that of an earlier call. -/
theorem replies_shifted {runs : List (Moved Link Exchange)}
    (walk : Walk (stepOf Link.next) link runs final) (late : link.outstanding ≠ []) :
    ∀ moved ∈ runs, ∀ reply count, (moved.before.outcome moved.event).taken = some (reply, count) →
      reply ∈ moved.before.outstanding.head? := by
  refine walk.wanted_of_allowed (fun link => link.outstanding ≠ []) (fun _ => True) _
    (fun moved step _ late => ?_) late fun _ _ => trivial
  have after : moved.after = moved.before.next moved.event := step
  refine ⟨after ▸ Link.next_late late, fun reply count taken => ?_⟩
  obtain ⟨-, brought, -, next, -⟩ := Link.outcome_taken taken
  rwa [Link.waiting_late late] at next

/-! ### Two register writes -/

/-- A register write whose reply reports success. -/
def writeWith (checksum : List UInt8) (transfer : Transfer) : Exchange where
  command := ⟨0x01, 0, [1, 2, 0, 0, 0xd8, 0xb0, 1], 0⟩
  unsent := none
  reached := true
  first := 4
  rest := 0 :: checksum
  transfer := transfer
  stack := []

theorem prompt_writeWith (checksum : List UInt8) :
    (writeWith checksum (.brings 5)).Prompt where
  leaves := fun leaves => leaves.2.2
  whole := by
    rintro - count ⟨⟩
    refine ⟨?_, fun _ => ?_⟩ <;>
      (simp only [Exchange.ownCount, writeWith, Command.rtot, ackHdrLen, checksumLen,
        List.length_cons]
       omega)

theorem replies_matched_twice :
    (moves Link.next ⟨0, []⟩
        [writeWith [0xff, 0xff] (.brings 5), writeWith [0xfe, 0xff] (.brings 5)]).all
        (fun moved => (moved.before.outcome moved.event).code == 0) = true ∧
      ∀ moved ∈ moves Link.next ⟨0, []⟩
          [writeWith [0xff, 0xff] (.brings 5), writeWith [0xfe, 0xff] (.brings 5)],
        moved.before.Matched moved.event := by
  have prompt : ∀ moved ∈ moves Link.next ⟨0, []⟩
      [writeWith [0xff, 0xff] (.brings 5), writeWith [0xfe, 0xff] (.brings 5)],
      moved.event.Prompt := by
    simp only [moves, List.forall_mem_cons, List.not_mem_nil, false_imp_iff, implies_true, and_true]
    exact ⟨prompt_writeWith _, prompt_writeWith _⟩
  exact ⟨by decide +kernel, replies_matched (walk_moves _ _ _) prompt⟩

/-- The first write times out, and the second takes its reply. -/
theorem reply_of_another_command :
    ∃ moved ∈ moves Link.next ⟨0, []⟩
        [writeWith [0xff, 0xff] (.fails 6 false), writeWith [0xfe, 0xff] (.brings 5)],
      (moved.before.outcome moved.event).taken = some (⟨4, 0, [0, 0xff, 0xff]⟩, 5) ∧
        ¬ moved.before.Matched moved.event := by
  have accepts : ∃ moved ∈ moves Link.next ⟨0, []⟩
      [writeWith [0xff, 0xff] (.fails 6 false), writeWith [0xfe, 0xff] (.brings 5)],
      (moved.before.outcome moved.event).code = 0 ∧ moved.before.seq = 1 ∧
        (moved.before.outcome moved.event).taken = some (⟨4, 0, [0, 0xff, 0xff]⟩, 5) := by
    decide +kernel
  obtain ⟨moved, member, accepted, seq, taken⟩ := accepts
  refine ⟨moved, member, taken, fun matched => ?_⟩
  have own := (matched accepted _ _ taken).1
  rw [seq] at own
  exact absurd own (by decide)

end Bridge
