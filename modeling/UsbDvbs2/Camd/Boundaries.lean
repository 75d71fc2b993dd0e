import UsbDvbs2.Camd.Cs378xWire
import UsbDvbs2.Camd.NewcamdWire
import UsbDvbs2.Camd.Worker
import UsbDvbs2.Concurrency.Ledger

/-! # Message boundaries

What the readers of both protocols leave behind on the socket: nothing was taken at a
timeout, one whole message at every other result that is not fatal. The loops of `recv_cw`
pass whole messages, and after a fatal result the worker closes the connection before it
uses it again.
-/

namespace Camd

open Bytes Crypt Cipher Concurrency Program ThreadSystem

/-- How many whole messages were passed when a result lets the connection go on. -/
def OnBoundary (whole : List UInt8 → Prop) (passed : Option Nat) (before after : Socket) : Prop :=
  ∀ count, passed = some count → Passed whole count before after

/-- A reader passed whole messages, however many. -/
def PassedSome (whole : List UInt8 → Prop) (before after : Socket) : Prop :=
  ∃ count, Passed whole count before after

theorem Passed.passedSome {whole : List UInt8 → Prop} {count : Nat} {before after : Socket}
    (passed : Passed whole count before after) : PassedSome whole before after := ⟨count, passed⟩

theorem Passed.and_then {whole : List UInt8 → Prop} {count : Nat} {before between after : Socket}
    (passed : Passed whole count before between) (more : PassedSome whole between after) :
    PassedSome whole before after := by
  obtain ⟨others, rest⟩ := more
  exact ⟨count + others, passed.trans rest⟩

def Arrival.passed : Arrival → Option Nat
  | .silence => some 0
  | .broken _ => none
  | .message .. => some 1

/-! ## newcamd -/

namespace Newcamd

/-- Two length bytes, and as many bytes as they say, in whole cipher blocks. -/
def Whole (message : List UInt8) : Prop :=
  message.length = lengthAt message + 2 ∧ 16 ≤ lengthAt message ∧
    lengthAt message ≤ camdMsgSize - 2 ∧ lengthAt message % 8 = 0

def Received.passed : Received → Option Nat
  | .timeout => some 0
  | .fatal => none
  | .stale | .payload .. => some 1

variable {key : Vector UInt8 16} {mark : Source} {socket later : Socket}

theorem openMessage_message {head body bytes : List UInt8} {source : Source}
    (opened : openMessage key mark head body = .message source bytes) : body.length % 8 = 0 := by
  by_cases aligned : body.length % 8 = 0
  · exact aligned
  · rw [openMessage, if_pos (.inl aligned)] at opened
    contradiction

theorem openMessage_ne_silence (head body : List UInt8) :
    openMessage key mark head body ≠ .silence := by
  rw [openMessage]
  split
  · intro silent
    contradiction
  · simp only
    split <;>
      (intro silent; contradiction)

theorem lengthAt_append {head : List UInt8} (two : head.length = 2) (body : List UInt8) :
    lengthAt (head ++ body) = lengthAt head := by
  rw [lengthAt, lengthAt, octet_append (by omega), octet_append (by omega)]

theorem readMessage_boundary {arrival : Arrival}
    (read : readMessage key mark socket = (arrival, later)) :
    OnBoundary Whole arrival.passed socket later := by
  intro count counted
  rw [readMessage] at read
  split at read
  · rename_i between first
    cases read
    cases counted
    exact passed_none (readAll_timeout first)
  · cases read
    contradiction
  · rename_i head between first
    split at read
    · cases read
      contradiction
    · rename_i inside
      split at read
      · rename_i body after second
        cases read
        obtain ⟨two, parted⟩ := readAll_all first
        obtain ⟨full, parted'⟩ := readAll_all second
        cases opened : openMessage key mark head body with
        | silence => exact (openMessage_ne_silence head body opened).elim
        | broken text =>
            rw [opened] at counted
            contradiction
        | message source bytes =>
            rw [opened] at counted
            cases counted
            have aligned := openMessage_message opened
            have length := lengthAt_append two body
            have entire : Whole (head ++ body) := by
              rw [Whole, length, List.length_append, two, full]
              rw [full] at aligned
              refine ⟨Nat.add_comm _ _, ?_, ?_, aligned⟩ <;> omega
            refine passed_one entire ?_
            rw [parted, parted', List.append_assoc]
      · cases read
        contradiction
      · cases read
        contradiction

/-- What `recv_message` returns without an error was a timeout or a message. -/
theorem recvMessage_passed {useMsgId : Bool} {msgId : UInt16} {error : String} {arrival : Arrival}
    {count : Nat} (passed : (recvMessage useMsgId msgId error arrival).1.passed = some count) :
    arrival.passed = some count := by
  cases arrival with
  | silence => exact passed
  | broken text => contradiction
  | message source bytes =>
      rw [recvMessage] at passed
      split at passed
      · exact passed
      · split at passed
        · contradiction
        · exact passed

/-- `recv_message` leaves the socket on a boundary unless its result is fatal. -/
theorem receive_boundary (link : Link) (useMsgId : Bool) (mark : Source) (socket : Socket) :
    OnBoundary Whole (receive link useMsgId mark socket).1.passed socket
      (receive link useMsgId mark socket).2.2 :=
  fun count passed => readMessage_boundary rfl count (recvMessage_passed passed)

/-! ### A control word -/

/-- The loop of `newcamd_recv_cw`, with the messages it may still read. -/
def recvCwFrom (marks : Nat → Source) : Nat → Link → Socket → Verdict × Link × Socket
  | 0, link, socket => (.fatal, { link with error := "newcamd: no answer to the ECM" }, socket)
  | left + 1, link, socket =>
      match receive link true (marks left) socket with
      | (.timeout, link, later) => (.refused, link, later)
      | (.fatal, link, later) => (.fatal, link, later)
      | (.stale, link, later) => recvCwFrom marks left link later
      | (.payload source payload, link, later) =>
          if isEcmTable payload then
            let done := conclude source payload link.error
            (done.1, { link with error := done.2 }, later)
          else recvCwFrom marks left link later

/-- Any number of messages is read past, always whole ones. -/
theorem recvCwFrom_boundary (marks : Nat → Source) (left : Nat) (link : Link) (socket : Socket)
    (goesOn : (recvCwFrom marks left link socket).1 ≠ .fatal) :
    PassedSome Whole socket (recvCwFrom marks left link socket).2.2 := by
  induction left generalizing link socket with
  | zero => exact (goesOn rfl).elim
  | succ left ih =>
      have step := receive_boundary link true (marks left) socket
      rw [recvCwFrom] at goesOn ⊢
      generalize receive link true (marks left) socket = got at step goesOn ⊢
      obtain ⟨received, link', later⟩ := got
      cases received with
      | timeout => exact (step 0 rfl).passedSome
      | fatal => exact (goesOn rfl).elim
      | stale => exact (step 1 rfl).and_then (ih link' later goesOn)
      | payload source payload =>
          by_cases answer : isEcmTable payload = true
          · simp only [if_pos answer]
            exact (step 1 rfl).passedSome
          · simp only [if_neg answer] at goesOn ⊢
            exact (step 1 rfl).and_then (ih link' later goesOn)

def msgKeepalive : UInt8 := 0xe0 + 0x1d

/-- `newcamd_keepalive`: the echo is read back. -/
def keepaliveOn (link : Link) (padding iv : Block) (writable : Bool) (mark : Source)
    (socket : Socket) : Int × Link × Socket :=
  let sent := sendMessage link [msgKeepalive, 0, 0] 0 0 0 false padding iv writable
  match sent.1 with
  | none => (-1, sent.2, socket)
  | some _ =>
      match receive sent.2 false mark socket with
      | (.payload _ _, link, later) => (1, link, later)
      | (.timeout, link, later) | (.fatal, link, later) | (.stale, link, later) => (-1, link, later)

theorem keepaliveOn_boundary (link : Link) (padding iv : Block) (writable : Bool) (mark : Source)
    (socket : Socket) (goesOn : ¬ (keepaliveOn link padding iv writable mark socket).1 < 0) :
    PassedSome Whole socket (keepaliveOn link padding iv writable mark socket).2.2 := by
  rw [keepaliveOn] at goesOn ⊢
  generalize sendMessage link [msgKeepalive, 0, 0] 0 0 0 false padding iv writable = sent
    at goesOn ⊢
  obtain ⟨wire, link'⟩ := sent
  cases wire with
  | none => exact (goesOn (by decide : (-1 : Int) < 0)).elim
  | some wire =>
      have step := receive_boundary link' false mark socket
      dsimp only at goesOn ⊢
      generalize receive link' false mark socket = got at step goesOn ⊢
      obtain ⟨received, link'', later⟩ := got
      cases received with
      | payload source payload => exact (step 1 rfl).passedSome
      | timeout => exact (goesOn (by decide : (-1 : Int) < 0)).elim
      | fatal => exact (goesOn (by decide : (-1 : Int) < 0)).elim
      | stale => exact (goesOn (by decide : (-1 : Int) < 0)).elim

/-! ### The same loop over arrivals -/

/-- What the reader makes of the socket, one message after the other. -/
def arrivals (key : Vector UInt8 16) (marks : Nat → Source) : Nat → Socket → List Arrival
  | 0, _ => []
  | left + 1, socket =>
      let read := readMessage key (marks left) socket
      read.1 :: arrivals key marks left read.2

/-- The loop sees the socket as the arrivals on it. -/
theorem recvCwFrom_arrivals (marks : Nat → Source) {left attempts : Nat} (link : Link)
    (socket : Socket) (counted : attempts + left = maxAttempts) :
    (recvCwFrom marks (left + 1) link socket).1 =
      (recvCw link.msgId attempts link.error
        (arrivals link.activeKey marks (left + 1) socket)).1 := by
  induction left generalizing attempts link socket with
  | zero =>
      have last : maxAttempts < attempts + 1 := by omega
      rw [recvCwFrom, arrivals, recvCw, receive]
      simp only [if_pos last]
      generalize recvMessage true link.msgId link.error _ = got
      obtain ⟨received, error⟩ := got
      cases received with
      | payload source payload =>
          by_cases answer : isEcmTable payload = true
          · simp only [if_pos answer]
          · simp only [if_neg answer, recvCwFrom]
      | _ => rfl
  | succ left ih =>
      have more : ¬ maxAttempts < attempts + 1 := by omega
      have next : attempts + 1 + left = maxAttempts := by omega
      rw [recvCwFrom, arrivals, recvCw, receive]
      simp only [if_neg more]
      generalize recvMessage true link.msgId link.error _ = got
      obtain ⟨received, error⟩ := got
      cases received with
      | stale => exact ih { link with error } _ next
      | payload source payload =>
          by_cases answer : isEcmTable payload = true
          · simp only [if_pos answer]
          · simp only [if_neg answer]
            exact ih { link with error } _ next
      | _ => rfl

end Newcamd

/-! ## cs378x -/

namespace Cs378x

/-- A token, and as many blocks as the first of them announces. -/
def Whole (schedule : List UInt32) (message : List UInt8) : Prop :=
  20 ≤ message.length ∧ message.length = 4 + messageLength
    (dtvAes128DecryptBlock schedule (headBlock 16 (message.drop 4))).toList

variable {schedule : List UInt32} {mark : Source} {socket later : Socket}

theorem recvBlocks_ne_silence (turns expected : Nat) (data : List UInt8) :
    (recvBlocks schedule mark turns expected data socket).1 ≠ .silence := by
  induction turns generalizing expected data socket with
  | zero => exact Arrival.noConfusion
  | succ turns ih =>
      rw [recvBlocks]
      split
      · split
        · exact Arrival.noConfusion
        · split
          · exact ih _ _
          · exact Arrival.noConfusion
          · exact Arrival.noConfusion
      · exact Arrival.noConfusion

/-- From the second block on as many bytes are taken as are still expected. -/
theorem recvBlocks_rest {turns expected : Nat} {data bytes : List UInt8} {source : Source}
    (started : data ≠ []) (left : ∃ count, expected = data.length + 16 * count)
    (read : recvBlocks schedule mark turns expected data socket = (.message source bytes, later)) :
    ∃ taken, incoming socket = taken ++ incoming later ∧ data.length + taken.length = expected := by
  induction turns generalizing data socket with
  | zero => cases read
  | succ turns ih =>
      rw [recvBlocks] at read
      split at read
      · rename_i short
        split at read
        · cases read
        · split at read
          · rename_i cipher between first
            obtain ⟨full, parted⟩ := readAll_all first
            obtain ⟨count, rfl⟩ := left
            obtain ⟨count, rfl⟩ : ∃ before, count = before + 1 :=
              Nat.exists_eq_add_one_of_ne_zero (by omega)
            have size : (data ++
                (dtvAes128DecryptBlock schedule (headBlock 16 cipher)).toList).length =
                  data.length + 16 := by rw [List.length_append, Vector.length_toList]
            have begun : data ++
                (dtvAes128DecryptBlock schedule (headBlock 16 cipher)).toList ≠ [] :=
              fun none => started (List.append_eq_nil_iff.1 none).1
            obtain ⟨taken, parted', sum⟩ := ih begun ⟨count, by rw [size]; omega⟩ read
            refine ⟨cipher ++ taken, ?_, ?_⟩
            · rw [parted, parted', List.append_assoc]
            · rw [size] at sum
              rw [List.length_append, full]
              omega
          · cases read
          · cases read
      · cases read
        obtain ⟨count, rfl⟩ := left
        exact ⟨[], rfl, by simp only [List.length_nil]; omega⟩

/-- The blocks of a message, the first of which says how many there are. -/
theorem recvBlocks_message {bytes : List UInt8} {source : Source}
    (read : recvBlocks schedule mark 65 dataSize [] socket = (.message source bytes, later)) :
    ∃ first taken, incoming socket = first ++ taken ++ incoming later ∧ first.length = 16 ∧
      (first ++ taken).length =
        messageLength (dtvAes128DecryptBlock schedule (headBlock 16 first)).toList := by
  rw [recvBlocks, if_pos (by decide), if_neg (by decide)] at read
  split at read
  · rename_i first between got
    obtain ⟨full, parted⟩ := readAll_all got
    simp only [List.nil_append, if_true] at read
    have size : (dtvAes128DecryptBlock schedule (headBlock 16 first)).toList.length = 16 :=
      Vector.length_toList
    have started : (dtvAes128DecryptBlock schedule (headBlock 16 first)).toList ≠ [] := by
      intro none
      rw [none] at size
      contradiction
    obtain ⟨aligned, least, -⟩ := roundToBlock_bounds
      (octet (dtvAes128DecryptBlock schedule (headBlock 16 first)).toList 1 + 20)
    obtain ⟨taken, parted', sum⟩ := recvBlocks_rest started
      ⟨messageLength (dtvAes128DecryptBlock schedule (headBlock 16 first)).toList / 16 - 1, by
        rw [size, messageLength]
        omega⟩ read
    refine ⟨first, taken, ?_, full, ?_⟩
    · rw [parted, parted', List.append_assoc]
    · rw [List.length_append, full, ← sum, size]
  · cases read
  · cases read

/-- `cs378x_recv` leaves the socket on a boundary unless its result is fatal. -/
theorem receive_boundary (link : Link) (mark : Source) (socket : Socket) :
    OnBoundary (Whole (dtvAes128SetKey link.aesKey)) (receive link mark socket).1.passed socket
      (receive link mark socket).2.2 := by
  intro count counted
  rw [receive] at counted ⊢
  split at counted
  · rename_i later first
    cases counted
    exact passed_none (readAll_timeout first)
  · contradiction
  · rename_i token between first
    obtain ⟨four, parted⟩ := readAll_all first
    cases read : recvBlocks (dtvAes128SetKey link.aesKey) mark 65 dataSize [] between with
    | mk arrival later =>
        rw [read] at counted
        cases arrival with
        | silence => exact (recvBlocks_ne_silence 65 dataSize [] (congrArg Prod.fst read)).elim
        | broken text => contradiction
        | message source bytes =>
            cases counted
            obtain ⟨front, taken, parted', sixteen, length⟩ := recvBlocks_message read
            have behind : (token ++ (front ++ taken)).drop 4 = front ++ taken :=
              List.drop_left' four
            have head : (headBlock 16 (front ++ taken) : AesBlock) = headBlock 16 front := by
              apply Vector.toList_inj.mp
              rw [toList_headBlock (by rw [List.length_append]; omega),
                toList_headBlock (Nat.le_of_eq sixteen.symm), List.take_left' sixteen,
                ← sixteen, List.take_length]
            have entire : Whole (dtvAes128SetKey link.aesKey) (token ++ (front ++ taken)) := by
              rw [Whole, behind, head, ← length, List.length_append, four]
              refine ⟨?_, rfl⟩
              rw [List.length_append]
              omega
            have all : incoming socket = token ++ (front ++ taken) ++ incoming later := by
              rw [parted, parted', List.append_assoc token]
            exact passed_one entire all

/-! ### A control word -/

/-- The loop of `cs378x_recv_cw`, with the messages it may still read. -/
def recvCwFrom (marks : Nat → Source) : Nat → Link → Socket → Verdict × Link × Socket
  | 0, link, socket => (.fatal, { link with error := "cs378x: only EMM requests arrive" }, socket)
  | left + 1, link, socket =>
      match receive link (marks left) socket with
      | (.silence, link, later) => (.refused, link, later)
      | (.broken _, link, later) => (.fatal, link, later)
      | (.message source bytes, link, later) =>
          if isEmmRequest bytes then recvCwFrom marks left link later
          else
            let done := conclude source bytes link.error
            (done.1, { link with error := done.2 }, later)

theorem receive_aesKey (link : Link) (mark : Source) (socket : Socket) :
    (receive link mark socket).2.1.aesKey = link.aesKey := by
  rw [receive]
  split <;> rfl

/-- Any number of messages is read past, always whole ones. -/
theorem recvCwFrom_boundary (marks : Nat → Source) (left : Nat) (link : Link) (socket : Socket)
    (goesOn : (recvCwFrom marks left link socket).1 ≠ .fatal) :
    PassedSome (Whole (dtvAes128SetKey link.aesKey)) socket
      (recvCwFrom marks left link socket).2.2 := by
  induction left generalizing link socket with
  | zero => exact (goesOn rfl).elim
  | succ left ih =>
      have step := receive_boundary link (marks left) socket
      have sameKey := receive_aesKey link (marks left) socket
      rw [recvCwFrom] at goesOn ⊢
      generalize receive link (marks left) socket = got at step sameKey goesOn ⊢
      obtain ⟨arrival, link', later⟩ := got
      cases arrival with
      | silence => exact (step 0 rfl).passedSome
      | broken text => exact (goesOn rfl).elim
      | message source bytes =>
          by_cases request : isEmmRequest bytes = true
          · simp only [if_pos request] at goesOn ⊢
            have rest := ih link' later goesOn
            rw [sameKey] at rest
            exact (step 1 rfl).and_then rest
          · simp only [if_neg request]
            exact (step 1 rfl).passedSome

/-! ### The same loop over arrivals -/

def arrivals (marks : Nat → Source) : Nat → Link → Socket → List Arrival
  | 0, _, _ => []
  | left + 1, link, socket =>
      let got := receive link (marks left) socket
      got.1 :: arrivals marks left got.2.1 got.2.2

theorem conclude_error (source : Source) (bytes : List UInt8) (error other : String) :
    (conclude source bytes error).1 = (conclude source bytes other).1 := by
  rw [conclude, conclude]
  split
  · rfl
  · split <;> rfl

/-- The loop sees the socket as the arrivals on it. -/
theorem recvCwFrom_arrivals (marks : Nat → Source) {left attempts : Nat} (link : Link)
    (socket : Socket) (error : String) (counted : attempts + left = maxAttempts) :
    (recvCwFrom marks (left + 1) link socket).1 =
      (recvCw attempts error (arrivals marks (left + 1) link socket)).1 := by
  induction left generalizing attempts link socket with
  | zero =>
      have last : maxAttempts < attempts + 1 := by omega
      rw [recvCwFrom, arrivals]
      generalize receive link (marks 0) socket = got
      obtain ⟨arrival, link', later⟩ := got
      cases arrival with
      | message source bytes =>
          by_cases request : isEmmRequest bytes = true
          · simp only [recvCw, if_pos request, if_pos last, recvCwFrom]
          · simp only [recvCw, if_neg request]
            exact conclude_error source bytes link'.error error
      | _ => rfl
  | succ left ih =>
      have more : ¬ maxAttempts < attempts + 1 := by omega
      rw [recvCwFrom, arrivals]
      generalize receive link (marks (left + 1)) socket = got
      obtain ⟨arrival, link', later⟩ := got
      cases arrival with
      | message source bytes =>
          by_cases request : isEmmRequest bytes = true
          · simp only [recvCw, if_pos request, if_neg more]
            exact ih link' later (by omega)
          · simp only [recvCw, if_neg request]
            exact conclude_error source bytes link'.error error
      | _ => rfl

end Cs378x

/-! ## The worker -/

/-- The operations that use the connection. -/
def Op.Talks : Op → Prop
  | .openConnection | .login | .sendEcm _ | .recvCw | .keepalive => True
  | _ => False

/-- Whether the last use of the connection ended in an error and it was not closed since. -/
def spoil (spoiled : Bool) : Performed signature → Bool
  | ⟨.login, rc⟩ => decide (rc ≠ (1 : Int))
  | ⟨.sendEcm _, rc⟩ => decide (rc < (0 : Int))
  | ⟨.recvCw, reply⟩ => decide (reply.1 ≠ 0 ∧ reply.1 ≠ 1)
  | ⟨.keepalive, rc⟩ => decide (rc < (0 : Int))
  | ⟨.closeConnection, _⟩ => false
  | _ => spoiled

/-- A spoiled connection is not used. -/
def talks : Rules signature Bool where
  write := spoil
  allows spoiled operation := Op.Talks operation → spoiled = false

/-- The operations that use the connection, or close it. -/
def Op.Touches : Op → Prop
  | .closeConnection => True
  | operation => operation.Talks

section Talk

variable {worker : Worker} {config : Config} {spoiled : Bool}

theorem talks_apart (spoiled : Bool) (operation : Op) (apart : ¬ operation.Touches) :
    talks.allows spoiled operation ∧
      ∀ answer, talks.write spoiled ⟨operation, answer⟩ = spoiled := by
  cases operation with
  | openConnection | login | sendEcm | recvCw | keepalive | closeConnection =>
      exact (apart trivial).elim
  | _ => exact ⟨False.elim, fun _ => rfl⟩

/-- A round that leaves a connection that is not spoiled. -/
abbrev Talk (code : Code Worker) (spoiled : Bool) : Prop :=
  code.Obeys talks (fun spoiled _ => spoiled = false) spoiled

/-- An operation away from the connection, in front of other code. -/
theorem talk_apart {operation : Op} {rest : operation.Answer → Code Worker}
    (apart : ¬ operation.Touches) (later : ∀ answer, Talk (rest answer) spoiled) :
    Talk (op operation >>= rest) spoiled := by
  obtain ⟨allowed, same⟩ := talks_apart spoiled operation apart
  refine ⟨allowed, fun answer => ?_⟩
  rw [same]
  exact later answer

/-- Closing mends the connection. -/
theorem talk_close {rest : Unit → Code Worker} (later : Talk (rest ()) false) :
    Talk (op .closeConnection >>= rest) spoiled := ⟨False.elim, fun _ => later⟩

theorem talk_leave : Talk (leave worker) spoiled := talk_close rfl

theorem talk_failure {state : Progress} {otherwise : String} {rest : Unit → Code Worker}
    (later : Talk (rest ()) spoiled) : Talk (failure state otherwise >>= rest) spoiled :=
  talk_apart id fun _ => talk_apart id fun _ => later

theorem talk_retryLater : Talk (retryLater worker) false :=
  talk_apart id fun _ => .ite
    (fun _ => talk_apart id fun _ => .ite (fun _ => talk_leave) fun _ => rfl) fun _ => rfl

theorem talk_drop {state : Progress} {otherwise : String} :
    Talk (do
      let dropped ← dropConnection worker
      failure state otherwise
      pure dropped) spoiled :=
  talk_close (talk_failure rfl)

theorem talk_idle : Talk (idle config worker) false := by
  refine talk_apart id fun woken => talk_apart id fun stopped => ?_
  refine .ite (fun _ => talk_leave) fun _ => .ite (fun _ => rfl) fun _ => ?_
  refine talk_apart id fun now => .ite (fun _ => ?_) fun _ => rfl
  have goesOn : ∀ (rc : Int) (spoiled : Bool), spoiled = decide (rc < 0) → Talk (if rc < 0 then do
        let dropped ← dropConnection worker
        setStatus .error "CAM connection dropped"
        pure dropped
      else do
        let sent : UInt64 ← op .tick
        pure { worker with lastTraffic := sent }) spoiled := by
    intro rc spoiled same
    refine .ite (fun _ => talk_close (talk_apart id fun _ => rfl)) fun fine => ?_
    exact talk_apart id fun _ => same.trans (decide_eq_false fine)
  exact .ite (fun _ => ⟨fun _ => rfl, fun rc => goesOn rc _ rfl⟩) fun _ => goesOn 0 false rfl

theorem talk_rotateCandidate {rest : Unit → Code Worker} (later : Talk (rest ()) spoiled) :
    Talk (rotateCandidate >>= rest) spoiled := by
  refine .bind ⟨False.elim, fun rotated => .ite (fun _ => ?_) fun _ => later⟩
  exact ⟨False.elim, fun _ => ⟨False.elim, fun _ => later⟩⟩

/-- What is made of a reply: after a fatal one the connection is closed. -/
theorem talk_answered {started : UInt64} {rc : Int} {words : Words}
    (fatal : spoiled = true → rc ≠ 0 ∧ rc ≠ 1) :
    Talk (answered worker started rc words) spoiled := by
  have sound : rc = 0 ∨ rc = 1 → spoiled = false := by
    intro fine
    refine Bool.eq_false_iff.2 fun bad => ?_
    exact fine.elim (fatal bad).1 (fatal bad).2
  refine .ite (fun one => ?_) fun _ => talk_apart id fun _ =>
    .ite (fun zero => ?_) fun _ => talk_drop
  · exact talk_apart id fun _ => talk_apart id fun _ => sound (.inr one)
  · refine talk_failure (.ite (fun _ => ?_) fun _ => sound (.inl zero))
    exact talk_rotateCandidate (sound (.inl zero))

theorem talk_exchangeEcm (ecm : List UInt8) : Talk (exchangeEcm worker ecm) false := by
  refine talk_apart id fun _ => talk_apart id fun started => talk_apart id fun _ => ?_
  refine ⟨fun _ => rfl, fun sent => .ite (fun _ => talk_drop) fun fine => ?_⟩
  have calm : spoil false ⟨.sendEcm ecm, sent⟩ = false := decide_eq_false fine
  refine ⟨fun _ => calm, fun reply => talk_apart id fun now => talk_answered fun bad => ?_⟩
  exact of_decide_eq_true bad

theorem talk_serveEcm : Talk (serveEcm config worker) false :=
  talk_apart id fun _ => .ite (fun _ => talk_idle) fun _ => talk_exchangeEcm _

theorem talk_connect : Talk (connect config worker) false := by
  refine talk_apart id fun _ => talk_apart id fun _ => ⟨fun _ => rfl, fun opened => ?_⟩
  refine .ite (fun _ => talk_apart id fun _ => talk_retryLater) fun _ => ?_
  refine ⟨fun _ => rfl, fun rc => .ite (fun _ => ?_) fun fine => ?_⟩
  · exact talk_failure (talk_close talk_retryLater)
  · have calm : spoil false ⟨.login, rc⟩ = false := decide_eq_false fine
    change Talk _ (spoil false ⟨.login, rc⟩)
    rw [calm]
    refine talk_apart id fun now => .bind (.ite (fun _ => ?_) fun _ => ?_)
    · exact ⟨False.elim, fun _ => talk_apart id fun _ => talk_serveEcm⟩
    · exact ⟨False.elim, fun _ => talk_apart id fun _ => talk_serveEcm⟩

/-- One round of the worker. -/
theorem talk_camdWorker : Talk (camdWorker config worker) false :=
  talk_apart id fun _ => .ite (fun _ => talk_leave) fun _ =>
    .ite (fun _ => talk_serveEcm) fun _ => talk_connect

end Talk

/-- What is known of the worker's connection after an event. -/
def spoilBy {config : Config} (spoiled : Bool) (event : (camd config).Event) : Bool :=
  event.carry .worker talks id spoiled

/-- The worker uses no spoiled connection. -/
def UsesSound {config : Config} (moved : Moved ((camd config).Config × Bool) (camd config).Event) :
    Prop :=
  ∀ performed, moved.event = .perform .worker performed → performed.1.Talks →
    moved.before.2 = false

/-- Along every interleaving the connection is closed after a fatal result, before the worker
uses it again. -/
theorem worker_closes {config : Config} {now : UInt64} {final : (camd config).Config}
    {moves : List (Moved (camd config).Config (camd config).Event)}
    (walk : Walk (camd config).Step (launched config now) moves final) :
    ∀ moved ∈ record spoilBy false moves, UsesSound moved := by
  refine walk.recorded_wanted (fun state => (state.1.phase .worker).Carries talks
    (fun spoiled _ => spoiled = false) state.2) (fun _ => True) UsesSound ?_ rfl fun _ _ => trivial
  intro before after event spoiled step carries _
  refine step.carries carries fun command locals program body fits => ?_
  simp only [Party.body, Option.ite_none_right_eq_some, Option.some.injEq] at body
  obtain ⟨-, rfl⟩ := body
  rw [fits]
  exact talk_camdWorker

/-! ## The readers -/

/-- Every reader stays on the boundaries of the messages, unless its result is fatal; and after
a fatal result the worker closes the connection before it uses it again. -/
theorem readers_on_boundaries :
    (∀ link useMsgId mark socket, OnBoundary Newcamd.Whole
      (Newcamd.receive link useMsgId mark socket).1.passed socket
      (Newcamd.receive link useMsgId mark socket).2.2) ∧
    (∀ link mark socket, OnBoundary (Cs378x.Whole (dtvAes128SetKey link.aesKey))
      (Cs378x.receive link mark socket).1.passed socket (Cs378x.receive link mark socket).2.2) ∧
    (∀ marks left link socket, (Newcamd.recvCwFrom marks left link socket).1 ≠ .fatal →
      PassedSome Newcamd.Whole socket (Newcamd.recvCwFrom marks left link socket).2.2) ∧
    (∀ marks left link socket, (Cs378x.recvCwFrom marks left link socket).1 ≠ .fatal →
      PassedSome (Cs378x.Whole (dtvAes128SetKey link.aesKey)) socket
        (Cs378x.recvCwFrom marks left link socket).2.2) ∧
    (∀ link padding iv writable mark socket,
      ¬ (Newcamd.keepaliveOn link padding iv writable mark socket).1 < 0 →
      PassedSome Newcamd.Whole socket
        (Newcamd.keepaliveOn link padding iv writable mark socket).2.2) ∧
    ∀ (config : Config) now (final : (camd config).Config) moves,
      Walk (camd config).Step (launched config now) moves final →
      ∀ moved ∈ record spoilBy false moves, UsesSound moved :=
  ⟨Newcamd.receive_boundary, Cs378x.receive_boundary, Newcamd.recvCwFrom_boundary,
    Cs378x.recvCwFrom_boundary, Newcamd.keepaliveOn_boundary,
    fun _ _ _ _ walk => worker_closes walk⟩

theorem readers_on_boundaries_silent :
    (Newcamd.receive Newcamd.sampleLink true .unsolicited [.timeout]).1 = .timeout ∧
      Passed Newcamd.Whole 0 [.timeout] [] :=
  ⟨rfl, readers_on_boundaries.1 Newcamd.sampleLink true .unsolicited [.timeout] 0 rfl⟩

end Camd
