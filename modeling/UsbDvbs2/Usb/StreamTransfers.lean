import UsbDvbs2.Concurrency.Walk
import UsbDvbs2.Usb.StreamRing

/-! # The transfers of a stream

The life of a `dtv_usb_stream` between the thread that opens and closes it, its event thread,
the driver that holds its transfers, and other threads of the same device: whoever waits for a
USB command may be handed a transfer of the stream meanwhile. The driver gives a transfer back
whenever it likes, with whatever status, and one callback runs at a time.
-/

namespace Usb

open Concurrency Memory

/-- Who holds a transfer: nobody, the driver, or the callback it was handed to. -/
inductive Holder where
  | stream
  | driver
  | callback
  deriving DecidableEq

inductive TransferStatus where
  | completed
  | timedOut
  | cancelled
  | stall
  | noDevice
  | overflow
  | error
  deriving DecidableEq

/-- The transfer brings data. -/
def TransferStatus.delivers : TransferStatus → Bool
  | .completed | .timedOut => true
  | _ => false

/-- The transfer may be submitted again. A halted endpoint often clears itself. -/
def TransferStatus.goesBack : TransferStatus → Bool
  | .completed | .timedOut | .stall => true
  | _ => false

/-- Where `stream_complete` stands with the transfer it was called with. -/
inductive Callback where
  | entered (index : Nat) (status : TransferStatus) (data : List UInt8)
  | judging (index : Nat) (status : TransferStatus) (data : List UInt8) (resubmit : Bool)
  | resubmitting (index : Nat)
  | retiring (index : Nat)
  | retired (left : Int)
  | losing
  | waking

/-- Who runs a callback: the event thread, whoever closes the stream, or another thread. -/
inductive Handler where
  | events
  | owner
  | guest
  deriving DecidableEq

/-- Where `stream_event_thread` stands. -/
inductive EventThread where
  | absent
  | checking
  | handling
  | ended
  deriving DecidableEq

/-- Where the thread stands that opens and closes the stream: from the second loop of
`dtv_usb_stream_open` to its return, and from the call of `dtv_usb_stream_close` to its end. A
failed opening closes with its code. -/
inductive Owner where
  | allocating
  | submitting
  | counting
  | checking
  | starting
  | returned
  | stopping (code : Option Int)
  | cancelling (code : Option Int) (index : Nat)
  | interrupting (code : Option Int)
  | joining (code : Option Int)
  | collecting (code : Option Int)
  | handling (code : Option Int)
  | freeing (code : Option Int) (index : Nat)
  | closed (code : Option Int)
  | leaked (code : Option Int)
  deriving DecidableEq

def Owner.isHandling : Owner → Bool
  | .handling _ => true
  | _ => false

/-- `dtv_usb_stream` and its threads. The transfers are those allocated; the others of
`transfer_count` are null. -/
structure Stream where
  transferCount : Nat
  chunkBytes : Nat
  transfers : List Holder
  ring : UsbStream
  inFlight : Int
  stopping : Bool
  lost : Bool
  callback : Option (Handler × Callback)
  events : EventThread
  owner : Owner

def errorIo : Int := -1
def errorInvalidParam : Int := -2
def errorNoMem : Int := -11
def errorOther : Int := -99

/-- A valid ring has room. -/
theorem ring_pos {device : Bool} {transfers chunkBytes ringBytes : Nat}
    (valid : ¬ (device = false ∨ transfers = 0 ∨ chunkBytes = 0 ∨
      ringBytes < chunkBytes * transfers)) : 0 < ringBytes := by
  simp only [not_or] at valid
  obtain ⟨-, some, wide, room⟩ := valid
  exact Nat.lt_of_lt_of_le (Nat.mul_pos (Nat.pos_of_ne_zero wide) (Nat.pos_of_ne_zero some))
    (Nat.le_of_not_lt room)

/-- The beginning of `dtv_usb_stream_open`. -/
def streamOpen (device : Bool) (transfers chunkBytes ringBytes : Nat) (memory : Bool)
    (ring : Space UInt8) : Except Int Stream :=
  if valid : device = false ∨ transfers = 0 ∨ chunkBytes = 0 ∨ ringBytes < chunkBytes * transfers
  then .error errorInvalidParam
  else if memory = false then .error errorNoMem
  else .ok {
    transferCount := transfers
    chunkBytes := chunkBytes
    transfers := []
    ring := .opened ⟨ringBytes, ring_pos valid⟩ ring
    inFlight := 0
    stopping := false
    lost := false
    callback := none
    events := .absent
    owner := .allocating }

namespace Stream

/-- What the opening and closing thread does next; `answer` is what a call it makes returns. -/
def ownerNext (s : Stream) (answer : Int) : Option Stream :=
  match s.owner with
  | .allocating =>
      if s.transfers.length = s.transferCount ∨ answer ≠ 0 then
        some { s with owner := .checking }
      else some { s with transfers := s.transfers ++ [.stream], owner := .submitting }
  | .submitting =>
      if answer ≠ 0 then some { s with owner := .checking }
      else some { s with
        transfers := s.transfers.set (s.transfers.length - 1) .driver
        owner := .counting }
  | .counting => some { s with inFlight := s.inFlight + 1, owner := .allocating }
  | .checking =>
      some { s with owner := if s.inFlight = 0 then .stopping (some errorIo) else .starting }
  | .starting =>
      if answer ≠ 0 then some { s with owner := .stopping (some errorOther) }
      else some { s with events := .checking, owner := .returned }
  | .returned => some { s with owner := .stopping none }
  | .stopping code => some { s with stopping := true, owner := .cancelling code 0 }
  | .cancelling code index =>
      if index < s.transfers.length then some { s with owner := .cancelling code (index + 1) }
      else some { s with
        owner := if s.events = .absent then .collecting code else .interrupting code }
  | .interrupting code => some { s with owner := .joining code }
  | .joining code =>
      if answer ≠ 0 then some { s with owner := .leaked code }
      else if s.events = .ended then some { s with owner := .freeing code 0 }
      else none
  | .collecting code =>
      some { s with owner := if 0 < s.inFlight then .handling code else .freeing code 0 }
  | .handling code =>
      if s.callback.map Prod.fst = some .owner then none
      else some { s with owner := .collecting code }
  | .freeing code index =>
      some { s with
        owner := if index < s.transfers.length then .freeing code (index + 1) else .closed code }
  | .closed _ | .leaked _ => none

/-- What the event thread does next. -/
def eventsNext (s : Stream) : Option Stream :=
  match s.events with
  | .checking => some { s with events := if 0 < s.inFlight then .handling else .ended }
  | .handling =>
      if s.callback.map Prod.fst = some .events then none else some { s with events := .checking }
  | .absent | .ended => none

/-- Whether a thread waits in libusb. Of other threads nothing is known. -/
def waits (s : Stream) : Handler → Bool
  | .events => s.events = .handling
  | .owner => s.owner.isHandling
  | .guest => true

/-- The driver gives a transfer back, to a thread that waits in libusb. -/
def handOver (s : Stream) (handler : Handler) (index : Nat) (status : TransferStatus)
    (data : List UInt8) : Option Stream :=
  if s.transfers[index]? = some .driver ∧ s.callback.isNone ∧ s.waits handler ∧
      data.length ≤ s.chunkBytes then
    some { s with
      transfers := s.transfers.set index .callback
      callback := some (handler, .entered index status data) }
  else none

/-- `stream_complete`; `answer` is what submitting the transfer again returns. -/
def callbackNext (s : Stream) (answer : Int) : Option Stream :=
  match s.callback with
  | none => none
  | some (handler, .entered index status data) =>
      some { s with callback := some (handler, .judging index status data !s.stopping) }
  | some (handler, .judging index status data resubmit) =>
      some { s with
        ring := if status.delivers ∧ data ≠ [] then s.ring.streamStore data else s.ring
        callback := some (handler, if resubmit ∧ status.goesBack then .resubmitting index
          else .retiring index) }
  | some (handler, .resubmitting index) =>
      if answer = 0 then
        some { s with transfers := s.transfers.set index .driver, callback := none }
      else some { s with callback := some (handler, .retiring index) }
  | some (handler, .retiring index) =>
      some { s with
        transfers := s.transfers.set index .stream
        inFlight := s.inFlight - 1
        callback := some (handler, .retired (s.inFlight - 1)) }
  | some (handler, .retired left) =>
      some { s with callback := some (handler, if left = 0 ∧ s.stopping = false then .losing
        else .waking) }
  | some (handler, .losing) => some { s with lost := true, callback := some (handler, .waking) }
  | some (_, .waking) => some { s with callback := none }

end Stream

inductive StreamMove where
  | owner (answer : Int)
  | events
  | handOver (handler : Handler) (index : Nat) (status : TransferStatus) (data : List UInt8)
  | callback (answer : Int)
  | read (capacity : Nat)
  | flush

namespace Stream

/-- One move of one of them. The stream is read only while it is open. -/
def next (s : Stream) : StreamMove → Option Stream
  | .owner answer => s.ownerNext answer
  | .events => s.eventsNext
  | .handOver handler index status data => s.handOver handler index status data
  | .callback answer => s.callbackNext answer
  | .read capacity =>
      if s.owner = .returned then some { s with ring := (s.ring.streamRead capacity).2 } else none
  | .flush => if s.owner = .returned then some { s with ring := s.ring.streamFlush } else none

/-- The moves as transitions. -/
def Step (before : Stream) (move : StreamMove) (after : Stream) : Prop :=
  before.next move = some after

/-! ## What a move can be -/

/-- Where the owner goes when it changes nothing else. -/
inductive Goes (s : Stream) : Owner → Owner → Prop where
  | allocated : s.Goes .allocating .checking
  | refused : s.Goes .submitting .checking
  | idle : s.inFlight = 0 → s.Goes .checking (.stopping (some errorIo))
  | flying : s.inFlight ≠ 0 → s.Goes .checking .starting
  | unstarted : s.Goes .starting (.stopping (some errorOther))
  | called : s.Goes .returned (.stopping none)
  | cancelled (code : Option Int) (index : Nat) :
      s.Goes (.cancelling code index) (.cancelling code (index + 1))
  | alone (code : Option Int) (index : Nat) :
      s.events = .absent → s.Goes (.cancelling code index) (.collecting code)
  | accompanied (code : Option Int) (index : Nat) :
      s.events ≠ .absent → s.Goes (.cancelling code index) (.interrupting code)
  | interrupted (code : Option Int) : s.Goes (.interrupting code) (.joining code)
  | timedOut (code : Option Int) : s.Goes (.joining code) (.leaked code)
  | joined (code : Option Int) : s.events = .ended → s.Goes (.joining code) (.freeing code 0)
  | waits (code : Option Int) : 0 < s.inFlight → s.Goes (.collecting code) (.handling code)
  | collected (code : Option Int) : ¬ 0 < s.inFlight → s.Goes (.collecting code) (.freeing code 0)
  | handled (code : Option Int) :
      s.callback.map Prod.fst ≠ some .owner → s.Goes (.handling code) (.collecting code)
  | freed (code : Option Int) (index : Nat) :
      s.Goes (.freeing code index) (.freeing code (index + 1))
  | closed (code : Option Int) (index : Nat) : s.Goes (.freeing code index) (.closed code)

/-- A move of the owner. -/
inductive OwnerMoves (s : Stream) : Stream → Prop where
  | allocates : s.owner = .allocating →
      s.OwnerMoves { s with transfers := s.transfers ++ [.stream], owner := .submitting }
  | submits : s.owner = .submitting → s.OwnerMoves { s with
      transfers := s.transfers.set (s.transfers.length - 1) .driver
      owner := .counting }
  | counts : s.owner = .counting →
      s.OwnerMoves { s with inFlight := s.inFlight + 1, owner := .allocating }
  | starts : s.owner = .starting → s.OwnerMoves { s with events := .checking, owner := .returned }
  | stops (code : Option Int) : s.owner = .stopping code →
      s.OwnerMoves { s with stopping := true, owner := .cancelling code 0 }
  | goes (owner : Owner) : s.Goes s.owner owner → s.OwnerMoves { s with owner }

/-- Where a callback goes that leaves the transfers as they are. -/
inductive Proceeds (s : Stream) : Callback → Callback → Prop where
  | entered (index : Nat) (status : TransferStatus) (data : List UInt8) :
      s.Proceeds (.entered index status data) (.judging index status data !s.stopping)
  | goesBack (index : Nat) (status : TransferStatus) (data : List UInt8) :
      s.Proceeds (.judging index status data true) (.resubmitting index)
  | retires (index : Nat) (status : TransferStatus) (data : List UInt8) (resubmit : Bool) :
      s.Proceeds (.judging index status data resubmit) (.retiring index)
  | refused (index : Nat) : s.Proceeds (.resubmitting index) (.retiring index)
  | last : s.stopping = false → s.Proceeds (.retired 0) .losing
  | wakes (left : Int) : ¬ (left = 0 ∧ s.stopping = false) → s.Proceeds (.retired left) .waking

/-- A move of a callback. -/
inductive CallbackMoves (s : Stream) (handler : Handler) : Callback → Stream → Prop where
  | proceeds (callback later : Callback) (ring : UsbStream) : s.Proceeds callback later →
      s.CallbackMoves handler callback { s with ring, callback := some (handler, later) }
  | resubmits (index : Nat) : s.CallbackMoves handler (.resubmitting index) { s with
      transfers := s.transfers.set index .driver
      callback := none }
  | retires (index : Nat) : s.CallbackMoves handler (.retiring index) { s with
      transfers := s.transfers.set index .stream
      inFlight := s.inFlight - 1
      callback := some (handler, .retired (s.inFlight - 1)) }
  | loses : s.CallbackMoves handler .losing
      { s with lost := true, callback := some (handler, .waking) }
  | wakes : s.CallbackMoves handler .waking { s with callback := none }

section Moves

variable {s after : Stream}

theorem ownerMoves {answer : Int} (moved : s.ownerNext answer = some after) :
    s.OwnerMoves after := by
  have goes : ∀ owner, s.Goes s.owner owner → some { s with owner } = some after →
      s.OwnerMoves after := fun owner there same =>
    Option.some.inj same ▸ .goes owner there
  cases at' : s.owner with
  | allocating =>
      simp only [Stream.ownerNext, at'] at moved
      split at moved
      · exact goes _ (at' ▸ .allocated) moved
      · exact Option.some.inj moved ▸ .allocates at'
  | submitting =>
      simp only [Stream.ownerNext, at'] at moved
      split at moved
      · exact goes _ (at' ▸ .refused) moved
      · exact Option.some.inj moved ▸ .submits at'
  | counting =>
      simp only [Stream.ownerNext, at'] at moved
      exact Option.some.inj moved ▸ .counts at'
  | checking =>
      simp only [Stream.ownerNext, at'] at moved
      split at moved
      · exact goes _ (at' ▸ .idle (by assumption)) moved
      · exact goes _ (at' ▸ .flying (by assumption)) moved
  | starting =>
      simp only [Stream.ownerNext, at'] at moved
      split at moved
      · exact goes _ (at' ▸ .unstarted) moved
      · exact Option.some.inj moved ▸ .starts at'
  | returned =>
      simp only [Stream.ownerNext, at'] at moved
      exact goes _ (at' ▸ .called) moved
  | stopping code =>
      simp only [Stream.ownerNext, at'] at moved
      exact Option.some.inj moved ▸ .stops code at'
  | cancelling code index =>
      simp only [Stream.ownerNext, at'] at moved
      split at moved
      · exact goes _ (at' ▸ .cancelled code index) moved
      · split at moved
        · exact goes _ (at' ▸ .alone code index (by assumption)) moved
        · exact goes _ (at' ▸ .accompanied code index (by assumption)) moved
  | interrupting code =>
      simp only [Stream.ownerNext, at'] at moved
      exact goes _ (at' ▸ .interrupted code) moved
  | joining code =>
      simp only [Stream.ownerNext, at'] at moved
      split at moved
      · exact goes _ (at' ▸ .timedOut code) moved
      · split at moved
        · exact goes _ (at' ▸ .joined code (by assumption)) moved
        · cases moved
  | collecting code =>
      simp only [Stream.ownerNext, at'] at moved
      split at moved
      · exact goes _ (at' ▸ .waits code (by assumption)) moved
      · exact goes _ (at' ▸ .collected code (by assumption)) moved
  | handling code =>
      simp only [Stream.ownerNext, at'] at moved
      split at moved
      · cases moved
      · exact goes _ (at' ▸ .handled code (by assumption)) moved
  | freeing code index =>
      simp only [Stream.ownerNext, at'] at moved
      split at moved
      · exact goes _ (at' ▸ .freed code index) moved
      · exact goes _ (at' ▸ .closed code index) moved
  | closed | leaked =>
      simp only [Stream.ownerNext, at'] at moved
      cases moved

theorem callbackMoves {answer : Int} (moved : s.callbackNext answer = some after) :
    ∃ handler callback, s.callback = some (handler, callback) ∧
      s.CallbackMoves handler callback after := by
  cases running : s.callback with
  | none =>
      simp only [Stream.callbackNext, running] at moved
      cases moved
  | some pair =>
      obtain ⟨handler, callback⟩ := pair
      refine ⟨handler, callback, rfl, ?_⟩
      have proceeds : ∀ later ring, s.Proceeds callback later →
          some { s with ring, callback := some (handler, later) } = some after →
            s.CallbackMoves handler callback after := fun later ring goes same =>
        Option.some.inj same ▸ .proceeds callback later ring goes
      cases callback with
      | entered index status data =>
          simp only [Stream.callbackNext, running] at moved
          exact proceeds _ _ (.entered index status data) moved
      | judging index status data resubmit =>
          by_cases back : resubmit = true ∧ status.goesBack = true
          · simp only [Stream.callbackNext, running, if_pos back] at moved
            obtain ⟨rfl, -⟩ := back
            exact proceeds _ _ (.goesBack index status data) moved
          · simp only [Stream.callbackNext, running, if_neg back] at moved
            exact proceeds _ _ (.retires index status data resubmit) moved
      | resubmitting index =>
          simp only [Stream.callbackNext, running] at moved
          split at moved
          · exact Option.some.inj moved ▸ .resubmits index
          · exact proceeds _ _ (.refused index) moved
      | retiring index =>
          simp only [Stream.callbackNext, running] at moved
          exact Option.some.inj moved ▸ .retires index
      | retired left =>
          simp only [Stream.callbackNext, running] at moved
          split at moved
          · rename_i last
            obtain ⟨rfl, going⟩ := last
            exact proceeds _ _ (.last going) moved
          · exact proceeds _ _ (.wakes left (by assumption)) moved
      | losing =>
          simp only [Stream.callbackNext, running] at moved
          exact Option.some.inj moved ▸ .loses
      | waking =>
          simp only [Stream.callbackNext, running] at moved
          exact Option.some.inj moved ▸ .wakes

end Moves

/-! ## Accounting -/

/-- The transfers that are out. -/
def abroad (s : Stream) : Nat := s.transfers.countP (· ≠ .stream)

end Stream

/-- The transfer a callback has not yet disposed of. -/
def Callback.transfer : Callback → Option Nat
  | .entered index .. | .judging index .. | .resubmitting index | .retiring index => some index
  | .retired _ | .losing | .waking => none

/-- A transfer that is submitted and not yet counted. -/
def Owner.uncounted : Owner → Nat
  | .counting => 1
  | _ => 0

def Owner.isSubmitting : Owner → Bool
  | .submitting => true
  | _ => false

/-- The stream is being freed. -/
def Owner.isReleasing : Owner → Bool
  | .freeing .. | .closed _ => true
  | _ => false

namespace Stream

/-- `in_flight` is the number of transfers that are out, but for one just submitted. -/
structure Accounted (s : Stream) : Prop where
  flight : s.inFlight + s.owner.uncounted = s.abroad
  held : ∀ handler callback index, s.callback = some (handler, callback) →
    callback.transfer = some index → s.transfers[index]? = some .callback
  fresh : s.owner = .submitting → s.transfers[s.transfers.length - 1]? = some .stream

theorem countP_set {α : Type} {p : α → Bool} {all : List α} {index : Nat} {old : α}
    (there : all[index]? = some old) (new : α) :
    (all.set index new).countP p + (p old).toNat = all.countP p + (p new).toNat := by
  obtain ⟨inside, rfl⟩ := List.getElem?_eq_some_iff.mp there
  have least : (p all[index]).toNat ≤ all.countP p := by
    cases member : p all[index] with
    | false => exact Nat.zero_le _
    | true => exact List.countP_pos_iff.mpr ⟨_, List.getElem_mem inside, member⟩
  rw [List.countP_set inside]
  cases old : p all[index] <;> cases fresh : p new <;>
    simp only [old, Bool.false_eq_true, if_true, if_false, Bool.toNat_true, Bool.toNat_false]
      at least ⊢ <;> omega

/-- One transfer more is out. -/
theorem abroad_taken {s after : Stream} {index : Nat} {holder : Holder}
    (there : s.transfers[index]? = some .stream) (out : holder ≠ .stream)
    (same : after.transfers = s.transfers.set index holder) : after.abroad = s.abroad + 1 := by
  have count := @countP_set _ (· ≠ .stream) _ _ _ there holder
  simp only [ne_eq, not_true, decide_false, Bool.toNat_false, out, not_false_iff, decide_true,
    Bool.toNat_true, Nat.add_zero] at count
  rw [abroad, same]
  exact count

/-- One goes from one to the other. -/
theorem abroad_passed {s after : Stream} {index : Nat} {holder other : Holder}
    (there : s.transfers[index]? = some holder) (out : holder ≠ .stream) (still : other ≠ .stream)
    (same : after.transfers = s.transfers.set index other) : after.abroad = s.abroad := by
  have count := @countP_set _ (· ≠ .stream) _ _ _ there other
  simp only [ne_eq, out, still, not_false_iff, decide_true, Bool.toNat_true,
    Nat.add_right_cancel_iff] at count
  rw [abroad, same]
  exact count

/-- One comes back. -/
theorem abroad_returned {s after : Stream} {index : Nat} {holder : Holder}
    (there : s.transfers[index]? = some holder) (out : holder ≠ .stream)
    (same : after.transfers = s.transfers.set index .stream) : after.abroad + 1 = s.abroad := by
  have count := @countP_set _ (· ≠ .stream) _ _ _ there .stream
  simp only [ne_eq, not_true, decide_false, Bool.toNat_false, out, not_false_iff, decide_true,
    Bool.toNat_true, Nat.add_zero] at count
  rw [abroad, same]
  exact count

theorem abroad_eq_zero {s : Stream} (none : s.abroad = 0) {index : Nat} {holder : Holder}
    (there : s.transfers[index]? = some holder) : holder = .stream := by
  have all := List.countP_eq_zero.mp none holder (List.mem_of_getElem? there)
  simpa only [ne_eq, decide_not, Bool.not_eq_true', decide_eq_false_iff_not, not_not] using all

section Accounted

variable {s after : Stream}

/-- A move that leaves the transfers where they are. -/
theorem Accounted.kept (accounted : s.Accounted) (transfers : after.transfers = s.transfers)
    (inFlight : after.inFlight = s.inFlight)
    (uncounted : after.owner.uncounted = s.owner.uncounted)
    (fresh : after.owner = .submitting → s.owner = .submitting)
    (held : ∀ handler callback index, after.callback = some (handler, callback) →
      callback.transfer = some index →
        ∃ other, s.callback = some (handler, other) ∧ other.transfer = some index) :
    after.Accounted where
  flight := by
    rw [inFlight, uncounted, abroad, transfers]
    exact accounted.flight
  held handler callback index there index' := by
    obtain ⟨other, was, same⟩ := held handler callback index there index'
    rw [transfers]
    exact accounted.held handler other index was same
  fresh submitting := by
    rw [transfers]
    exact accounted.fresh (fresh submitting)

/-- A move of the owner that changes nothing else. -/
theorem Accounted.goOn (accounted : s.Accounted) {owner : Owner} {events : EventThread}
    {stopping : Bool} (uncounted : owner.uncounted = s.owner.uncounted)
    (fresh : owner.isSubmitting = false) : Accounted { s with owner, events, stopping } :=
  @kept s { s with owner, events, stopping } accounted rfl rfl uncounted
    (fun absurd => by rw [show owner = _ from absurd] at fresh; cases fresh)
    fun _ callback _ there index => ⟨callback, there, index⟩

theorem Goes.kept {owner later : Owner} (goes : s.Goes owner later) :
    later.uncounted = owner.uncounted ∧ later.isSubmitting = false := by
  cases goes <;> exact ⟨rfl, rfl⟩

theorem Accounted.ownerNext {answer : Int} (accounted : s.Accounted)
    (moved : s.ownerNext answer = some after) : after.Accounted := by
  have flight := accounted.flight
  cases ownerMoves moved with
  | allocates at' =>
      rw [at'] at flight
      refine ⟨?_, fun handler callback index there index' => ?_, fun _ => ?_⟩
      · simp only [abroad, List.countP_append]
        exact flight
      · have inside := accounted.held handler callback index there index'
        exact (List.getElem?_append_left (List.getElem?_eq_some_iff.mp inside).1).trans inside
      · rw [List.length_append, List.length_singleton, Nat.add_sub_cancel,
          List.getElem?_concat_length]
  | submits at' =>
      rw [at'] at flight
      have last := accounted.fresh at'
      refine ⟨?_, fun handler callback index there index' => ?_, fun absurd => by cases absurd⟩
      · rw [abroad_taken last (by decide) rfl]
        simp only [Owner.uncounted] at flight ⊢
        omega
      · have held := accounted.held handler callback index there index'
        have other : s.transfers.length - 1 ≠ index := by
          rintro rfl
          rw [last] at held
          cases held
        exact (List.getElem?_set_ne other).trans held
  | counts at' =>
      rw [at'] at flight
      refine ⟨?_, accounted.held, fun absurd => by cases absurd⟩
      simp only [abroad, Owner.uncounted] at flight ⊢
      omega
  | starts at' => exact accounted.goOn (by rw [at']; rfl) rfl
  | stops code at' => exact accounted.goOn (by rw [at']; rfl) rfl
  | goes owner goes => exact accounted.goOn goes.kept.1 goes.kept.2

theorem eventsNext_eq (moved : s.eventsNext = some after) :
    ∃ events, after = { s with events } := by
  rw [Stream.eventsNext] at moved
  split at moved
  · exact ⟨_, (Option.some.inj moved).symm⟩
  · split at moved
    · cases moved
    · exact ⟨_, (Option.some.inj moved).symm⟩
  · cases moved
  · cases moved

/-- A callback leaves the threads where they are. -/
theorem callbackNext_eq {answer : Int} (moved : s.callbackNext answer = some after) :
    ∃ transfers ring inFlight lost callback,
      after = { s with transfers, ring, inFlight, lost, callback } := by
  obtain ⟨handler, callback, -, moves⟩ := callbackMoves moved
  cases moves <;> exact ⟨_, _, _, _, _, rfl⟩

theorem Accounted.eventsNext (accounted : s.Accounted) (moved : s.eventsNext = some after) :
    after.Accounted := by
  obtain ⟨events, rfl⟩ := eventsNext_eq moved
  exact accounted.kept rfl rfl rfl id fun _ callback _ there index => ⟨callback, there, index⟩

/-- What is out is not the transfer about to be submitted. -/
theorem Accounted.fresh_set (accounted : s.Accounted) {index : Nat} {holder : Holder}
    (there : s.transfers[index]? = some holder) (out : holder ≠ .stream) (other : Holder)
    (submitting : s.owner = .submitting) :
    (s.transfers.set index other)[(s.transfers.set index other).length - 1]? = some .stream := by
  have last := accounted.fresh submitting
  have apart : index ≠ s.transfers.length - 1 := by
    rintro rfl
    rw [last] at there
    exact out (Option.some.inj there).symm
  rw [List.length_set]
  exact (List.getElem?_set_ne apart).trans last

theorem Accounted.handOver {handler : Handler} {index : Nat} {status : TransferStatus}
    {data : List UInt8} (accounted : s.Accounted)
    (moved : s.handOver handler index status data = some after) : after.Accounted := by
  rw [Stream.handOver] at moved
  split at moved
  · rename_i possible
    cases moved
    obtain ⟨out, -⟩ := possible
    refine ⟨?_, fun _ callback other there index' => ?_, accounted.fresh_set out (by decide) _⟩
    · rw [abroad_passed out (by decide) (by decide) rfl]
      exact accounted.flight
    · cases there
      cases index'
      exact List.getElem?_set_self (List.getElem?_eq_some_iff.mp out).1
  · cases moved

theorem Proceeds.transfer {callback later : Callback} (goes : s.Proceeds callback later) :
    later.transfer = callback.transfer := by
  cases goes <;> rfl

theorem Accounted.callbackNext {answer : Int} (accounted : s.Accounted)
    (moved : s.callbackNext answer = some after) : after.Accounted := by
  obtain ⟨handler, callback, running, moves⟩ := callbackMoves moved
  have held := fun index => accounted.held handler callback index running
  cases moves with
  | proceeds callback later ring goes =>
      refine accounted.kept rfl rfl rfl id fun _ _ index there index' => ?_
      cases there
      exact ⟨callback, running, goes.transfer.symm.trans index'⟩
  | resubmits index =>
      have out := held index rfl
      refine ⟨?_, fun _ _ _ there => (by cases there), accounted.fresh_set out (by decide) _⟩
      rw [abroad_passed out (by decide) (by decide) rfl]
      exact accounted.flight
  | retires index =>
      have out := held index rfl
      refine ⟨?_, fun _ _ _ there index' => ?_, accounted.fresh_set out (by decide) _⟩
      · have back := @abroad_returned s { s with
            transfers := s.transfers.set index .stream
            inFlight := s.inFlight - 1
            callback := some (handler, .retired (s.inFlight - 1)) } _ _ out (by decide) rfl
        have flight := accounted.flight
        simp only
        omega
      · cases there
        cases index'
  | loses =>
      refine accounted.kept rfl rfl rfl id fun _ _ index there index' => ?_
      cases there
      cases index'
  | wakes => exact accounted.kept rfl rfl rfl id fun _ _ _ there => by cases there

theorem Accounted.next {move : StreamMove} (accounted : s.Accounted) (moved : Step s move after) :
    after.Accounted := by
  cases move with
  | owner answer => exact accounted.ownerNext moved
  | events => exact accounted.eventsNext moved
  | handOver handler index status data => exact accounted.handOver moved
  | callback answer => exact accounted.callbackNext moved
  | read capacity =>
      simp only [Step, Stream.next] at moved
      split at moved
      · cases moved
        exact accounted.kept rfl rfl rfl id fun _ callback _ there index => ⟨callback, there, index⟩
      · cases moved
  | flush =>
      simp only [Step, Stream.next] at moved
      split at moved
      · cases moved
        exact accounted.kept rfl rfl rfl id fun _ callback _ there index => ⟨callback, there, index⟩
      · cases moved

end Accounted

end Stream
end Usb
