import UsbDvbs2.Bytes.Tables
import UsbDvbs2.Camd.Protocols
import UsbDvbs2.Camd.Socket
import UsbDvbs2.Crypto.Des

/-! # newcamd on the wire

`send_message` and `recv_message` of `dtv_camd_newcamd.c`: a header, the section with its
length written anew, padding and a check byte, enciphered with two-key triple DES in CBC
mode, with the two length bytes in front and the IV behind.
-/

namespace Camd.Newcamd

open Bytes Crypt Cipher

def hdrLen : Nat := 8
def msgMax : Nat := 400
def camdMsgSize : Nat := 1024

/-- What `send_message` and `recv_message` use of the connection. -/
structure Link where
  activeKey : Vector UInt8 16
  msgId : UInt16
  error : String

def firstKey (key : Vector UInt8 16) : Block := headBlock 8 key.toList

def secondKey (key : Vector UInt8 16) : Block := headBlock 8 (key.toList.drop 8)

def xorSum (data : List UInt8) : UInt8 := data.foldl (· ^^^ ·) 0

def padCount (length : Nat) : Nat := (8 - (length - 1) % 8) % 8

/-- `pad_message` with the random bytes it draws. -/
def padMessage (padding : Block) (data : List UInt8) : Option (List UInt8) :=
  let count := padCount data.length
  if msgMax - 8 ≤ data.length + count + 1 then none
  else
    let padded := data ++ padding.toList.take count
    some (padded ++ [xorSum (padded.drop 2)])

/-- The section length is written anew from the size of the payload. -/
def reencode (data : List UInt8) : List UInt8 :=
  let size : Nat := data.length - 3
  let high : UInt8 := (size / 256).toUInt8 &&& 0x0f
  (data.set 1 ((data.getD 1 0 &&& 0xf0) ||| high)).set 2 size.toUInt8

/-- The message in front of its padding; the two length bytes are still empty. -/
def plainMessage (data : List UInt8) (msgId serviceId caSystemId : UInt16) (providerId : UInt32) :
    List UInt8 :=
  let header : List UInt8 := [0, 0, (msgId >>> 8).toUInt8, msgId.toUInt8,
    (serviceId >>> 8).toUInt8, serviceId.toUInt8,
    (caSystemId >>> 8).toUInt8, caSystemId.toUInt8,
    (providerId >>> 16).toUInt8, (providerId >>> 8).toUInt8, providerId.toUInt8, 0]
  header ++ reencode data

/-- The message as it is written: everything from the message id on is enciphered, the IV
follows in the clear. -/
def sealMessage (key : Vector UInt8 16) (iv : Block) (message : List UInt8) : List UInt8 :=
  let length : Nat := message.length + 8 - 2
  [(length / 256).toUInt8, length.toUInt8] ++
    (dtvDesEde2Cbc (firstKey key) (secondKey key) iv (message.drop 2) true).1 ++ iv.toList

/-- A numbered message takes the next id. -/
def Link.number (link : Link) (useMsgId : Bool) : Link :=
  if useMsgId then { link with msgId := link.msgId + 1 } else link

def Link.messageId (link : Link) (useMsgId : Bool) : UInt16 :=
  if useMsgId then link.msgId + 1 else 0

/-- `send_message`: what it writes, unless it fails; `writable` says whether the socket takes
it. -/
def sendMessage (link : Link) (data : List UInt8) (serviceId caSystemId : UInt16)
    (providerId : UInt32) (useMsgId : Bool) (padding iv : Block) (writable : Bool) :
    Option (List UInt8) × Link :=
  if data.length < 3 ∨ msgMax < data.length + hdrLen + 4 then
    (none, { link with error := s!"newcamd: invalid message length ({data.length})" })
  else
    let numbered := link.number useMsgId
    let plain := plainMessage data (link.messageId useMsgId) serviceId caSystemId providerId
    match padMessage padding plain with
    | none => (none, { numbered with error := "newcamd: padding failed" })
    | some message =>
        if writable then (some (sealMessage link.activeKey iv message), numbered)
        else (none, { numbered with error := "newcamd: could not send" })

/-- The part of `recv_message` that deciphers what was read and checks it. -/
def openMessage (key : Vector UInt8 16) (mark : Source) (head body : List UInt8) : Arrival :=
  if body.length % 8 ≠ 0 ∨ body.length < 16 then
    .broken "newcamd: reply not aligned to the cipher block"
  else
    let iv : Block := headBlock 8 (body.drop (body.length - 8))
    let plain := (dtvDesEde2Cbc (firstKey key) (secondKey key) iv
      (body.take (body.length - 8)) false).1
    if xorSum plain ≠ 0 then .broken "newcamd: checksum error (the DES key may be wrong)"
    else .message mark (head ++ plain)

/-- The number of bytes behind the two length bytes. -/
def lengthAt (head : List UInt8) : Nat := octet head 0 * 256 + octet head 1

/-- The part of `recv_message` up to the checksum. -/
def readMessage (key : Vector UInt8 16) (mark : Source) (socket : Socket) : Arrival × Socket :=
  match readAll 2 socket with
  | (.timeout, later) => (.silence, later)
  | (.broken, later) => (.broken "newcamd: no reply", later)
  | (.all head, later) =>
      if lengthAt head < 16 ∨ camdMsgSize - 2 < lengthAt head then
        (.broken s!"newcamd: invalid reply length ({lengthAt head})", later)
      else
        match readAll (lengthAt head) later with
        | (.all body, later) => (openMessage key mark head body, later)
        | (.timeout, later) | (.broken, later) => (.broken "newcamd: reply cut short", later)

/-- `recv_message`. -/
def receive (link : Link) (useMsgId : Bool) (mark : Source) (socket : Socket) :
    Received × Link × Socket :=
  let read := readMessage link.activeKey mark socket
  let received := recvMessage useMsgId link.msgId link.error read.1
  (received.1, { link with error := received.2 }, read.2)

/-! ## Padding -/

theorem padCount_lt (length : Nat) : padCount length < 8 := Nat.mod_lt _ (by decide)

theorem xorSum_append (data : List UInt8) (byte : UInt8) :
    xorSum (data ++ [byte]) = xorSum data ^^^ byte := by
  rw [xorSum, List.foldl_append]
  rfl

/-- What `pad_message` makes of the data: the data, up to seven bytes more and the check byte,
so that whole cipher blocks follow the two length bytes. -/
theorem padMessage_some {padding : Block} {data message : List UInt8} (long : 2 ≤ data.length)
    (padded : padMessage padding data = some message) :
    ∃ filler check, message = data ++ filler ++ [check] ∧ message.length % 8 = 2 ∧
      message.length < msgMax - 8 ∧ xorSum (message.drop 2) = 0 := by
  simp only [padMessage, Option.ite_none_left_eq_some, Option.some.injEq, Nat.not_le] at padded
  obtain ⟨room, rfl⟩ := padded
  have count := padCount_lt data.length
  have aligned : (data.length + padCount data.length) % 8 = 1 := by
    rw [padCount]
    omega
  have filled : (padding.toList.take (padCount data.length)).length = padCount data.length := by
    rw [List.length_take, Vector.length_toList, Nat.min_eq_left (Nat.le_of_lt count)]
  refine ⟨_, _, rfl, ?_, ?_, ?_⟩
  · rw [List.length_append, List.length_append, filled, List.length_singleton]
    omega
  · rwa [List.length_append, List.length_append, filled, List.length_singleton]
  · have behind : 2 ≤ (data ++ padding.toList.take (padCount data.length)).length := by
      rw [List.length_append]
      exact Nat.le_trans long (Nat.le_add_right _ _)
    rw [List.drop_append_of_le_length behind, xorSum_append, UInt8.xor_self]

theorem length_reencode (data : List UInt8) : (reencode data).length = data.length := by
  simp only [reencode, List.length_set]

theorem length_plainMessage (data : List UInt8) (msgId serviceId caSystemId : UInt16)
    (providerId : UInt32) :
    (plainMessage data msgId serviceId caSystemId providerId).length = data.length + 12 := by
  rw [plainMessage, List.length_append, length_reencode, Nat.add_comm]
  rfl

/-- The payloads that are accepted: three bytes, up to what the padding leaves room for. -/
theorem sendMessage_isSome (link : Link) (data : List UInt8) (serviceId caSystemId : UInt16)
    (providerId : UInt32) (useMsgId : Bool) (padding iv : Block) :
    (sendMessage link data serviceId caSystemId providerId useMsgId padding iv true).1.isSome ↔
      3 ≤ data.length ∧ data.length ≤ 373 := by
  simp only [sendMessage, padMessage, length_plainMessage, padCount, msgMax, hdrLen]
  split
  · simp only [Option.isSome_none, Bool.false_eq_true, false_iff]
    omega
  · split
    · rename_i full
      simp only [ite_eq_left_iff, reduceCtorEq, imp_false,
        Decidable.not_not] at full
      simp only [Option.isSome_none, Bool.false_eq_true, false_iff]
      omega
    · rename_i message padded
      simp only [Option.ite_none_left_eq_some, Nat.not_le] at padded
      simp only [if_true, Option.isSome_some, true_iff]
      omega

/-! ## The section length -/

/-- A payload that is the data with another section length. -/
structure Relabelled (data payload : List UInt8) (length : Nat) : Prop where
  size : payload.length = data.length
  flags : payload.getD 1 0 >>> 4 = data.getD 1 0 >>> 4
  sectionLength : be12 payload 1 = length
  others : ∀ pos, pos ≠ 1 → pos ≠ 2 → payload[pos]? = data[pos]?

/-- The flags above, and a length below sixteen. -/
theorem joined_nibbles (top : UInt8) {high : Nat} (small : high < 16) :
    ((top &&& 0xf0) ||| (high.toUInt8 &&& 0x0f)) >>> 4 = top >>> 4 ∧
      ((top &&& 0xf0) ||| (high.toUInt8 &&& 0x0f)).toNat % 16 = high := by
  have check := @forall_byte (fun top => ∀ high ∈ List.range 16,
    ((top &&& 0xf0) ||| (high.toUInt8 &&& 0x0f)) >>> 4 = top >>> 4 ∧
      ((top &&& 0xf0) ||| (high.toUInt8 &&& 0x0f)).toNat % 16 = high) _ (by decide +kernel) top
  exact check high (List.mem_range.2 small)

theorem relabelled_reencode {data : List UInt8} (long : 3 ≤ data.length)
    (short : data.length - 3 < 4096) : Relabelled data (reencode data) (data.length - 3) := by
  obtain ⟨flags, high⟩ := joined_nibbles (data.getD 1 0)
    (Nat.div_lt_of_lt_mul short : (data.length - 3) / 256 < 16)
  have second : (reencode data).getD 1 0 =
      (data.getD 1 0 &&& 0xf0) ||| (((data.length - 3) / 256).toUInt8 &&& 0x0f) := by
    rw [reencode, List.getD_eq_getElem?_getD, List.getElem?_set_ne (by decide),
      List.getElem?_set_self (Nat.lt_of_lt_of_le (by decide) long), Option.getD_some]
  have third : (reencode data).getD 2 0 = (data.length - 3).toUInt8 := by
    rw [reencode, List.getD_eq_getElem?_getD, List.getElem?_set_self, Option.getD_some]
    rw [List.length_set]
    exact long
  refine ⟨length_reencode data, ?_, ?_, fun pos first second => ?_⟩
  · rw [second, flags]
  · rw [be12, octet, octet, second, third, high]
    exact Nat.div_add_mod' _ 256
  · rw [reencode, List.getElem?_set_ne (Ne.symm second), List.getElem?_set_ne (Ne.symm first)]

/-! ## What is sealed is read -/

theorem lengthAt_octets {length : Nat} (short : length < 65536) (rest : List UInt8) :
    lengthAt ([(length / 256).toUInt8, length.toUInt8] ++ rest) = length := by
  have high : ((length / 256).toUInt8).toNat = length / 256 :=
    Nat.mod_eq_of_lt (Nat.div_lt_of_lt_mul short)
  change ((length / 256).toUInt8).toNat * 256 + length % 256 = length
  rw [high]
  exact Nat.div_add_mod' length 256

section Sealed

variable {key : Vector UInt8 16} {iv : Block} {message : List UInt8}

theorem length_sealMessage (long : 2 ≤ message.length) :
    (sealMessage key iv message).length = message.length + 8 := by
  simp only [sealMessage, List.length_append, List.length_cons, List.length_nil,
    length_dtvDesEde2Cbc, List.length_drop, Vector.length_toList]
  omega

/-- The ciphertext and the IV are opened again. -/
theorem openMessage_sealed (mark : Source) (head : List UInt8) (aligned : message.length % 8 = 2)
    (long : 10 ≤ message.length) (checked : xorSum (message.drop 2) = 0) :
    openMessage key mark head
        ((dtvDesEde2Cbc (firstKey key) (secondKey key) iv (message.drop 2) true).1 ++ iv.toList) =
      .message mark (head ++ message.drop 2) := by
  have whole : (message.drop 2).length % 8 = 0 := by
    rw [List.length_drop]
    omega
  have opened := dtvDesEde2Cbc_inverse (firstKey key) (secondKey key) iv whole
  have size := length_dtvDesEde2Cbc (firstKey key) (secondKey key) iv (message.drop 2)
  rw [List.length_drop] at size
  generalize (dtvDesEde2Cbc (firstKey key) (secondKey key) iv (message.drop 2) true).1 = cipher at *
  have all : (cipher ++ iv.toList).length = cipher.length + 8 := by
    rw [List.length_append, Vector.length_toList]
  have vector : (headBlock 8 iv.toList : Block) = iv := by
    have alone := headBlock_append iv []
    rwa [List.append_nil] at alone
  have aside : ¬ ((cipher.length + 8) % 8 ≠ 0 ∨ cipher.length + 8 < 16) := by omega
  simp only [openMessage, all, Nat.add_sub_cancel, if_neg aside, List.drop_left, List.take_left,
    vector, opened, if_neg (not_not_intro checked)]

/-- A sealed message is read back, in whatever pieces it comes. -/
theorem readMessage_sealed (mark : Source) {rest : List UInt8} {socket : Socket}
    (aligned : message.length % 8 = 2) (long : 10 ≤ message.length)
    (short : message.length + 8 ≤ camdMsgSize) (checked : xorSum (message.drop 2) = 0)
    (arrives : delivered socket = sealMessage key iv message ++ rest) :
    ∃ later, readMessage key mark socket =
        (.message mark ((sealMessage key iv message).take 2 ++ message.drop 2), later) ∧
      delivered later = rest ∧
      incoming socket = sealMessage key iv message ++ incoming later := by
  rw [camdMsgSize] at short
  have body : ((dtvDesEde2Cbc (firstKey key) (secondKey key) iv (message.drop 2) true).1 ++
      iv.toList).length = message.length + 8 - 2 := by
    rw [List.length_append, length_dtvDesEde2Cbc, List.length_drop, Vector.length_toList]
    omega
  have length := lengthAt_octets (by omega : message.length + 8 - 2 < 65536) []
  rw [sealMessage, List.append_assoc, List.append_assoc] at arrives
  obtain ⟨between, first, left, parted⟩ := readAll_front arrives
  rw [← List.append_assoc] at left
  obtain ⟨later, second, left, parted'⟩ := readAll_front left
  rw [List.append_nil] at length
  rw [body] at second
  have inside : ¬ (message.length + 8 - 2 < 16 ∨ camdMsgSize - 2 < message.length + 8 - 2) := by
    rw [camdMsgSize]
    omega
  refine ⟨later, ?_, left, ?_⟩
  · have head : readAll 2 socket = _ := first
    simp only [readMessage, head, length, if_neg inside, second,
      openMessage_sealed mark _ aligned long checked]
    rfl
  · rw [parted, parted', sealMessage, List.append_assoc, List.append_assoc]
    rfl

end Sealed

/-! ## The round trip -/

/-- The three bytes of the provider id. -/
def providerAt (message : List UInt8) : Nat :=
  octet message 8 * 65536 + octet message 9 * 256 + octet message 10

/-- The header of a deciphered message. -/
structure Header (message : List UInt8) (msgId serviceId caSystemId : UInt16) (provider : Nat) :
    Prop where
  msgId : be16 message 2 = msgId
  serviceId : be16 message 4 = serviceId
  caSystemId : be16 message 6 = caSystemId
  provider : providerAt message = provider

section RoundTrip

variable {data : List UInt8} {msgId serviceId caSystemId : UInt16} {providerId : UInt32}

theorem header_plainMessage (first second : UInt8) (rest : List UInt8) :
    Header ([first, second] ++
        (plainMessage data msgId serviceId caSystemId providerId ++ rest).drop 2)
      msgId serviceId caSystemId (providerId.toNat % 2 ^ 24) := by
  refine ⟨be16_halves msgId rfl rfl, be16_halves serviceId rfl rfl, be16_halves caSystemId rfl rfl,
    ?_⟩
  change ((providerId >>> 16).toUInt8).toNat * 65536 + ((providerId >>> 8).toUInt8).toNat * 256 +
    (providerId.toUInt8).toNat = _
  rw [toNat_shift32 _ 16 (by decide), toNat_shift32 _ 8 (by decide), UInt32.toNat_toUInt8]
  change providerId.toNat / 2 ^ 16 % 256 * 65536 + providerId.toNat / 2 ^ 8 % 256 * 256 +
    providerId.toNat % 2 ^ 8 = _
  omega

/-- The payload of a message is the section with its length written anew. -/
theorem payload_plainMessage (long : 3 ≤ data.length) (short : data.length - 3 < 4096)
    (first second : UInt8) (rest : List UInt8) :
    payloadSize ([first, second] ++
        (plainMessage data msgId serviceId caSystemId providerId ++ rest).drop 2) = data.length ∧
      (([first, second] ++ (plainMessage data msgId serviceId caSystemId providerId ++ rest).drop 2
        ).drop 12).take data.length = reencode data := by
  have size := length_reencode data
  have behind : ([first, second] ++
      (plainMessage data msgId serviceId caSystemId providerId ++ rest).drop 2).drop 12 =
        reencode data ++ rest := rfl
  have length : be12 ([first, second] ++
      (plainMessage data msgId serviceId caSystemId providerId ++ rest).drop 2) 13 =
        be12 (reencode data ++ rest) 1 := rfl
  constructor
  · rw [payloadSize, length, be12_append (by omega), (relabelled_reencode long short).sectionLength]
    omega
  · rw [behind, ← size, List.take_left]

/-- What `send_message` writes: the plain message, padded and sealed. -/
theorem sendMessage_some {link sent : Link} {wire : List UInt8} {useMsgId writable : Bool}
    {padding iv : Block}
    (written : sendMessage link data serviceId caSystemId providerId useMsgId padding iv writable =
      (some wire, sent)) :
    ∃ filler message, 3 ≤ data.length ∧ data.length ≤ 400 ∧
      message = plainMessage data (link.messageId useMsgId) serviceId caSystemId providerId ++
        filler ∧
      message.length % 8 = 2 ∧ message.length < msgMax - 8 ∧ xorSum (message.drop 2) = 0 ∧
      wire = sealMessage link.activeKey iv message := by
  by_cases refused : data.length < 3 ∨ msgMax < data.length + hdrLen + 4
  · rw [sendMessage, if_pos refused] at written
    exact nomatch written
  · rw [sendMessage, if_neg refused] at written
    rw [msgMax, hdrLen] at refused
    cases padded : padMessage padding
        (plainMessage data (link.messageId useMsgId) serviceId caSystemId providerId) with
    | none =>
        simp only [padded] at written
        exact nomatch written
    | some message =>
        have long : 2 ≤ (plainMessage data (link.messageId useMsgId) serviceId caSystemId
            providerId).length := by
          rw [length_plainMessage]
          exact Nat.le_add_left_of_le (by decide)
        obtain ⟨filler, check, made, aligned, short, checked⟩ := padMessage_some long padded
        rw [List.append_assoc] at made
        cases writable with
        | false =>
            simp only [padded, Bool.false_eq_true, if_false] at written
            exact nomatch written
        | true =>
            simp only [padded, if_true, Prod.mk.injEq, Option.some.injEq] at written
            exact ⟨filler ++ [check], message, by omega, by omega, made, aligned, short, checked,
              written.1.symm⟩

/-- A whole message that answers the request, or need not. -/
theorem recvMessage_decoded {checkId : Bool} {awaited : UInt16} {error : String} {mark : Source}
    {message payload : List UInt8} (answers : checkId = true → be16 message 2 = awaited)
    (inside : payload.length ≤ message.length - 12) (size : payloadSize message = payload.length)
    (there : (message.drop 12).take payload.length = payload) :
    recvMessage checkId awaited error (.message mark message) = (.payload mark payload, error) := by
  have current : ¬ (checkId = true ∧ be16 message 2 ≠ awaited) :=
    fun stale => stale.2 (answers stale.1)
  rw [recvMessage, if_neg current, size, if_neg (Nat.not_lt.2 inside), there]

/-- A deciphered message: two length bytes, and the plain message from the id on. -/
def Deciphers (message data : List UInt8) (msgId serviceId caSystemId : UInt16)
    (providerId : UInt32) : Prop :=
  ∃ first second filler, message = [first, second] ++
    (plainMessage data msgId serviceId caSystemId providerId ++ filler).drop 2

theorem Deciphers.header {message : List UInt8}
    (deciphers : Deciphers message data msgId serviceId caSystemId providerId) :
    Header message msgId serviceId caSystemId (providerId.toNat % 2 ^ 24) := by
  obtain ⟨first, second, filler, rfl⟩ := deciphers
  exact header_plainMessage first second filler

/-- What `recv_message` makes of it when it is awaited. -/
theorem Deciphers.received {message : List UInt8} {checkId : Bool} {awaited : UInt16}
    {error : String} {mark : Source}
    (deciphers : Deciphers message data msgId serviceId caSystemId providerId)
    (long : 3 ≤ data.length) (most : data.length ≤ 400)
    (answers : checkId = true → awaited = msgId) :
    recvMessage checkId awaited error (.message mark message) =
      (.payload mark (reencode data), error) := by
  have header := deciphers.header
  obtain ⟨first, second, filler, made⟩ := deciphers
  obtain ⟨size, payload⟩ := @payload_plainMessage data msgId serviceId caSystemId providerId long
    (by omega) first second filler
  have same := length_reencode data
  rw [← made, ← same] at size payload
  refine recvMessage_decoded (fun checked => header.msgId.trans (answers checked).symm) ?_ size
    payload
  rw [made, List.length_append, List.length_drop, List.length_append, length_plainMessage, same]
  simp only [List.length_cons, List.length_nil]
  omega

/-- What is written is deciphered again, in whatever pieces it comes. -/
theorem readMessage_written {link sent : Link} {wire rest : List UInt8} {useMsgId writable : Bool}
    {padding iv : Block} {socket : Socket} (mark : Source)
    (written : sendMessage link data serviceId caSystemId providerId useMsgId padding iv writable =
      (some wire, sent))
    (arrives : delivered socket = wire ++ rest) :
    ∃ message later, readMessage link.activeKey mark socket = (.message mark message, later) ∧
      Deciphers message data (link.messageId useMsgId) serviceId caSystemId providerId ∧
      incoming socket = wire ++ incoming later := by
  obtain ⟨filler, message, long, most, made, aligned, short, checked, rfl⟩ :=
    sendMessage_some written
  have enough : 10 ≤ message.length := by
    rw [made, List.length_append, length_plainMessage]
    omega
  have room : message.length + 8 ≤ camdMsgSize := by
    rw [msgMax] at short
    rw [camdMsgSize]
    omega
  obtain ⟨later, read, -, parted⟩ := readMessage_sealed mark aligned enough room checked arrives
  refine ⟨_, later, read, ⟨((message.length + 8 - 2) / 256).toUInt8,
    (message.length + 8 - 2).toUInt8, filler, ?_⟩, parted⟩
  rw [← made]
  rfl

/-- Whatever the keys, the random bytes and the pieces in which it comes: what is written is
read back, with its own length in the section. -/
theorem newcamd_round_trip {link sent peer : Link} {wire rest : List UInt8}
    {useMsgId checkId writable : Bool} {padding iv : Block} {socket : Socket} (mark : Source)
    (written : sendMessage link data serviceId caSystemId providerId useMsgId padding iv writable =
      (some wire, sent))
    (sameKey : peer.activeKey = link.activeKey)
    (awaited : checkId = true → peer.msgId = link.messageId useMsgId)
    (arrives : delivered socket = wire ++ rest) :
    ∃ payload message later,
      receive peer checkId mark socket = (.payload mark payload, peer, later) ∧
      Relabelled data payload (data.length - 3) ∧
      readMessage peer.activeKey mark socket = (.message mark message, later) ∧
      Header message (link.messageId useMsgId) serviceId caSystemId
        (providerId.toNat % 2 ^ 24) ∧
      incoming socket = wire ++ incoming later ∧ lengthAt wire = wire.length - 2 ∧
      ∃ cipher, wire = wire.take 2 ++ cipher ++ iv.toList ∧ cipher.length % 8 = 0 := by
  obtain ⟨message, later, read, deciphers, parted⟩ := readMessage_written mark written arrives
  obtain ⟨filler, plain, long, most, -, aligned, short, -, rfl⟩ := sendMessage_some written
  rw [← sameKey] at read
  rw [msgMax] at short
  refine ⟨reencode data, message, later, ?_, relabelled_reencode long (by omega), read,
    deciphers.header, parted, ?_, ?_⟩
  · simp only [receive, read]
    exact congrArg (fun got : Received × String => (got.1, { peer with error := got.2 }, later))
      (deciphers.received long most awaited)
  · rw [length_sealMessage (by omega), sealMessage, List.append_assoc]
    exact lengthAt_octets (by omega) _
  · refine ⟨_, rfl, ?_⟩
    rw [length_dtvDesEde2Cbc, List.length_drop]
    omega

end RoundTrip

/-! ## One message -/

def sampleLink : Link := ⟨.replicate 16 0x5a, 7, ""⟩

def sampleEcm : List UInt8 := [0x80, 0x70, 0x00, 0x01, 0x02]

theorem newcamd_round_trip_sample : ∃ wire sent,
    sendMessage sampleLink sampleEcm 1 0x0500 0x041950 true (.replicate 8 0) (.replicate 8 0) true =
      (some wire, sent) ∧
    ∃ payload later,
      receive sent true .unsolicited (giveBack (wire.take 1) (giveBack (wire.drop 1) [])) =
        (.payload .unsolicited payload, sent, later) ∧
      Relabelled sampleEcm payload 2 ∧ incoming later = [] := by
  have written : sendMessage sampleLink sampleEcm 1 0x0500 0x041950 true (.replicate 8 0)
      (.replicate 8 0) true = (some _, _) := rfl
  have pieces : ∀ wire : List UInt8,
      delivered (giveBack (wire.take 1) (giveBack (wire.drop 1) [])) = wire ++ [] ∧
        incoming (giveBack (wire.take 1) (giveBack (wire.drop 1) [])) = wire := by
    intro wire
    rw [delivered_giveBack, delivered_giveBack, ← List.append_assoc, List.take_append_drop,
      incoming_giveBack, incoming_giveBack, ← List.append_assoc, List.take_append_drop]
    exact ⟨rfl, List.append_nil wire⟩
  have sameKey : (sampleLink.number true).activeKey = sampleLink.activeKey := rfl
  have awaited : true = true → (sampleLink.number true).msgId = sampleLink.messageId true :=
    fun _ => rfl
  obtain ⟨payload, message, later, received, relabelled, -, -, parted, -⟩ :=
    newcamd_round_trip .unsolicited written sameKey awaited (pieces _).1
  rw [(pieces _).2] at parted
  exact ⟨_, _, written, payload, later, received, relabelled, List.self_eq_append_right.1 parted⟩

/-- The header has room for three bytes of the provider id. -/
theorem provider_high_byte_lost : ∃ wire sent message later,
    sendMessage sampleLink sampleEcm 1 0x0500 0x01000000 true (.replicate 8 0) (.replicate 8 0)
      true = (some wire, sent) ∧
    readMessage sent.activeKey .unsolicited (giveBack wire []) =
      (.message .unsolicited message, later) ∧
    providerAt message ≠ (0x01000000 : UInt32).toNat := by
  have written : sendMessage sampleLink sampleEcm 1 0x0500 0x01000000 true (.replicate 8 0)
      (.replicate 8 0) true = (some _, _) := rfl
  obtain ⟨message, later, read, deciphers, -⟩ :=
    readMessage_written .unsolicited written (delivered_giveBack _ [])
  refine ⟨_, _, message, later, written, read, ?_⟩
  rw [deciphers.header.provider]
  decide

end Camd.Newcamd
