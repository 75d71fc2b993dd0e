import UsbDvbs2.Bytes.Crc
import UsbDvbs2.Camd.Protocols
import UsbDvbs2.Camd.Socket
import UsbDvbs2.Crypto.Aes

/-! # cs378x on the wire

`cs378x_send` and `cs378x_recv` of `dtv_camd_cs378x.c`: a token in the clear, and a header
with its payload in whole AES blocks. The receiver learns from the first block how many
there are; the sender writes the length of the payload into one byte.
-/

namespace Camd.Cs378x

open Bytes Crypt Cipher

def hdrLen : Nat := 20
def dataSize : Nat := 256
def camdMsgSize : Nat := 1024

/-- What `cs378x_send` and `cs378x_recv` use of the connection. -/
structure Link where
  authToken : UInt32
  aesKey : AesBlock
  serviceId : UInt16
  caSystemId : UInt16
  providerId : UInt32
  ecmPid : UInt16
  msgId : UInt16
  error : String

def put16 (value : UInt16) : List UInt8 := [(value >>> 8).toUInt8, value.toUInt8]

def put32 (value : UInt32) : List UInt8 :=
  [(value >>> 24).toUInt8, (value >>> 16).toUInt8, (value >>> 8).toUInt8, value.toUInt8]

def crc32Bit (crc : UInt32) : UInt32 :=
  if crc &&& 1 ≠ 0 then (crc >>> 1) ^^^ 0xedb88320 else crc >>> 1

/-- The reflected checksum of `dtv_camd_crypt.c`. -/
def dtvCrc32 (seed : UInt32) (data : List UInt8) : UInt32 :=
  data.foldl (fun crc byte => Nat.repeat crc32Bit 8 (crc ^^^ byte.toUInt32)) (seed ^^^ 0xffffffff)
    ^^^ 0xffffffff

/-- The twenty bytes in front of the payload. -/
def header (link : Link) (command : UInt8) (payload : List UInt8) : List UInt8 :=
  [command, payload.length.toUInt8, 0, 0] ++ put32 (dtvCrc32 0 payload) ++ put16 link.serviceId ++
    put16 link.caSystemId ++ put32 link.providerId ++ put16 link.msgId ++ put16 link.ecmPid

def bodySize (payload : List UInt8) : Nat := roundToBlock (hdrLen + payload.length)

/-- The body before it is enciphered; its unused tail is 0xff. -/
def plainBody (link : Link) (command : UInt8) (payload : List UInt8) : List UInt8 :=
  header link command payload ++ payload ++
    List.replicate (bodySize payload - hdrLen - payload.length) 0xff

def sealBlocks (schedule : List UInt32) (all : List AesBlock) : List UInt8 :=
  unblocks (all.map (dtvAes128EncryptBlock schedule))

def sealBody (schedule : List UInt32) (body : List UInt8) : List UInt8 :=
  sealBlocks schedule (blocks 16 (body.length / 16) body)

/-- `cs378x_send`: what it writes, unless it fails; `writable` says whether the socket takes
it. -/
def send (link : Link) (command : UInt8) (payload : List UInt8) (writable : Bool) :
    Option (List UInt8) × Link :=
  if dataSize < payload.length then
    (none, { link with error := s!"cs378x: payload too long ({payload.length})" })
  else
    let link := { link with msgId := link.msgId + 1 }
    let wire := put32 link.authToken ++
      sealBody (dtvAes128SetKey link.aesKey) (plainBody link command payload)
    if writable then (some wire, link) else (none, { link with error := "cs378x: could not send" })

/-- The loop of `cs378x_recv`; the first block says how many bytes to expect. The buffer is
full after sixty-four turns. -/
def recvBlocks (schedule : List UInt32) (mark : Source) :
    Nat → Nat → List UInt8 → Socket → Arrival × Socket
  | 0, _, _, socket => (.broken "cs378x: reply overflows its buffer", socket)
  | turns + 1, expected, data, socket =>
      if data.length < expected then
        if camdMsgSize < data.length + 16 then
          (.broken "cs378x: reply overflows its buffer", socket)
        else
          match readAll 16 socket with
          | (.all cipher, later) =>
              let read := data ++ (dtvAes128DecryptBlock schedule (headBlock 16 cipher)).toList
              let expected := if data = [] then messageLength read else expected
              recvBlocks schedule mark turns expected read later
          | (.timeout, later) | (.broken, later) => (.broken "cs378x: reply cut short", later)
      else (.message mark data, socket)

/-- The error that an arrival leaves. -/
def errorAfter (error : String) : Arrival → String
  | .silence => noAnswer
  | .broken text => text
  | .message .. => error

/-- `cs378x_recv`; what it returns for a message is the message's length. -/
def receive (link : Link) (mark : Source) (socket : Socket) : Arrival × Link × Socket :=
  match readAll 4 socket with
  | (.timeout, later) => (.silence, { link with error := noAnswer }, later)
  | (.broken, later) =>
      (.broken "cs378x: no reply", { link with error := "cs378x: no reply" }, later)
  | (.all token, later) =>
      let error := if be32 token 0 ≠ link.authToken.toNat then
        "cs378x: authentication token mismatch" else link.error
      let read := recvBlocks (dtvAes128SetKey link.aesKey) mark 65 dataSize [] later
      (read.1, { link with error := errorAfter error read.1 }, read.2)

/-! ## The body -/

theorem roundToBlock_bounds (size : Nat) :
    roundToBlock size % 16 = 0 ∧ size ≤ roundToBlock size ∧ roundToBlock size < size + 16 := by
  rw [roundToBlock]
  omega

variable {link : Link} {command : UInt8} {payload : List UInt8}

theorem length_header : (header link command payload).length = hdrLen := rfl

theorem length_plainBody : (plainBody link command payload).length = bodySize payload := by
  have bounds := (roundToBlock_bounds (hdrLen + payload.length)).2.1
  rw [plainBody, List.length_append, List.length_append, length_header, List.length_replicate,
    bodySize]
  omega

/-! ## Blocks are read back -/

section Blocks

variable {schedule : List UInt32} (mark : Source) {rest : List UInt8}

omit mark in
theorem length_sealBlocks (all : List AesBlock) :
    (sealBlocks schedule all).length = 16 * all.length := by
  rw [sealBlocks, length_unblocks, List.length_map]

omit mark in
theorem sealBlocks_append (front back : List AesBlock) :
    sealBlocks schedule (front ++ back) =
      sealBlocks schedule front ++ sealBlocks schedule back := by
  rw [sealBlocks, List.map_append, unblocks, List.flatMap_append]
  rfl

/-- One block more. -/
theorem recvBlocks_block {turns expected : Nat} {data : List UInt8} {block : AesBlock}
    {socket : Socket} (short : data.length < expected) (room : data.length + 16 ≤ camdMsgSize)
    (arrives : delivered socket = (dtvAes128EncryptBlock schedule block).toList ++ rest) :
    ∃ later, delivered later = rest ∧
      incoming socket = (dtvAes128EncryptBlock schedule block).toList ++ incoming later ∧
      recvBlocks schedule mark (turns + 1) expected data socket =
        recvBlocks schedule mark turns
          (if data = [] then messageLength (data ++ block.toList) else expected)
          (data ++ block.toList) later := by
  obtain ⟨later, read, left, parted⟩ := readAll_front arrives
  rw [Vector.length_toList] at read
  refine ⟨later, left, parted, ?_⟩
  have alone := headBlock_append (dtvAes128EncryptBlock schedule block) []
  rw [List.append_nil] at alone
  rw [recvBlocks, if_pos short, if_neg (Nat.not_lt.2 room), read]
  simp only [alone, dtvAes128_inverse]

/-- The blocks that are still expected. -/
theorem recvBlocks_blocks {turns : Nat} {data : List UInt8} {more : List AesBlock}
    {socket : Socket} (started : data ≠ []) (enough : more.length < turns)
    (room : data.length + 16 * more.length ≤ camdMsgSize)
    (arrives : delivered socket = sealBlocks schedule more ++ rest) :
    ∃ later, delivered later = rest ∧
      incoming socket = sealBlocks schedule more ++ incoming later ∧
      recvBlocks schedule mark turns (data.length + 16 * more.length) data socket =
        (.message mark (data ++ unblocks more), later) := by
  induction more generalizing turns data socket with
  | nil =>
      obtain ⟨turns, rfl⟩ := Nat.exists_eq_add_one_of_ne_zero (Nat.ne_of_gt enough)
      refine ⟨socket, arrives, rfl, ?_⟩
      have full : ¬ data.length < data.length + 16 * ([] : List AesBlock).length :=
        Nat.lt_irrefl data.length
      rw [recvBlocks, if_neg full]
      exact congrArg (fun all => (Arrival.message mark all, socket)) (List.append_nil data).symm
  | cons block more ih =>
      rw [List.length_cons] at enough room
      obtain ⟨turns, rfl⟩ := Nat.exists_eq_add_one_of_ne_zero 
        (Nat.ne_of_gt (Nat.zero_lt_of_lt enough))
      have front : sealBlocks schedule (block :: more) =
          (dtvAes128EncryptBlock schedule block).toList ++ sealBlocks schedule more := rfl
      rw [front, List.append_assoc] at arrives
      have short : data.length < data.length + 16 * (more.length + 1) := by omega
      obtain ⟨between, left, parted, read⟩ := @recvBlocks_block schedule mark _ turns _ data block
        socket short (by omega) arrives
      have size : (data ++ block.toList).length = data.length + 16 := by
        rw [List.length_append, Vector.length_toList]
      have begun : data ++ block.toList ≠ [] := fun none =>
        started (List.append_eq_nil_iff.1 none).1
      obtain ⟨later, left', parted', all⟩ := ih begun (Nat.lt_of_succ_lt_succ enough)
        (by rw [size]; omega) left
      refine ⟨later, left', ?_, ?_⟩
      · rw [parted, parted', front, List.append_assoc]
      · have same : data.length + 16 * (more.length + 1) =
            (data ++ block.toList).length + 16 * more.length := by
          rw [size]
          omega
        rw [List.length_cons, read, if_neg started, same, all, unblocks_cons, List.append_assoc]

/-- A message: the first block announces as many blocks as come. -/
theorem recvBlocks_whole {first : AesBlock} {more : List AesBlock} {socket : Socket}
    (few : more.length < 64)
    (announced : messageLength first.toList = 16 * (more.length + 1))
    (arrives : delivered socket = sealBlocks schedule (first :: more) ++ rest) :
    ∃ later, delivered later = rest ∧
      incoming socket = sealBlocks schedule (first :: more) ++ incoming later ∧
      recvBlocks schedule mark 65 dataSize [] socket =
        (.message mark (unblocks (first :: more)), later) := by
  have front : sealBlocks schedule (first :: more) =
      (dtvAes128EncryptBlock schedule first).toList ++ sealBlocks schedule more := rfl
  have size : first.toList.length = 16 := first.length_toList
  have begun : first.toList ≠ [] := by
    intro none
    rw [none] at size
    exact nomatch size
  rw [front, List.append_assoc] at arrives
  obtain ⟨between, left, parted, read⟩ := @recvBlocks_block schedule mark _ 64 dataSize [] first
    socket (by decide) (by decide) arrives
  have room : first.toList.length + 16 * more.length ≤ camdMsgSize := by
    rw [size, camdMsgSize]
    omega
  obtain ⟨later, left', parted', all⟩ := recvBlocks_blocks mark begun few room left
  refine ⟨later, left', ?_, ?_⟩
  · rw [parted, parted', front, List.append_assoc]
  · have same : messageLength first.toList = first.toList.length + 16 * more.length := by
      rw [announced, size]
      omega
    rw [read, if_pos rfl, List.nil_append, same, all, unblocks_cons]

end Blocks

/-- What `cs378x_recv` makes of a token and the blocks that the first one announces. -/
theorem receive_sealed {peer : Link} (mark : Source) {token : List UInt8} {first : AesBlock}
    {more : List AesBlock} {rest : List UInt8} {socket : Socket} (size : token.length = 4)
    (known : be32 token 0 = peer.authToken.toNat) (few : more.length < 64)
    (announced : messageLength first.toList = 16 * (more.length + 1))
    (arrives : delivered socket =
      token ++ (sealBlocks (dtvAes128SetKey peer.aesKey) (first :: more) ++ rest)) :
    ∃ later, receive peer mark socket = (.message mark (unblocks (first :: more)), peer, later) ∧
      delivered later = rest ∧ incoming socket =
        token ++ sealBlocks (dtvAes128SetKey peer.aesKey) (first :: more) ++ incoming later := by
  obtain ⟨between, read, left, parted⟩ := readAll_front arrives
  obtain ⟨later, left', parted', all⟩ := recvBlocks_whole mark few announced left
  rw [size] at read
  refine ⟨later, ?_, left', ?_⟩
  · simp only [receive, read, if_neg (not_not_intro known), all, errorAfter]
  · rw [parted, parted', List.append_assoc]

/-! ## The round trip -/

/-- The body holds what was sent, and its length is the one that `cs378x_recv` returns. -/
structure Recovers (body : List UInt8) (sent : Link) (command : UInt8) (payload : List UInt8) :
    Prop where
  length : body.length = bodySize payload
  returned : messageLength body = body.length
  command : octet body 0 = command.toNat
  size : octet body 1 = payload.length
  crc : be32 body 4 = (dtvCrc32 0 payload).toNat
  serviceId : be16 body 8 = sent.serviceId
  caSystemId : be16 body 10 = sent.caSystemId
  providerId : be32 body 12 = sent.providerId.toNat
  msgId : be16 body 16 = sent.msgId
  ecmPid : be16 body 18 = sent.ecmPid
  payload : (body.drop hdrLen).take (octet body 1) = payload

/-- A payload whose length fits into its byte is recovered. -/
theorem recovers_plainBody (fits : payload.length ≤ 255) :
    Recovers (plainBody link command payload) link command payload := by
  have size : octet (plainBody link command payload) 1 = payload.length :=
    Nat.mod_eq_of_lt (Nat.lt_succ_of_le fits)
  have behind : (plainBody link command payload).drop hdrLen =
      payload ++ List.replicate (bodySize payload - hdrLen - payload.length) 0xff := rfl
  refine ⟨length_plainBody, ?_, rfl, size, be32_quarters _ rfl rfl rfl rfl,
    be16_halves _ rfl rfl, be16_halves _ rfl rfl, be32_quarters _ rfl rfl rfl rfl,
    be16_halves _ rfl rfl, be16_halves _ rfl rfl, ?_⟩
  · rw [messageLength, size, length_plainBody, bodySize, hdrLen, Nat.add_comm]
  · rw [behind, size, List.take_left]

/-- The blocks of a body, and what the first one announces. -/
theorem blocks_plainBody : ∃ first more,
    blocks 16 ((plainBody link command payload).length / 16) (plainBody link command payload) =
      (first : AesBlock) :: more ∧
    unblocks (first :: more) = plainBody link command payload ∧
    16 * (more.length + 1) = bodySize payload ∧
    octet first.toList 1 = payload.length % 256 := by
  obtain ⟨aligned, least, -⟩ := roundToBlock_bounds (hdrLen + payload.length)
  have size : (plainBody link command payload).length = roundToBlock (hdrLen + payload.length) :=
    length_plainBody
  obtain ⟨count, counted⟩ : ∃ count, (plainBody link command payload).length / 16 = count + 1 :=
    Nat.exists_eq_add_one_of_ne_zero (by rw [hdrLen] at *; omega)
  have whole : 16 * (count + 1) = (plainBody link command payload).length := by omega
  have joined := unblocks_blocks (Nat.le_of_eq whole)
  rw [whole, List.take_length] at joined
  rw [counted]
  refine ⟨_, _, rfl, joined, ?_, ?_⟩
  · rw [length_blocks, whole, size, bodySize]
  · have enough : 16 ≤ (plainBody link command payload).length := by omega
    rw [toList_headBlock enough]
    rfl

theorem send_some {sent : Link} {wire : List UInt8} {writable : Bool}
    (written : send link command payload writable = (some wire, sent)) :
    payload.length ≤ dataSize ∧ sent = { link with msgId := link.msgId + 1 } ∧
      wire = put32 link.authToken ++
        sealBody (dtvAes128SetKey link.aesKey) (plainBody sent command payload) := by
  by_cases refused : dataSize < payload.length
  · rw [send, if_pos refused] at written
    exact nomatch written
  · rw [send, if_neg refused] at written
    cases writable with
    | false => exact nomatch written
    | true =>
        cases written
        exact ⟨Nat.le_of_not_lt refused, rfl, rfl⟩

theorem be32_put32 (value : UInt32) : be32 (put32 value) 0 = value.toNat :=
  be32_quarters value rfl rfl rfl rfl

/-- **The round trip.** What is written is read back, exactly and as it was, if and only if the
length of the payload fits into its byte. -/
theorem cs378x_round_trip_iff {sent peer : Link} {wire rest : List UInt8} {writable : Bool}
    {socket : Socket} (mark : Source)
    (written : send link command payload writable = (some wire, sent))
    (sameToken : peer.authToken = link.authToken) (sameKey : peer.aesKey = link.aesKey)
    (arrives : delivered socket = wire ++ rest) :
    (∃ body later, receive peer mark socket = (.message mark body, peer, later) ∧
      Recovers body sent command payload ∧ incoming socket = wire ++ incoming later ∧
      delivered later = rest) ↔ payload.length ≤ 255 := by
  constructor
  · rintro ⟨body, later, -, recovers, -⟩
    have small := octet_lt body 1
    rw [recovers.size] at small
    exact Nat.le_of_lt_succ small
  · intro fits
    obtain ⟨-, numbered, rfl⟩ := send_some written
    obtain ⟨first, more, cut, joined, count, size⟩ := @blocks_plainBody sent command payload
    obtain ⟨-, -, most⟩ := roundToBlock_bounds (hdrLen + payload.length)
    have recovers := @recovers_plainBody sent command payload fits
    rw [bodySize, hdrLen] at count
    rw [hdrLen] at most
    have few : more.length < 64 := by omega
    have announced : messageLength first.toList = 16 * (more.length + 1) := by
      rw [messageLength, size, Nat.mod_eq_of_lt (Nat.lt_succ_of_le fits), count, Nat.add_comm]
    rw [sealBody, cut, ← sameKey, List.append_assoc] at arrives
    have known : be32 (put32 link.authToken) 0 = peer.authToken.toNat := by
      rw [be32_put32, sameToken]
    obtain ⟨later, read, left, parted⟩ := receive_sealed mark rfl known few announced arrives
    rw [joined] at read
    refine ⟨_, later, read, recovers, ?_, left⟩
    rw [parted, sealBody, cut, sameKey]

/-! ## Two messages -/

def sampleLink : Link := ⟨0x12345678, .replicate 16 0x5a, 1, 0x0500, 0, 0x100, 7, ""⟩

def sampleEcm : List UInt8 := [0x80, 0x70, 0x02, 0x01, 0x02]

theorem cs378x_round_trip_iff_sample : ∃ wire sent,
    send sampleLink 0 sampleEcm true = (some wire, sent) ∧
    ∃ body later, receive sampleLink .unsolicited (giveBack wire []) =
        (.message .unsolicited body, sampleLink, later) ∧
      Recovers body sent 0 sampleEcm ∧
      incoming (giveBack wire []) = wire ++ incoming later ∧ delivered later = [] := by
  have written : send sampleLink 0 sampleEcm true = (some _, _) := rfl
  have sameToken : sampleLink.authToken = sampleLink.authToken := rfl
  have sameKey : sampleLink.aesKey = sampleLink.aesKey := rfl
  exact ⟨_, _, written, (cs378x_round_trip_iff .unsolicited written sameToken sameKey
    (delivered_giveBack _ [])).2 (by decide)⟩

/-- An ECM of 256 bytes. -/
def largestEcm : List UInt8 := [0x80, 0x70, 0xfd] ++ List.replicate 253 0

theorem length_largestEcm : largestEcm.length = 256 := by
  rw [largestEcm, List.length_append, List.length_replicate]
  rfl

/-- The largest payload announces no bytes: of its eighteen blocks two are read. -/
theorem largest_payload_misread : ∃ wire sent,
    send sampleLink 0 largestEcm true = (some wire, sent) ∧ wire.length = 292 ∧
    ∃ body later, receive sampleLink .unsolicited (giveBack wire []) =
        (.message .unsolicited body, sampleLink, later) ∧
      body.length = 32 ∧ (incoming later).length = 256 := by
  have accepted : ¬ dataSize < largestEcm.length := by
    rw [length_largestEcm]
    decide
  have rounded : bodySize largestEcm = 288 := by
    rw [bodySize, length_largestEcm]
    rfl
  obtain ⟨first, more, cut, joined, count, size⟩ :=
    @blocks_plainBody { sampleLink with msgId := 8 } 0 largestEcm
  rw [rounded] at count
  rw [length_largestEcm] at size
  have seventeen : more.length = 17 := by omega
  obtain ⟨second, others, rfl⟩ := List.exists_cons_of_length_eq_add_one seventeen
  have announced : messageLength first.toList = 16 * ([second].length + 1) := by
    rw [messageLength, size]
    rfl
  have parts := @sealBlocks_append (dtvAes128SetKey sampleLink.aesKey) [first, second] others
  have wire : put32 sampleLink.authToken ++ sealBody (dtvAes128SetKey sampleLink.aesKey)
      (plainBody { sampleLink with msgId := 8 } 0 largestEcm) =
        put32 sampleLink.authToken ++
          (sealBlocks (dtvAes128SetKey sampleLink.aesKey) [first, second] ++
            sealBlocks (dtvAes128SetKey sampleLink.aesKey) others) := by
    rw [← parts, sealBody, cut]
    rfl
  have arrives := delivered_giveBack (put32 sampleLink.authToken ++
    (sealBlocks (dtvAes128SetKey sampleLink.aesKey) [first, second] ++
      sealBlocks (dtvAes128SetKey sampleLink.aesKey) others)) []
  rw [List.append_assoc, List.append_assoc] at arrives
  have few : [second].length < 64 := by
    rw [List.length_singleton]
    decide
  obtain ⟨later, read, -, parted⟩ := receive_sealed .unsolicited rfl (be32_put32 _) few announced
    arrives
  rw [List.length_cons] at seventeen
  refine ⟨put32 sampleLink.authToken ++ sealBody (dtvAes128SetKey sampleLink.aesKey)
    (plainBody { sampleLink with msgId := 8 } 0 largestEcm), { sampleLink with msgId := 8 }, ?_, ?_,
    unblocks [first, second], later, ?_, ?_, ?_⟩
  · rw [send, if_neg accepted]
    rfl
  · rw [wire]
    simp only [List.length_append, length_sealBlocks, List.length_cons, List.length_nil, put32]
    omega
  · rw [wire]
    exact read
  · rw [length_unblocks]
    rfl
  · have all := congrArg List.length parted
    rw [incoming_giveBack] at all
    simp only [List.length_append, length_sealBlocks, List.length_cons, List.length_nil, put32]
      at all
    have none : (incoming []).length = 0 := rfl
    omega

end Camd.Cs378x
