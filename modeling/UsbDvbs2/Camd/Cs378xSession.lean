import UsbDvbs2.Camd.Boundaries
import UsbDvbs2.Camd.Dialogue
import UsbDvbs2.Crypto.Md5

/-! # A cs378x session

There is no login: both sides make the token and the key out of the credentials, and the first
ECM shows whether they are the same. What every request is told is what the server answered to
it, as long as no answer comes late.
-/

namespace Camd.Cs378x

open Bytes Crypt Cipher Runs

/-- What `derive_keys` uses of the configuration. -/
structure Account where
  user : List UInt8
  password : List UInt8

def Account.token (account : Account) : UInt32 := dtvCrc32 0 (md5 account.user)

def Account.key (account : Account) : AesBlock := headBlock 16 (md5 account.password)

def deriveKeys (account : Account) (link : Link) : Link :=
  { link with authToken := account.token, aesKey := account.key }

/-- `cs378x_login` -/
def cs378xLogin (account : Account) (link : Link) : Int × Link :=
  (1, { deriveKeys account link with error := "" })

/-- A section to be sent, and whether the socket takes it. -/
structure Ecm where
  data : List UInt8
  writable : Bool

/-- `cs378x_send_ecm` -/
def cs378xSendEcm (link : Link) (ecm : Ecm) : Option (List UInt8) × Link :=
  send link 0x00 ecm.data ecm.writable

/-- `cs378x_recv_cw`, with the messages it may still read. -/
def cs378xRecvCw : Nat → Link → Socket → Verdict × Link × Socket :=
  recvCwFrom fun _ => .unsolicited

/-- A message of the server. -/
structure Message where
  command : UInt8
  payload : List UInt8
  wire : List UInt8

/-- It is written under the key, with whatever token. -/
def Message.Sealed (key : AesBlock) (message : Message) : Prop :=
  message.payload.length ≤ 255 ∧ ∃ (link sent : Link) (writable : Bool), link.aesKey = key ∧
    send link message.command message.payload writable = (some message.wire, sent)

/-- A request: `cs378x_send_ecm`, then `cs378x_recv_cw`. -/
def exchangeEcm : Link × Socket → Served Ecm Message →
    (Option (List UInt8) × Verdict) × Link × Socket :=
  exchange cs378xSendEcm cs378xRecvCw (maxAttempts + 1)

/-- What an answer says: two control words, or that there are none. -/
def Message.verdict (message : Message) : Verdict :=
  if message.command = 0x01 ∧ 16 ≤ message.payload.length then
    .word .unsolicited (wordsAt message.payload 0)
  else .refused

/-- The server asks for EMMs. -/
structure Message.Aside (key : AesBlock) (message : Message) : Prop where
  sealed : message.Sealed key
  request : message.command = 0x05

/-- Everything else answers. -/
structure Message.Answers (key : AesBlock) (message : Message) : Prop where
  sealed : message.Sealed key
  other : message.command ≠ 0x05

def Ecm.Fits (ecm : Ecm) : Prop := ecm.data.length ≤ 255 ∧ ecm.writable = true

/-- Who holds the token and the key reads the ECM, in whatever pieces it comes. -/
def ReadsEcm (link : Link) (msgId : UInt16) (ecm : Ecm) (wire : List UInt8) : Prop :=
  ∀ (peer : Link) (mark : Source) (socket : Socket) (rest : List UInt8),
    peer.authToken = link.authToken → peer.aesKey = link.aesKey →
    delivered socket = wire ++ rest →
    ∃ body later, receive peer mark socket = (.message mark body, peer, later) ∧
      Recovers body { link with msgId } 0x00 ecm.data ∧ delivered later = rest

/-- The connection, but for its last error. -/
def Known (link : Link) (msgId : UInt16) (current : Link) : Prop :=
  ∃ error, current = { link with msgId, error }

/-! ## One message -/

section Message

variable {schedule : List UInt32} {mark source : Source} {socket later : Socket}

theorem recvBlocks_behindPause {turns expected : Nat} {data bytes : List UInt8}
    (read : recvBlocks schedule mark turns expected data socket = (.message source bytes, later)) :
    behindPause later = behindPause socket := by
  induction turns generalizing expected data socket with
  | zero => cases read
  | succ turns ih =>
      rw [recvBlocks] at read
      split at read
      · split at read
        · cases read
        · split at read
          · rename_i got
            exact (ih read).trans (readAll_behindPause got)
          · cases read
          · cases read
      · cases read
        rfl

/-- A whole message is read whatever its token is; a strange one only leaves a note. -/
theorem receive_plainBody {peer link : Link} {command : UInt8} {payload token rest : List UInt8}
    (mark : Source) (size : token.length = 4) (fits : payload.length ≤ 255)
    (arrives : delivered socket = token ++
      (sealBody (dtvAes128SetKey peer.aesKey) (plainBody link command payload) ++ rest)) :
    ∃ error later, receive peer mark socket =
        (.message mark (plainBody link command payload), { peer with error }, later) ∧
      (be32 token 0 = peer.authToken.toNat → error = peer.error) ∧
      delivered later = rest ∧ behindPause later = behindPause socket := by
  obtain ⟨first, more, cut, joined, count, announced⟩ := @blocks_plainBody link command payload
  obtain ⟨-, -, most⟩ := roundToBlock_bounds (hdrLen + payload.length)
  rw [bodySize, hdrLen] at count
  rw [hdrLen] at most
  have whole : messageLength first.toList = 16 * (more.length + 1) := by
    rw [messageLength, announced, Nat.mod_eq_of_lt (Nat.lt_succ_of_le fits), count, Nat.add_comm]
  rw [sealBody, cut] at arrives
  obtain ⟨between, read, left, -⟩ := readAll_front arrives
  obtain ⟨later, left', -, all⟩ := recvBlocks_whole mark (by omega) whole left
  rw [size] at read
  rw [joined] at all
  refine ⟨if be32 token 0 ≠ peer.authToken.toNat then "cs378x: authentication token mismatch"
    else peer.error, later, ?_, ?_, left',
    (recvBlocks_behindPause all).trans (readAll_behindPause read)⟩
  · simp only [receive, read, all, errorAfter]
  · intro known
    rw [if_neg (not_not_intro known)]

theorem octet_eq_iff {body : List UInt8} {command : UInt8} (is : octet body 0 = command.toNat)
    (value : UInt8) : octet body 0 = value.toNat ↔ command = value := by
  rw [is]
  exact UInt8.toNat_inj

theorem wordsAt_plainBody {link : Link} {command : UInt8} {payload : List UInt8}
    (long : 16 ≤ payload.length) :
    wordsAt (plainBody link command payload) 20 = wordsAt payload 0 := by
  have same {pos : Nat} (inside : pos < 16) :
      (plainBody link command payload).getD (20 + pos) 0 = payload.getD pos 0 := by
    have behind : (plainBody link command payload).drop 20 =
        payload ++ List.replicate (bodySize payload - hdrLen - payload.length) 0xff := rfl
    rw [List.getD_eq_getElem?_getD, ← List.getElem?_drop, behind,
      List.getElem?_append_left (by omega), List.getD_eq_getElem?_getD]
  have first (i : Fin 8) : (plainBody link command payload).getD (20 + i) 0 =
      payload.getD (0 + i) 0 := by
    rw [Nat.zero_add]
    exact same (by omega)
  have second (i : Fin 8) : (plainBody link command payload).getD (20 + 8 + i) 0 =
      payload.getD (0 + 8 + i) 0 := by
    rw [Nat.zero_add, Nat.add_assoc]
    exact same (by omega)
  simp only [wordsAt, keyAt, first, second]

/-- What is made of a message that is no EMM request. -/
theorem conclude_plainBody (link : Link) {message : Message} (error : String)
    (fits : message.payload.length ≤ 255) :
    (conclude .unsolicited (plainBody link message.command message.payload) error).1 =
      message.verdict := by
  have recovers := @recovers_plainBody link message.command message.payload fits
  have answer : octet (plainBody link message.command message.payload) 0 = 1 ↔
      message.command = 0x01 := octet_eq_iff recovers.command 0x01
  obtain ⟨aligned, least, most⟩ := roundToBlock_bounds (hdrLen + message.payload.length)
  rw [conclude, Message.verdict]
  by_cases word : message.command = 0x01
  · rw [if_neg (not_not_intro (answer.mpr word)), recovers.returned, recovers.length, bodySize,
      recovers.size]
    rw [hdrLen] at aligned least most ⊢
    by_cases long : 16 ≤ message.payload.length
    · rw [if_neg (by omega), if_pos ⟨word, long⟩, wordsAt_plainBody long]
    · rw [if_pos (by omega), if_neg fun both => long both.2]
  · rw [if_pos fun same => word (answer.mp same), if_neg fun both => word both.1]

end Message

/-! ## The session -/

section Listens

variable {link : Link} {msgId : UInt16}

theorem receive_message {current : Link} {message : Message} {socket : Socket} {rest : List UInt8}
    (known : Known link msgId current) (sealed : message.Sealed link.aesKey)
    (arrives : delivered socket = message.wire ++ rest) :
    ∃ sent current' later, receive current .unsolicited socket =
        (.message .unsolicited (plainBody sent message.command message.payload), current', later) ∧
      Known link msgId current' ∧ delivered later = rest ∧
      behindPause later = behindPause socket := by
  obtain ⟨error, rfl⟩ := known
  obtain ⟨fits, peer, sent, writable, key, written⟩ := sealed
  obtain ⟨-, -, wire⟩ := send_some written
  rw [wire, List.append_assoc, key] at arrives
  obtain ⟨error', later, received, -, left, pause⟩ :=
    @receive_plainBody socket { link with msgId, error } sent message.command message.payload
      (put32 peer.authToken) rest .unsolicited rfl fits arrives
  exact ⟨sent, _, later, received, ⟨error', rfl⟩, left, pause⟩

theorem recvCw_passes (turns : Nat) (current : Link) (message : Message) (rest : List UInt8)
    (socket : Socket) (known : Known link msgId current) (aside : message.Aside link.aesKey)
    (arrives : delivered socket = message.wire ++ rest) :
    ∃ current' later, cs378xRecvCw (turns + 1) current socket =
        cs378xRecvCw turns current' later ∧
      Known link msgId current' ∧ delivered later = rest ∧
      behindPause later = behindPause socket := by
  obtain ⟨sent, current', later, received, known', left, pause⟩ :=
    receive_message known aside.sealed arrives
  have recovers := @recovers_plainBody sent message.command message.payload aside.sealed.1
  have request : isEmmRequest (plainBody sent message.command message.payload) = true :=
    beq_iff_eq.mpr ((octet_eq_iff recovers.command 0x05).mpr aside.request)
  refine ⟨current', later, ?_, known', left, pause⟩
  rw [cs378xRecvCw, recvCwFrom, received]
  simp only [if_pos request]

theorem recvCw_decides (turns : Nat) (current : Link) (message : Message) (rest : List UInt8)
    (socket : Socket) (known : Known link msgId current) (answers : message.Answers link.aesKey)
    (arrives : delivered socket = message.wire ++ rest) :
    ∃ current' later, cs378xRecvCw (turns + 1) current socket =
        (message.verdict, current', later) ∧
      Known link msgId current' ∧ delivered later = rest ∧
      behindPause later = behindPause socket := by
  obtain ⟨sent, current', later, received, ⟨error, rfl⟩, left, pause⟩ :=
    receive_message known answers.sealed arrives
  have recovers := @recovers_plainBody sent message.command message.payload answers.sealed.1
  have answer : ¬ isEmmRequest (plainBody sent message.command message.payload) = true :=
    fun request => answers.other ((octet_eq_iff recovers.command 0x05).mp (beq_iff_eq.mp request))
  have decided := conclude_plainBody sent error answers.sealed.1
  have read : cs378xRecvCw (turns + 1) current socket =
      (message.verdict, { link with
        msgId
        error := (conclude .unsolicited (plainBody sent message.command message.payload)
          error).2 }, later) := by
    rw [cs378xRecvCw, recvCwFrom, received]
    simp only [if_neg answer, decided]
  exact ⟨_, later, read, ⟨_, rfl⟩, left, pause⟩

/-- What `cs378x_recv_cw` makes of the messages of one request. -/
theorem recvCw_listens (link : Link) (msgId : UInt16) :
    Listens cs378xRecvCw Message.wire Message.verdict (Message.Aside link.aesKey)
      (Message.Answers link.aesKey) (Known link msgId) where
  passes := recvCw_passes
  decides := recvCw_decides
  pauses := by
    rintro turns current later ⟨error, rfl⟩
    exact ⟨_, rfl, ⟨noAnswer, rfl⟩⟩

theorem sendEcm_sends (link : Link) (msgId : UInt16) (current : Link) (ecm : Ecm)
    (known : Known link msgId current) (fits : ecm.Fits) :
    ∃ wire current', cs378xSendEcm current ecm = (some wire, current') ∧
      ReadsEcm link (msgId + 1) ecm wire ∧ Known link (msgId + 1) current' := by
  obtain ⟨error, rfl⟩ := known
  obtain ⟨short, taken⟩ := fits
  have room : ¬ dataSize < ecm.data.length := by
    rw [dataSize]
    omega
  refine ⟨put32 link.authToken ++ sealBody (dtvAes128SetKey link.aesKey)
    (plainBody { link with msgId := msgId + 1, error } 0x00 ecm.data), _, ?_, ?_, ⟨error, rfl⟩⟩
  · rw [cs378xSendEcm, send, if_neg room, taken]
    rfl
  · intro peer mark socket rest token key arrives
    rw [List.append_assoc, ← key] at arrives
    obtain ⟨error', later, received, same, left, -⟩ :=
      @receive_plainBody socket peer { link with msgId := msgId + 1, error } 0x00 ecm.data
        (put32 link.authToken) rest mark rfl short arrives
    have known : be32 (put32 link.authToken) 0 = peer.authToken.toNat := by
      rw [be32_put32, token]
    rw [same known] at received
    have recovers := @recovers_plainBody { link with msgId := msgId + 1, error } 0x00 ecm.data short
    exact ⟨_, later, received, { recovers with }, left⟩

end Listens

/-- A whole connection with a server that holds the same credentials, from the login on: however
many ECMs follow, and however many EMM requests come between, every one is read by the server as
it was handed over, with its own id, and is told the answer that follows it. -/
theorem cs378x_connection {account : Account} {link : Link} {socket : Socket}
    {rest : List (List UInt8)} {requests : List (Served Ecm Message)} (more : rest ≠ [])
    (fair : ∀ request ∈ numbered link.msgId requests, Fair maxAttempts Ecm.Fits
      (Message.Aside account.key) (Message.Answers account.key) request.2)
    (arrives : stretches socket = spoken Message.wire rest requests) :
    let login := cs378xLogin account link
    let talk := converse exchangeEcm (login.2, socket) requests
    login.1 = 1 ∧ login.2.authToken = account.token ∧ login.2.aesKey = account.key ∧
      List.Forall₂ (Told Message.verdict (ReadsEcm login.2)) (numbered link.msgId requests)
        talk.1 ∧
      stretches talk.2.2 = rest := by
  intro login talk
  have known : Known login.2 link.msgId login.2 := ⟨"", rfl⟩
  obtain ⟨told, left⟩ := session_told (sendEcm_sends login.2) (recvCw_listens login.2) more known
    fair arrives
  exact ⟨rfl, rfl, rfl, told, left⟩

/-! ## One connection -/

def sampleAccount : Account := ⟨[0x75], [0x70]⟩

def sampleRequest (wire : List UInt8) : Served Ecm Message :=
  ⟨⟨sampleEcm, true⟩, [], some ⟨0x01, List.replicate 16 7, wire⟩⟩

theorem sampleEcm_fits : Ecm.Fits ⟨sampleEcm, true⟩ := by
  have length : sampleEcm.length = 5 := rfl
  rw [Ecm.Fits, length]
  exact ⟨by omega, rfl⟩

/-- A server that answers one ECM. -/
theorem cs378x_connection_sample : ∃ wire,
    List.Forall₂ (Told Message.verdict (ReadsEcm (cs378xLogin sampleAccount sampleLink).2))
      [(8, sampleRequest wire)]
      (converse exchangeEcm ((cs378xLogin sampleAccount sampleLink).2, giveBack wire [])
        [sampleRequest wire]).1 := by
  have written : send { sampleLink with aesKey := sampleAccount.key } 0x01 (List.replicate 16 7)
      true = (some _, _) := rfl
  have short : (List.replicate 16 (7 : UInt8)).length ≤ 255 := by
    rw [List.length_replicate]
    omega
  have speaks (wire : List UInt8) :
      stretches (giveBack wire []) = spoken Message.wire [[]] [sampleRequest wire] := by
    rw [stretches_giveBack]
    rfl
  obtain ⟨-, -, -, told, -⟩ := @cs378x_connection sampleAccount sampleLink (giveBack _ []) [[]]
    [sampleRequest _] (List.cons_ne_nil _ _) (fun request listed => by
      rw [List.mem_singleton.mp listed]
      refine ⟨sampleEcm_fits, fun message absurd => (List.not_mem_nil absurd).elim,
        Nat.zero_le _, ?_⟩
      intro answer same
      cases same
      exact ⟨⟨short, _, _, true, rfl, written⟩, by decide⟩) (speaks _)
  exact ⟨_, told⟩

end Camd.Cs378x
