import UsbDvbs2.Camd.Answers
import UsbDvbs2.Camd.Boundaries
import UsbDvbs2.Camd.NewcamdLogin

/-! # A newcamd session

One ECM after the other with a server that may announce its cards, answer late or not at all:
what every request is told is what the server answered to it.
-/

namespace Camd.Newcamd

open Bytes Crypt Cipher Runs

/-- What the header of an ECM is written from. -/
structure Target where
  serviceId : UInt16
  caSystemId : UInt16
  providerId : UInt32

/-- A section to be sent, and what is drawn for it. -/
structure Ecm where
  data : List UInt8
  draw : Draw

/-- A message of the server. -/
structure Message where
  msgId : UInt16
  payload : List UInt8
  wire : List UInt8

/-- It is written under the key, with this id and payload. -/
def Message.Sealed (key : Vector UInt8 16) (message : Message) : Prop :=
  ∃ (link sent : Link) (serviceId caSystemId : UInt16) (providerId : UInt32)
    (useMsgId writable : Bool) (padding iv : Block), link.activeKey = key ∧
      link.messageId useMsgId = message.msgId ∧
      sendMessage link message.payload serviceId caSystemId providerId useMsgId padding iv
        writable = (some message.wire, sent)

/-- `newcamd_send_ecm` -/
def newcamdSendEcm (target : Target) (link : Link) (ecm : Ecm) : Option (List UInt8) × Link :=
  sendMessage link ecm.data target.serviceId target.caSystemId target.providerId true
    ecm.draw.padding ecm.draw.iv ecm.draw.writable

/-- `newcamd_recv_cw`, with the messages it may still read. -/
def newcamdRecvCw : Nat → Link → Socket → Verdict × Link × Socket :=
  recvCwFrom fun _ => .unsolicited

/-- A request: `newcamd_send_ecm`, then `newcamd_recv_cw`. -/
def exchangeEcm (target : Target) : Link × Socket → Served Ecm Message →
    (Option (List UInt8) × Verdict) × Link × Socket :=
  exchange (newcamdSendEcm target) newcamdRecvCw (maxAttempts + 1)

/-- What an answer says: two control words, or that there are none. -/
def Message.verdict (message : Message) : Verdict :=
  if message.payload.length = 19 then .word .unsolicited (wordsAt message.payload 3) else .refused

/-- A message that cannot be taken for the answer to the request with this id. -/
structure Message.Aside (key : Vector UInt8 16) (msgId : UInt16) (message : Message) : Prop where
  sealed : message.Sealed key
  other : message.msgId ≠ msgId ∨ isEcmTable message.payload = false

/-- The answer to the request with this id. -/
structure Message.Answers (key : Vector UInt8 16) (msgId : UInt16) (message : Message) : Prop where
  sealed : message.Sealed key
  id : message.msgId = msgId
  table : isEcmTable message.payload = true
  length : message.payload.length = 19 ∨ message.payload.length = 3

/-- The sections there is room for, and a socket that takes them. -/
def Ecm.Fits (ecm : Ecm) : Prop :=
  3 ≤ ecm.data.length ∧ ecm.data.length ≤ 373 ∧ ecm.draw.writable = true

/-- How the server reads an ECM. -/
def ReadsEcm (key : Vector UInt8 16) (target : Target) (msgId : UInt16) (ecm : Ecm)
    (wire : List UInt8) : Prop :=
  Reads key wire (reencode ecm.data) msgId target.serviceId target.caSystemId
    (target.providerId.toNat % 2 ^ 24)

/-- The key in use, and the id of the last message. -/
def Known (key : Vector UInt8 16) (msgId : UInt16) (link : Link) : Prop :=
  link.activeKey = key ∧ link.msgId = msgId

/-! ## One message -/

section Message

variable {link : Link} {message : Message} {mark : Source} {socket : Socket} {rest : List UInt8}

theorem isEcmTable_reencode (data : List UInt8) : isEcmTable (reencode data) = isEcmTable data := by
  rw [isEcmTable, headD_reencode, isEcmTable]

theorem wordsAt_reencode (data : List UInt8) : wordsAt (reencode data) 3 = wordsAt data 3 := by
  have same (pos : Nat) : (reencode data).getD (3 + pos) 0 = data.getD (3 + pos) 0 := by
    rw [reencode, List.getD_eq_getElem?_getD, List.getElem?_set_ne (by omega),
      List.getElem?_set_ne (by omega), List.getD_eq_getElem?_getD]
  have more (pos : Nat) : (reencode data).getD (3 + 8 + pos) 0 = data.getD (3 + 8 + pos) 0 := by
    rw [Nat.add_assoc]
    exact same (8 + pos)
  simp only [wordsAt, keyAt, same, more]

/-- A message is stale, or its payload is taken. -/
theorem receive_sealed (sealed : message.Sealed link.activeKey)
    (arrives : delivered socket = message.wire ++ rest) :
    ∃ later, receive link true mark socket =
        (if message.msgId = link.msgId then .payload mark (reencode message.payload) else .stale,
          link, later) ∧
      delivered later = rest ∧ behindPause later = behindPause socket := by
  obtain ⟨peer, sent, serviceId, caSystemId, providerId, useMsgId, writable, padding, iv, sameKey,
    sameId, written⟩ := sealed
  by_cases current : message.msgId = link.msgId
  · obtain ⟨later, received, left, pause, -⟩ := receive_arrived mark written sameKey
      (fun _ => current.symm.trans sameId.symm) arrives
    exact ⟨later, by rw [received, if_pos current], left, pause⟩
  · obtain ⟨bytes, later, read, deciphers, left, pause, -⟩ :=
      readMessage_arrived mark written arrives
    rw [sameKey] at read
    have stale : be16 bytes 2 ≠ link.msgId := by
      rw [deciphers.header.msgId, sameId]
      exact current
    refine ⟨later, ?_, left, pause⟩
    simp only [receive, read, recvMessage_stale _ _ stale, if_neg current]

end Message

/-! ## Reading an answer -/

section Listens

variable {key : Vector UInt8 16} {msgId : UInt16}

theorem recvCw_passes (turns : Nat) (link : Link) (message : Message) (rest : List UInt8)
    (socket : Socket) (known : Known key msgId link) (aside : message.Aside key msgId)
    (arrives : delivered socket = message.wire ++ rest) :
    ∃ link' later, newcamdRecvCw (turns + 1) link socket = newcamdRecvCw turns link' later ∧
      Known key msgId link' ∧ delivered later = rest ∧ behindPause later = behindPause socket := by
  obtain ⟨rfl, rfl⟩ := known
  obtain ⟨later, received, left, pause⟩ :=
    @receive_sealed link message .unsolicited _ _ aside.sealed arrives
  refine ⟨link, later, ?_, ⟨rfl, rfl⟩, left, pause⟩
  rw [newcamdRecvCw, recvCwFrom, received]
  by_cases current : message.msgId = link.msgId
  · have table := aside.other.resolve_left (absurd current)
    simp only [if_pos current, isEcmTable_reencode, table, Bool.false_eq_true, if_false]
  · simp only [if_neg current]

theorem recvCw_decides (turns : Nat) (link : Link) (message : Message) (rest : List UInt8)
    (socket : Socket) (known : Known key msgId link) (answers : message.Answers key msgId)
    (arrives : delivered socket = message.wire ++ rest) :
    ∃ link' later, newcamdRecvCw (turns + 1) link socket = (message.verdict, link', later) ∧
      Known key msgId link' ∧ delivered later = rest ∧ behindPause later = behindPause socket := by
  obtain ⟨rfl, rfl⟩ := known
  obtain ⟨later, received, left, pause⟩ :=
    @receive_sealed link message .unsolicited _ _ answers.sealed arrives
  rw [if_pos answers.id] at received
  simp only [newcamdRecvCw, recvCwFrom, received, isEcmTable_reencode, answers.table, if_true,
    conclude, length_reencode, wordsAt_reencode, Message.verdict]
  rcases answers.length with word | none
  · rw [if_pos word, if_pos word]
    exact ⟨link, later, rfl, ⟨rfl, rfl⟩, left, pause⟩
  · have short : ¬ message.payload.length = 19 := by omega
    rw [if_neg short, if_neg short, if_pos none]
    exact ⟨_, later, rfl, ⟨rfl, rfl⟩, left, pause⟩

/-- What `newcamd_recv_cw` makes of the messages of one request. -/
theorem recvCw_listens (key : Vector UInt8 16) (msgId : UInt16) :
    Listens newcamdRecvCw Message.wire Message.verdict (Message.Aside key msgId)
      (Message.Answers key msgId) (Known key msgId) where
  passes := recvCw_passes
  decides := recvCw_decides
  pauses := fun _ link _ known => ⟨{ link with error := noAnswer }, rfl, known⟩

theorem sendEcm_sends (key : Vector UInt8 16) (target : Target) (msgId : UInt16) (link : Link)
    (ecm : Ecm) (known : Known key msgId link) (fits : ecm.Fits) :
    ∃ sent link', newcamdSendEcm target link ecm = (some sent, link') ∧
      ReadsEcm key target (msgId + 1) ecm sent ∧ Known key (msgId + 1) link' := by
  obtain ⟨rfl, rfl⟩ := known
  obtain ⟨long, short, taken⟩ := fits
  obtain ⟨wire, sent⟩ := sendMessage_fits link target.serviceId target.caSystemId
    target.providerId true ecm.draw.padding ecm.draw.iv long short
  refine ⟨wire, link.number true, ?_, reads_written sent, rfl, rfl⟩
  rw [newcamdSendEcm, taken, sent]

end Listens

/-! ## A connection -/

/-- A whole connection with a server that holds the configured key. In whatever pieces its bytes
come, both sides end the login with one traffic key, and with no other key; and however many
ECMs follow, and however late, silent or talkative the server is about each of them, every one
is told what the server answered to it and to no other. -/
theorem newcamd_connection {account : Account} {random : DesKey} {ack behind : List UInt8}
    {card : CardAnswer} {first second : Draw} {session : Session} {socket : Socket}
    {rest : List (List UInt8)} {requests : List (Served Ecm Message)} (target : Target)
    (fits : account.Fits) (taken : first.writable = true ∧ second.writable = true)
    (acked : Written (loginKey random account.desKey) [msgLoginAck, 0, 0] ack)
    (told : ∀ answer ∈ card, Written (trafficKey account) answer.1 answer.2)
    (fair : ∀ request ∈ numbered 1 requests, Fair maxAttempts Ecm.Fits
      (Message.Aside (trafficKey account) request.1)
      (Message.Answers (trafficKey account) request.1) request.2)
    (more : rest ≠ [])
    (arrives : stretches socket = heard (random.toList ++ ack) (card.map Prod.snd)
      (spoken Message.wire rest requests)) :
    let ended := newcamdLogin account first second behind session socket
    let talk := converse (exchangeEcm target) (ended.session.link, ended.socket) requests
    (∃ login request payload, Agreed account random card behind login request payload ended) ∧
      List.Forall₂ (Told Message.verdict (ReadsEcm (trafficKey account) target))
        (numbered 1 requests) talk.1 ∧
      stretches talk.2.2 = rest ∧
      ∀ other : DesKey,
        (loginKey random other = loginKey random account.desKey ↔ other = account.desKey) ∧
        (trafficKey { account with desKey := other } = trafficKey account ↔
          other = account.desKey) := by
  intro ended talk
  obtain ⟨next, others, same⟩ := spoken_cons Message.wire more requests
  have nonempty : spoken Message.wire rest requests ≠ [] := by
    rw [same]
    exact List.cons_ne_nil next others
  obtain ⟨agreed, left⟩ := @newcamdLogin_agrees account first second behind session socket _ card
    random ack fits taken acked told nonempty arrives
  refine ⟨agreed, ?_⟩
  obtain ⟨login, request, payload, agreed⟩ := agreed
  have known : Known (trafficKey account) 1 ended.session.link := by
    rw [show ended.session.link = _ from agreed.link]
    exact ⟨rfl, rfl⟩
  obtain ⟨replies, behind⟩ := session_told (sendEcm_sends (trafficKey account) target)
    (recvCw_listens (trafficKey account)) more known fair left
  exact ⟨replies, behind, fun other => ⟨loginKey_inj, trafficKey_inj⟩⟩

/-! ## One connection -/

def sampleAccount : Account := ⟨[0x75], [0x70], .zero⟩

def sampleDraw : Draw := ⟨.replicate 8 0, .replicate 8 0, true⟩

def sampleSession : Session := ⟨sampleLink, .replicate 16 0, .replicate 16 0, 0⟩

/-- Two control words. -/
def sampleAnswer : List UInt8 := [0x80, 0, 16] ++ List.replicate 16 7

def sampleRequest (wire : List UInt8) : Served Ecm Message :=
  ⟨⟨sampleEcm, sampleDraw⟩, [], some ⟨2, sampleAnswer, wire⟩⟩

theorem sampleEcm_fits : Ecm.Fits ⟨sampleEcm, sampleDraw⟩ := by
  have length : sampleEcm.length = 5 := rfl
  rw [Ecm.Fits, length]
  exact ⟨by omega, by omega, rfl⟩

theorem sampleRequest_fair {wire : List UInt8} {sent : Link}
    (written : sendMessage ⟨trafficKey sampleAccount, 1, ""⟩ sampleAnswer 0 0 0 true
      (.replicate 8 0) (.replicate 8 0) true = (some wire, sent)) :
    Fair maxAttempts Ecm.Fits (Message.Aside (trafficKey sampleAccount) 2)
      (Message.Answers (trafficKey sampleAccount) 2) (sampleRequest wire) where
  fits := sampleEcm_fits
  apart := fun message absurd => (List.not_mem_nil absurd).elim
  few := Nat.zero_le _
  sound := by
    intro answer same
    cases same
    exact ⟨⟨_, _, 0, 0, 0, true, true, _, _, rfl, rfl, written⟩, rfl, rfl, .inl rfl⟩

/-- A server that is silent about its card and then answers one ECM. -/
theorem newcamd_connection_sample : ∃ ack wire socket login request payload,
    let ended := newcamdLogin sampleAccount sampleDraw sampleDraw [] sampleSession socket
    Agreed sampleAccount .zero none [] login request payload ended ∧
      List.Forall₂ (Told Message.verdict (ReadsEcm (trafficKey sampleAccount) ⟨1, 0x0500, 0⟩))
        [(2, sampleRequest wire)]
        (converse (exchangeEcm ⟨1, 0x0500, 0⟩) (ended.session.link, ended.socket)
          [sampleRequest wire]).1 ∧
      stretches socket = [DesKey.zero.toList ++ ack, wire] := by
  obtain ⟨ack, acked⟩ := @sendMessage_fits ⟨loginKey .zero .zero, 0, ""⟩ [msgLoginAck, 0, 0] 0 0 0
    false (.replicate 8 0) (.replicate 8 0) (by decide)
    (by simp only [List.length_cons, List.length_nil]; omega)
  obtain ⟨wire, written⟩ := @sendMessage_fits ⟨trafficKey sampleAccount, 1, ""⟩ sampleAnswer 0 0 0
    true (.replicate 8 0) (.replicate 8 0) (by decide)
    (by simp only [sampleAnswer, List.length_append, List.length_cons, List.length_nil,
      List.length_replicate]; omega)
  have nothing : delivered (.timeout :: giveBack wire []) = [] := rfl
  have pause : behindPause (.timeout :: giveBack wire []) = some (giveBack wire []) := rfl
  have speaks : stretches (giveBack (DesKey.zero.toList ++ ack) (.timeout :: giveBack wire [])) =
      [DesKey.zero.toList ++ ack, wire] := by
    rw [stretches_giveBack, nothing, pause, List.append_nil, Option.map_some, Option.getD_some,
      stretches_giveBack]
    change [_, wire ++ []] = _
    rw [List.append_nil]
  have fits : sampleAccount.Fits :=
    ⟨by decide, fun byte listed => by rw [List.mem_singleton.mp listed]; decide⟩
  have talk : spoken Message.wire [[]] [sampleRequest wire] = [wire] := by
    change [[] ++ (wire ++ [])] = _
    rw [List.nil_append, List.append_nil]
  obtain ⟨⟨login, request, payload, agreed⟩, told, -⟩ := @newcamd_connection sampleAccount .zero
    ack [] none sampleDraw sampleDraw sampleSession
    (giveBack (DesKey.zero.toList ++ ack) (.timeout :: giveBack wire [])) [[]]
    [sampleRequest wire] ⟨1, 0x0500, 0⟩ fits ⟨rfl, rfl⟩
    ⟨_, _, 0, 0, 0, false, true, _, _, rfl, acked⟩ (fun answer absurd => by cases absurd)
    (fun request listed => by
      rw [List.mem_singleton.mp listed]
      exact sampleRequest_fair written) (List.cons_ne_nil _ _) (by rw [talk]; exact speaks)
  exact ⟨ack, wire, _, login, request, payload, agreed, told, speaks⟩

end Camd.Newcamd
