import UsbDvbs2.Camd.Dialogue
import UsbDvbs2.Camd.KeySpread
import UsbDvbs2.Camd.NewcamdWire
import UsbDvbs2.Crypto.Md5

/-! # The newcamd login

`newcamd_login` of `dtv_camd_newcamd.c`: fourteen random bytes from the server, the user and
the crypted password under the login key made of them, and behind the answer the traffic key.
The card that the server holds is asked for, and need not be told.
-/

namespace Camd.Newcamd

open Bytes Crypt Cipher

/-- What the login uses of the configuration; the texts stand without their NUL. -/
structure Account where
  user : List UInt8
  password : List UInt8
  desKey : DesKey

/-- `$1$abcdefgh$`. -/
def loginSalt : List UInt8 :=
  [0x24, 0x31, 0x24, 0x61, 0x62, 0x63, 0x64, 0x65, 0x66, 0x67, 0x68, 0x24]

def md5CryptSize : Nat := 64

/-- The crypted password in front of its NUL. -/
def Account.crypted (account : Account) : List UInt8 :=
  (dtvMd5Crypt account.password loginSalt md5CryptSize).getD []

/-- The configured key with the server's bytes. -/
def mixed (random desKey : DesKey) : DesKey := Vector.zipWith (fun a b => a ^^^ b) random desKey

/-- One byte of the password goes into the key, all around it. -/
def mixIn (key : DesKey) (place : UInt8 × Nat) : DesKey :=
  let inside := Nat.mod_lt place.2 (by decide : 14 > 0)
  key.set (place.2 % 14) (key.get ⟨place.2 % 14, inside⟩ ^^^ place.1) inside

def foldedKey (desKey : DesKey) (crypted : List UInt8) : DesKey := crypted.zipIdx.foldl mixIn desKey

def loginKey (random desKey : DesKey) : Vector UInt8 16 := desKeySpread (mixed random desKey)

def trafficKey (account : Account) : Vector UInt8 16 :=
  desKeySpread (foldedKey account.desKey account.crypted)

def msgLogin : UInt8 := 0xe0
def msgLoginAck : UInt8 := 0xe1
def msgCardDataReq : UInt8 := 0xe3
def msgCardData : UInt8 := 0xe4
def clientId : UInt16 := 0x7878

/-- The part `newcamd` of the connection. -/
structure Session where
  link : Link
  loginKey : Vector UInt8 16
  sessionKey : Vector UInt8 16
  caSystemId : UInt16

/-- What one message draws at random, and whether the socket takes it. -/
structure Draw where
  padding : Block
  iv : Block
  writable : Bool

/-- How a login ends, with what it wrote. -/
structure LoginEnd where
  rc : Int
  session : Session
  socket : Socket
  written : List (List UInt8)

def Session.fail (session : Session) (error : String) : Session :=
  { session with link := { session.link with error } }

/-- The buffer of the login message: the command, the length of the texts in a byte, and both
texts with their NUL. -/
def loginBuffer (account : Account) : List UInt8 :=
  let texts := account.user ++ 0 :: (account.crypted ++ [0])
  [msgLogin, 0, texts.length.toUInt8] ++ texts

/-- As much of it as that byte says. -/
def loginPayload (account : Account) : List UInt8 :=
  (loginBuffer account).take (octet (loginBuffer account) 2 + 3)

def sendCommand (link : Link) (command : UInt8) (draw : Draw) : Option (List UInt8) × Link :=
  sendMessage link [command, 0, 0] 0 0 0 false draw.padding draw.iv draw.writable

/-- The card, read from an array in which `behind` follows the payload. -/
def readCardData (payload behind : List UInt8) : UInt16 := be16 (payload ++ behind) 4

/-- The end of the login: what the server says of its card. -/
def askCard (session : Session) (draw : Draw) (behind : List UInt8) (socket : Socket)
    (written : List (List UInt8)) : LoginEnd :=
  let done (session : Session) (socket : Socket) (written : List (List UInt8)) : LoginEnd :=
    ⟨1, session.fail "", socket, written⟩
  match sendCommand session.link msgCardDataReq draw with
  | (none, link) => done { session with link } socket written
  | (some request, link) =>
      let written := written ++ [request]
      match receive link false .unsolicited socket with
      | (.payload _ payload, link, later) =>
          if payload.headD 0 = msgCardData then
            done { session with link, caSystemId := readCardData payload behind } later written
          else done { session with link } later written
      | (.timeout, link, later) => done { session with link } later written
      | (.fatal, link, later) | (.stale, link, later) =>
          ⟨-1, { session with link }, later, written⟩

/-- The answer to the login, and the change of the key. -/
def answeredLogin (account : Account) (session : Session) (draw : Draw) (behind : List UInt8)
    (socket : Socket) (written : List (List UInt8)) : LoginEnd :=
  let unexpected (link : Link) (length : Int) (later : Socket) : LoginEnd :=
    let error := if link.error = "" then s!"newcamd: unexpected login reply ({length})"
      else link.error
    ⟨-1, { session with link := { link with error } }, later, written⟩
  match receive session.link false .unsolicited socket with
  | (.payload _ reply, link, later) =>
      if reply.length ≠ 3 then unexpected link reply.length later
      else if reply.headD 0 ≠ msgLoginAck then
        ⟨-1, { session with
          link := { link with error := "newcamd: login refused (user, password or DES key)" } },
          later, written⟩
      else
        let key := trafficKey account
        askCard { session with sessionKey := key, link := { link with activeKey := key } } draw
          behind later written
  | (.timeout, link, later) => unexpected link (-2) later
  | (.fatal, link, later) => unexpected link (-1) later
  | (.stale, link, later) => unexpected link (-3) later

/-- `newcamd_login`, with the draws of its two messages. -/
def newcamdLogin (account : Account) (first second : Draw) (behind : List UInt8)
    (session : Session) (socket : Socket) : LoginEnd :=
  let session := { session with link := { session.link with msgId := 0 }, caSystemId := 0 }
  match readAll 14 socket with
  | (.all bytes, later) =>
      let key := loginKey (.ofFn fun i => bytes.getD i 0) account.desKey
      let session := { session with
        loginKey := key
        link := { session.link with activeKey := key } }
      if msgMax < account.user.length + 1 + (account.crypted.length + 1) + 3 then
        ⟨-1, session.fail "newcamd: user name too long", later, []⟩
      else
        match sendMessage session.link (loginPayload account) clientId 0 0 true first.padding
            first.iv first.writable with
        | (none, link) => ⟨-1, { session with link }, later, []⟩
        | (some login, link) =>
            answeredLogin account { session with link } second behind later [login]
  | (.timeout, later) | (.broken, later) =>
      ⟨-1, session.fail "newcamd: the handshake could not be read", later, []⟩

/-! ## The keys -/

theorem mixed_inj {random one other : DesKey} :
    mixed random one = mixed random other ↔ one = other := by
  refine ⟨fun same => Vector.ext fun i inside => ?_, fun same => by rw [same]⟩
  have byte := congrArg (fun key : DesKey => key[i]) same
  simp only [mixed, Vector.getElem_zipWith] at byte
  exact (UInt8.xor_right_inj _).mp byte

theorem mixIn_injective (place : UInt8 × Nat) : Function.Injective fun key => mixIn key place := by
  intro one other same
  refine Vector.ext fun i inside => ?_
  have byte := congrArg (fun key : DesKey => key[i]) same
  simp only [mixIn, Vector.getElem_set] at byte
  split at byte
  · rename_i here
    subst here
    exact (UInt8.xor_left_inj _).mp byte
  · exact byte

theorem foldedKey_injective (crypted : List UInt8) :
    Function.Injective fun desKey => foldedKey desKey crypted := by
  unfold foldedKey
  induction crypted.zipIdx with
  | nil => exact fun one other same => same
  | cons place places ih => exact ih.comp (mixIn_injective place)

/-- Who holds another key comes to another key of the login. -/
theorem loginKey_inj {random one other : DesKey} :
    loginKey random one = loginKey random other ↔ one = other :=
  ⟨fun same => mixed_inj.mp (desKeySpread_inj same), fun same => by rw [same]⟩

/-- And, with the same password, to another traffic key. -/
theorem trafficKey_inj {account : Account} {other : DesKey} :
    trafficKey { account with desKey := other } = trafficKey account ↔ other = account.desKey :=
  ⟨fun same => foldedKey_injective account.crypted (desKeySpread_inj same),
    fun same => by rw [same]⟩

/-! ## The crypted password -/

theorem length_sixBits (value count : Nat) : (sixBits value count).length = count := by
  induction count generalizing value with
  | zero => rfl
  | succ count ih => rw [sixBits, List.length_cons, ih]

theorem sixBits_ne_zero {value count : Nat} : ∀ byte ∈ sixBits value count, byte ≠ 0 := by
  have letters : ∀ i < 64, md5CryptAlphabet.getD i 0 ≠ 0 := by decide
  induction count generalizing value with
  | zero => exact fun byte listed => absurd listed List.not_mem_nil
  | succ count ih =>
      intro byte listed
      rcases List.mem_cons.mp listed with rfl | later
      · exact letters _ (Nat.lt_of_le_of_lt Nat.and_le_right (by decide))
      · exact ih byte later

theorem crypted_eq (account : Account) :
    ∃ digest, account.crypted = loginSalt ++ md5CryptEncode digest := ⟨_, rfl⟩

theorem length_crypted (account : Account) : account.crypted.length = 34 := by
  obtain ⟨digest, same⟩ := crypted_eq account
  simp only [same, loginSalt, md5CryptEncode, List.flatMap_cons, List.flatMap_nil,
    List.length_append, length_sixBits, List.length_cons, List.length_nil]

theorem crypted_ne_zero (account : Account) : ∀ byte ∈ account.crypted, byte ≠ 0 := by
  obtain ⟨digest, same⟩ := crypted_eq account
  have solid : loginSalt.all (fun byte => byte != 0) = true := rfl
  intro byte listed
  rw [same, List.mem_append] at listed
  rcases listed with salt | encoded
  · exact bne_iff_ne.mp (List.all_eq_true.mp solid byte salt)
  · rw [md5CryptEncode, List.mem_append, List.mem_flatMap] at encoded
    rcases encoded with inside | last
    · obtain ⟨order, -, member⟩ := inside
      exact sixBits_ne_zero byte member
    · exact sixBits_ne_zero byte last

/-! ## What is written arrives -/

theorem readMessage_behindPause {key : Vector UInt8 16} {mark source : Source} {bytes : List UInt8}
    {socket later : Socket} (read : readMessage key mark socket = (.message source bytes, later)) :
    behindPause later = behindPause socket := by
  rw [readMessage] at read
  split at read
  · cases read
  · cases read
  · rename_i head between first
    split at read
    · cases read
    · split at read
      · rename_i body after second
        obtain ⟨-, rfl⟩ := Prod.mk.inj read
        exact (readAll_behindPause second).trans (readAll_behindPause first)
      · cases read
      · cases read

theorem sendMessage_sent {link sent : Link} {data wire : List UInt8}
    {serviceId caSystemId : UInt16} {providerId : UInt32} {useMsgId writable : Bool}
    {padding iv : Block}
    (written : sendMessage link data serviceId caSystemId providerId useMsgId padding iv writable =
      (some wire, sent)) : sent = link.number useMsgId := by
  rw [sendMessage] at written
  split at written
  · cases written
  · dsimp only at written
    split at written
    · cases written
    · split at written
      · cases written
        rfl
      · cases written

theorem sendMessage_fits (link : Link) {data : List UInt8} (serviceId caSystemId : UInt16)
    (providerId : UInt32) (useMsgId : Bool) (padding iv : Block) (long : 3 ≤ data.length)
    (short : data.length ≤ 373) : ∃ wire, sendMessage link data serviceId caSystemId providerId
      useMsgId padding iv true = (some wire, link.number useMsgId) := by
  have some := (sendMessage_isSome link data serviceId caSystemId providerId useMsgId padding
    iv).mpr ⟨long, short⟩
  cases sent : sendMessage link data serviceId caSystemId providerId useMsgId padding iv true with
  | mk wire after =>
      rw [sent] at some
      cases wire with
      | none => cases some
      | some wire =>
          rw [sendMessage_sent sent]
          exact ⟨wire, rfl⟩

section Arrives

variable {link sent peer : Link} {data wire rest : List UInt8} {serviceId caSystemId : UInt16}
  {providerId : UInt32} {useMsgId checkId writable : Bool} {padding iv : Block} {socket : Socket}

/-- A message is deciphered by who holds its key, and nothing behind it is taken. -/
theorem readMessage_arrived (mark : Source)
    (written : sendMessage link data serviceId caSystemId providerId useMsgId padding iv writable =
      (some wire, sent))
    (arrives : delivered socket = wire ++ rest) :
    ∃ message later, readMessage link.activeKey mark socket = (.message mark message, later) ∧
      Deciphers message data (link.messageId useMsgId) serviceId caSystemId providerId ∧
      delivered later = rest ∧ behindPause later = behindPause socket ∧
      incoming socket = wire ++ incoming later := by
  obtain ⟨filler, message, long, -, made, aligned, short, checked, rfl⟩ := sendMessage_some written
  have enough : 10 ≤ message.length := by
    rw [made, List.length_append, length_plainMessage]
    omega
  have room : message.length + 8 ≤ camdMsgSize := by
    rw [msgMax] at short
    rw [camdMsgSize]
    omega
  obtain ⟨later, read, left, parted⟩ := readMessage_sealed mark aligned enough room checked arrives
  refine ⟨_, later, read, ⟨((message.length + 8 - 2) / 256).toUInt8,
    (message.length + 8 - 2).toUInt8, filler, ?_⟩, left, readMessage_behindPause read, parted⟩
  rw [← made]
  rfl

/-- And its payload is taken when it is awaited. -/
theorem receive_arrived (mark : Source)
    (written : sendMessage link data serviceId caSystemId providerId useMsgId padding iv writable =
      (some wire, sent))
    (sameKey : link.activeKey = peer.activeKey)
    (awaited : checkId = true → peer.msgId = link.messageId useMsgId)
    (arrives : delivered socket = wire ++ rest) :
    ∃ later, receive peer checkId mark socket = (.payload mark (reencode data), peer, later) ∧
      delivered later = rest ∧ behindPause later = behindPause socket ∧
      incoming socket = wire ++ incoming later := by
  obtain ⟨message, later, read, deciphers, left, pause, parted⟩ :=
    readMessage_arrived mark written arrives
  obtain ⟨-, -, long, most, -⟩ := sendMessage_some written
  rw [sameKey] at read
  refine ⟨later, ?_, left, pause, parted⟩
  simp only [receive, read]
  exact congrArg (fun got : Received × String => (got.1, { peer with error := got.2 }, later))
    (deciphers.received long most awaited)

end Arrives

/-! ## What the server reads -/

/-- Who holds the key reads this payload, in whatever pieces the message comes. -/
def Reads (key : Vector UInt8 16) (wire payload : List UInt8) (msgId serviceId caSystemId : UInt16)
    (provider : Nat) : Prop :=
  ∀ (mark : Source) (socket : Socket) (rest : List UInt8), delivered socket = wire ++ rest →
    ∃ message later, readMessage key mark socket = (.message mark message, later) ∧
      Header message msgId serviceId caSystemId provider ∧ payloadSize message = payload.length ∧
      (message.drop 12).take payload.length = payload ∧
      delivered later = rest ∧ incoming socket = wire ++ incoming later

theorem reads_written {link sent : Link} {data wire : List UInt8} {serviceId caSystemId : UInt16}
    {providerId : UInt32} {useMsgId writable : Bool} {padding iv : Block}
    (written : sendMessage link data serviceId caSystemId providerId useMsgId padding iv writable =
      (some wire, sent)) :
    Reads link.activeKey wire (reencode data) (link.messageId useMsgId) serviceId caSystemId
      (providerId.toNat % 2 ^ 24) := by
  intro mark socket rest arrives
  obtain ⟨message, later, read, deciphers, left, -, parted⟩ :=
    readMessage_arrived mark written arrives
  obtain ⟨-, -, long, most, -⟩ := sendMessage_some written
  have header := deciphers.header
  obtain ⟨first, second, filler, made⟩ := deciphers
  obtain ⟨size, payload⟩ := @payload_plainMessage data (link.messageId useMsgId) serviceId
    caSystemId providerId long (by omega) first second filler
  rw [← made, ← length_reencode data] at size payload
  exact ⟨message, later, read, header, size, payload, left, parted⟩

/-- The user and the crypted password, each up to its NUL. -/
structure Names (payload name word : List UInt8) : Prop where
  command : payload.headD 0 = msgLogin
  user : (payload.drop 3).takeWhile (· ≠ 0) = name
  crypted : (payload.drop (3 + (name.length + 1))).takeWhile (· ≠ 0) = word

/-- A user name as the configuration holds it: a text in 64 bytes. -/
structure Account.Fits (account : Account) : Prop where
  short : account.user.length ≤ 63
  text : ∀ byte ∈ account.user, byte ≠ 0

theorem no_flags : ((0 : UInt8) &&& 0xf0) ||| ((0 : Nat).toUInt8 &&& 0x0f) = 0 := by decide

section Payload

variable {account : Account}

theorem loginPayload_eq (fits : account.Fits) : loginPayload account =
    msgLogin :: 0 :: (account.user.length + 36).toUInt8 ::
      (account.user ++ 0 :: (account.crypted ++ [0])) := by
  have size :
      (account.user ++ 0 :: (account.crypted ++ [0])).length = account.user.length + 36 := by
    simp only [List.length_append, List.length_cons, List.length_nil, length_crypted]
  have octets : octet (loginBuffer account) 2 = account.user.length + 36 := by
    have short := fits.short
    change ((account.user ++ 0 :: (account.crypted ++ [0])).length.toUInt8).toNat = _
    rw [size]
    exact Nat.mod_eq_of_lt (by omega)
  rw [loginPayload, octets, loginBuffer]
  simp only [size]
  refine List.take_of_length_le ?_
  simp only [List.length_append, size, List.length_cons, List.length_nil]
  omega

theorem length_loginPayload (fits : account.Fits) :
    (loginPayload account).length = account.user.length + 39 := by
  simp only [loginPayload_eq fits, List.length_append, List.length_cons, List.length_nil,
    length_crypted]

/-- The length of the section is the one that the login writes itself. -/
theorem reencode_loginPayload (fits : account.Fits) :
    reencode (loginPayload account) = loginPayload account := by
  have short := fits.short
  have size := length_loginPayload fits
  have high : (account.user.length + 36) / 256 = 0 := Nat.div_eq_of_lt (by omega)
  rw [reencode, size, Nat.add_sub_assoc (by decide), loginPayload_eq fits]
  simp only [Nat.reduceSub, high, List.getD_cons_succ, List.getD_cons_zero, no_flags,
    List.set_cons_succ, List.set_cons_zero]

theorem takeWhile_text {text : List UInt8} (solid : ∀ byte ∈ text, byte ≠ 0) (rest : List UInt8) :
    (text ++ 0 :: rest).takeWhile (· ≠ 0) = text := by
  rw [List.takeWhile_append_of_pos fun byte listed => decide_eq_true (solid byte listed),
    List.takeWhile_cons_of_neg (by decide), List.append_nil]

theorem names_loginPayload (fits : account.Fits) :
    Names (loginPayload account) account.user account.crypted := by
  rw [loginPayload_eq fits]
  refine ⟨rfl, takeWhile_text fits.text _, ?_⟩
  rw [Nat.add_comm 3]
  change ((account.user ++ 0 :: (account.crypted ++ [0])).drop (account.user.length + 1)).takeWhile
    _ = _
  rw [List.drop_length_add_append]
  exact takeWhile_text (crypted_ne_zero account) []

end Payload

/-! ## The login -/

/-- A message with this payload, as any holder of the key writes it. -/
def Written (key : Vector UInt8 16) (data wire : List UInt8) : Prop :=
  ∃ (link sent : Link) (serviceId caSystemId : UInt16) (providerId : UInt32)
    (useMsgId writable : Bool) (padding iv : Block), link.activeKey = key ∧
      sendMessage link data serviceId caSystemId providerId useMsgId padding iv writable =
        (some wire, sent)

theorem Written.received {peer : Link} {data wire rest : List UInt8} {socket : Socket}
    (written : Written peer.activeKey data wire) (mark : Source)
    (arrives : delivered socket = wire ++ rest) :
    ∃ later, receive peer false mark socket = (.payload mark (reencode data), peer, later) ∧
      delivered later = rest ∧ behindPause later = behindPause socket ∧
      incoming socket = wire ++ incoming later := by
  obtain ⟨link, sent, serviceId, caSystemId, providerId, useMsgId, writable, padding, iv, sameKey,
    sealed⟩ := written
  exact receive_arrived mark sealed sameKey (fun absurd => Bool.noConfusion absurd) arrives

theorem headD_reencode (data : List UInt8) : (reencode data).headD 0 = data.headD 0 := by
  cases data with
  | nil => rfl
  | cons first rest => rfl

theorem reencode_command (command : UInt8) : reencode [command, 0, 0] = [command, 0, 0] := by
  simp only [reencode, List.length_cons, List.length_nil, Nat.zero_add, Nat.reduceAdd,
    Nat.sub_self, Nat.zero_div, List.getD_cons_succ, List.getD_cons_zero, no_flags,
    List.set_cons_succ, List.set_cons_zero]
  rfl

theorem sendCommand_taken (link : Link) (command : UInt8) {draw : Draw}
    (taken : draw.writable = true) : ∃ wire, sendCommand link command draw = (some wire, link) ∧
      Reads link.activeKey wire [command, 0, 0] 0 0 0 0 := by
  obtain ⟨wire, sent⟩ := @sendMessage_fits link [command, 0, 0] 0 0 0 false draw.padding draw.iv
    (by simp only [List.length_cons, List.length_nil, Nat.le_refl])
    (by simp only [List.length_cons, List.length_nil]; omega)
  have reads := reads_written sent
  rw [reencode_command] at reads
  rw [sendCommand, taken]
  exact ⟨wire, sent, reads⟩

/-- What the server says of its card, if anything: the payload, and how it is written. -/
abbrev CardAnswer : Type := Option (List UInt8 × List UInt8)

/-- The CA system the client knows afterwards. -/
def CardAnswer.caSystemId (card : CardAnswer) (behind : List UInt8) : UInt16 :=
  match card with
  | none => 0
  | some answer =>
      if answer.1.headD 0 = msgCardData then readCardData (reencode answer.1) behind else 0

section Login

variable {account : Account} {first second : Draw} {behind : List UInt8} {session : Session}
  {socket : Socket} {rest : List (List UInt8)} {card : CardAnswer} {written : List (List UInt8)}

theorem askCard_ends (some : rest ≠ []) (taken : second.writable = true)
    (unknown : session.caSystemId = 0)
    (told : ∀ answer ∈ card, Written session.link.activeKey answer.1 answer.2)
    (arrives : stretches socket = heard [] (card.map Prod.snd) rest) :
    ∃ request, (askCard session second behind socket written).rc = 1 ∧
      (askCard session second behind socket written).written = written ++ [request] ∧
      (askCard session second behind socket written).session.link =
        { session.link with error := "" } ∧
      (askCard session second behind socket written).session.caSystemId =
        card.caSystemId behind ∧
      Reads session.link.activeKey request [msgCardDataReq, 0, 0] 0 0 0 0 ∧
      stretches (askCard session second behind socket written).socket = rest := by
  obtain ⟨request, sent, reads⟩ := sendCommand_taken session.link msgCardDataReq taken
  obtain ⟨next, others, rfl⟩ := List.exists_cons_of_ne_nil some
  refine ⟨request, ?_⟩
  cases card with
  | none =>
      obtain ⟨later, rfl, left⟩ := stretches_paused arrives
      simp only [askCard, sent]
      exact ⟨rfl, rfl, rfl, unknown, reads, left⟩
  | some answer =>
      have speaks : stretches socket = (answer.2 ++ next) :: others := arrives
      obtain ⟨comes, after⟩ := stretches_read speaks
      obtain ⟨later, received, left, pause, -⟩ :=
        (told answer rfl).received .unsolicited comes
      simp only [askCard, sent, received, headD_reencode, CardAnswer.caSystemId]
      split
      · exact ⟨rfl, rfl, rfl, rfl, reads, after later left pause⟩
      · exact ⟨rfl, rfl, rfl, unknown, reads, after later left pause⟩

theorem answeredLogin_acked {ack front : List UInt8} {others : List (List UInt8)}
    (acked : Written session.link.activeKey [msgLoginAck, 0, 0] ack)
    (arrives : stretches socket = (ack ++ front) :: others) :
    ∃ later, answeredLogin account session second behind socket written =
        askCard { session with
          sessionKey := trafficKey account
          link := { session.link with activeKey := trafficKey account } } second behind later
          written ∧ stretches later = front :: others := by
  obtain ⟨comes, after⟩ := stretches_read arrives
  obtain ⟨later, received, left, pause, -⟩ := acked.received .unsolicited comes
  rw [reencode_command] at received
  refine ⟨later, ?_, after later left pause⟩
  simp only [answeredLogin, received, List.length_cons, List.length_nil, Nat.reduceAdd, ne_eq,
    not_true_eq_false, if_false, List.headD_cons]

/-- What is known when a login has gone well: the wires that were written, the payload of the
first as the server reads it, and what the client holds. -/
structure Agreed (account : Account) (random : DesKey) (card : CardAnswer)
    (behind login request payload : List UInt8) (ended : LoginEnd) : Prop where
  rc : ended.rc = 1
  written : ended.written = [login, request]
  reads : Reads (loginKey random account.desKey) login payload 1 clientId 0 0
  names : Names payload account.user account.crypted
  link : ended.session.link = ⟨trafficKey account, 1, ""⟩
  asks : Reads (trafficKey account) request [msgCardDataReq, 0, 0] 0 0 0 0
  caSystemId : ended.session.caSystemId = card.caSystemId behind

/-- With a server that holds the same key, in whatever pieces its bytes come and whether or not
it says anything of its card: it reads the user and the crypted password, both sides end with
one traffic key, and nothing behind what was awaited is taken. -/
theorem newcamdLogin_agrees {random : DesKey} {ack : List UInt8} (fits : account.Fits)
    (taken : first.writable = true ∧ second.writable = true)
    (acked : Written (loginKey random account.desKey) [msgLoginAck, 0, 0] ack)
    (told : ∀ answer ∈ card, Written (trafficKey account) answer.1 answer.2) (some : rest ≠ [])
    (arrives : stretches socket = heard (random.toList ++ ack) (card.map Prod.snd) rest) :
    (∃ login request payload, Agreed account random card behind login request payload
      (newcamdLogin account first second behind session socket)) ∧
    stretches (newcamdLogin account first second behind session socket).socket = rest := by
  obtain ⟨left, more, rfl⟩ := List.exists_cons_of_ne_nil some
  obtain ⟨next, others, front, bare⟩ :=
    heard_front (random.toList ++ ack) (card.map Prod.snd) left more
  rw [front, List.append_assoc] at arrives
  obtain ⟨comes, after⟩ := stretches_read arrives
  obtain ⟨between, handshake, left, -⟩ := readAll_front comes
  have speaks := after between left (readAll_behindPause handshake)
  rw [Vector.length_toList] at handshake
  have same : (Vector.ofFn fun i : Fin 14 => random.toList.getD i 0) = random := by
    refine Vector.ext fun i inside => ?_
    rw [Vector.getElem_ofFn, ← DesKey.octet, ← DesKey.getElem_eq_octet]
  have short := fits.short
  have room : ¬ msgMax < account.user.length + 1 + (account.crypted.length + 1) + 3 := by
    rw [length_crypted, msgMax]
    omega
  have size := length_loginPayload fits
  have began : ∃ login, sendMessage ⟨loginKey random account.desKey, 0, session.link.error⟩
      (loginPayload account) clientId 0 0 true first.padding first.iv first.writable =
        (Option.some login, ⟨loginKey random account.desKey, 1, session.link.error⟩) := by
    rw [taken.1]
    exact sendMessage_fits _ _ _ _ _ _ _ (by omega) (by omega)
  obtain ⟨login, sent⟩ := began
  have reads := reads_written sent
  rw [reencode_loginPayload fits] at reads
  obtain ⟨later, asked, speaks⟩ := @answeredLogin_acked account second behind
    { session with
      loginKey := loginKey random account.desKey
      link := ⟨loginKey random account.desKey, 1, session.link.error⟩
      caSystemId := 0 } between [login] ack next others acked speaks
  obtain ⟨request, rc, wires, link, caSystemId, asks, speaks⟩ := @askCard_ends second behind
    { session with
      loginKey := loginKey random account.desKey
      sessionKey := trafficKey account
      link := ⟨trafficKey account, 1, session.link.error⟩
      caSystemId := 0 } later _ card [login] some taken.2 rfl told (speaks.trans bare.symm)
  have ended : newcamdLogin account first second behind session socket = answeredLogin account
      { session with
        loginKey := loginKey random account.desKey
        link := ⟨loginKey random account.desKey, 1, session.link.error⟩
        caSystemId := 0 } second behind between [login] := by
    simp only [newcamdLogin, handshake, same, if_neg room, sent]
  rw [ended, asked]
  exact ⟨⟨login, request, loginPayload account, rc, wires, reads, names_loginPayload fits, link,
    asks, caSystemId⟩, speaks⟩

end Login

end Camd.Newcamd
